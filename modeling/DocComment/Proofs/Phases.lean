import DocComment.Dialect.Grammar
import DocComment.Proofs.DraftFrame

/-!
# The phases of a reading

Beside the name of its state a reading has a draft, and the two have to go together:
entries of a table are declared only while a table is open, source is captured only
between comments, and nothing is pending where no line could go on with it. `Phase.Fits`
says, for each phase of a reading, what the draft looks like.

Every action has a phase that it works in and one that it leads to, and
`Action.fits_of_run` proves that for all of them. That the rules of the dialect use each
action in its phase only, and go on to states of the phase it leads to, concerns nothing
but names; it is a test on the tables that evaluates (`grammar_wellPhased`). So a state of
the dialect is never looked at alone, and a rule that is moved or added is covered as long
as the test passes.
-/

namespace DocComment

open Text

/-- How far a reading has come, as far as its draft can tell. -/
inductive Phase where
  /-- Before the first section. -/
  | opening
  /-- Within a comment. -/
  | writing
  /-- Within a comment, with nothing pending. -/
  | pausing
  /-- At the end of a comment, which may be one inside a table. -/
  | closed
  /-- Right after a comment that is not inside a table. -/
  | leaving
  /-- In source; what is captured goes to the current group. -/
  | source
  /-- In source that is about to be left, where the current group may be a new one. -/
  | departing
  /-- In a table. -/
  | table
  deriving DecidableEq, Repr

namespace Draft

/-- Nothing has been written yet. -/
structure Opening (d : Draft) : Prop where
  current : d.current = none
  sections : d.doc.sections = []
  table : d.table = none
  back : d.back = none
  scratch : d.scratch = none
  pending : d.pending = none
  style : d.nextStyle = none

/-- A comment is being written. It leads back to a table exactly if one is open. -/
structure Writing (d : Draft) : Prop where
  opened : d.current.isSome
  scratch : d.scratch = none
  back : d.back = d.table.map fun _ => Action.tableState
  pending : d.pending.all Entry.takesText

structure Pausing (d : Draft) : Prop extends Writing d where
  settled : d.pending = none

structure Closed (d : Draft) : Prop extends Pausing d where
  style : d.nextStyle = none

structure Leaving (d : Draft) : Prop extends Closed d where
  outside : d.table = none

/-- Neither a comment nor a table is being read. -/
structure Between (d : Draft) : Prop where
  opened : d.current.isSome
  settled : d.pending = none
  style : d.nextStyle = none
  table : d.table = none
  back : d.back = none

/-- Source is read. It is captured exactly in literate mode. -/
structure Departing (d : Draft) : Prop extends Between d where
  literate : d.scratch.isSome = d.doc.literate

structure InSource (d : Draft) : Prop extends Departing d where
  group : ∀ s, d.scratch = some s → s.group = d.group

/-- A table is read. The way back to it may be left over from a comment inside it. -/
structure InTable (d : Draft) : Prop where
  opened : d.current.isSome
  scratch : d.scratch = none
  settled : d.pending = none
  style : d.nextStyle = none
  table : d.table.isSome
  back : d.back = none ∨ d.back = some Action.tableState

end Draft

namespace Phase

/-- What a draft looks like in a phase. -/
def Fits : Phase → Draft → Prop
  | opening => Draft.Opening
  | writing => Draft.Writing
  | pausing => Draft.Pausing
  | closed => Draft.Closed
  | leaving => Draft.Leaving
  | source => Draft.InSource
  | departing => Draft.Departing
  | table => Draft.InTable

/-- Whether every draft of the first phase is one of the second phase. -/
def below (p q : Phase) : Bool :=
  p = q ||
    match p, q with
    | pausing, writing | closed, writing | closed, pausing => true
    | leaving, writing | leaving, pausing | leaving, closed | source, departing => true
    | _, _ => false

theorem Fits.of_below {p q : Phase} {d : Draft} (h : p.Fits d) (hpq : p.below q) : q.Fits d := by
  unfold below at hpq
  rw [Bool.or_eq_true, decide_eq_true_eq] at hpq
  rcases hpq with rfl | hpq
  · exact h
  · split at hpq
    · exact Draft.Pausing.toWriting h
    · exact Draft.Pausing.toWriting (Draft.Closed.toPausing h)
    · exact Draft.Closed.toPausing h
    · exact Draft.Pausing.toWriting (Draft.Closed.toPausing (Draft.Leaving.toClosed h))
    · exact Draft.Closed.toPausing (Draft.Leaving.toClosed h)
    · exact Draft.Leaving.toClosed h
    · exact Draft.InSource.toDeparting h
    · cases hpq

end Phase

/-! ## The phases of actions and states -/

namespace Action

/-- The phase that an action works in. -/
def before : Action → Phase
  | preambleSection | missingTitle | untitledPreamble => .opening
  | flush | closeComment | newSection | newTitle | declareFunction | declareConstant | todoFixme
  | append | appendLine | appendBlankLine | bullet | definition | startCode | mathInline | mathOpen
  | mathClose => .writing
  | documentedFunction | documentedGlobalFunction | documentedLibParam => .leaving
  | undocumentedFunction | undocumentedParam | endOfFunction | enableOption | disableOption
  | openTable | sourceTodo | startComment | sourceLine => .source
  | paramsTitle | paramsComment | paramsBlockComment | paramsInlineComment | tableParam | listParam
  | sameLineParam | closeTable | paramsOther => .table

/-- The phase that an action leads to, where it does not choose the transition. -/
def after : Action → Phase
  | missingTitle => .leaving
  | flush => .pausing
  | closeComment => .closed
  | preambleSection | untitledPreamble | newSection | newTitle | declareFunction | declareConstant
  | todoFixme | append | appendLine | appendBlankLine | bullet | definition | startCode
  | mathInline | mathOpen | mathClose | paramsBlockComment => .writing
  | documentedFunction | documentedGlobalFunction | documentedLibParam | closeTable => .leaving
  | undocumentedFunction | undocumentedParam | endOfFunction | enableOption | disableOption
  | sourceTodo | sourceLine => .source
  | startComment => .departing
  | paramsComment => .closed
  | openTable | paramsTitle | paramsInlineComment | tableParam | listParam | sameLineParam
  | paramsOther => .table

end Action

/-- The phase of the drafts that a state of the dialect works on. -/
def State.phase (s : State) : Phase :=
  match s.name with
  | "start" | "preamble" => .opening
  | "mgroup_blank" | "mcode" | "group_blank" | "code" => .pausing
  | "end_comment" => .leaving
  | "lua" => .source
  | "params" => .table
  | _ => .writing

/-- The phase of a draft once a capture of source has been ended. -/
def Phase.uncaptured : Phase → Phase
  | source | departing => leaving
  | p => p

/-- The phase of a draft once a state has been left. -/
def State.phaseAfterExit (s : State) (p : Phase) : Phase :=
  match s.exit with
  | some .sourceExit => p.uncaptured
  | _ => p

/-- Whether a state can be entered with a draft of a phase. Only source has a hook for
that, which starts to capture it in literate mode. -/
def State.canEnter (s : State) (p : Phase) : Bool :=
  match s.enter with
  | none => p.below s.phase
  | some .sourceEnter => p.below .leaving && Phase.source.below s.phase
  | some _ => false

/-- Whether a hook is one that states are left with. -/
def State.exitsPlainly (s : State) : Bool :=
  s.exit = none || s.exit = some .sourceExit

/-- Whether a rule of a state uses its action in the phase of that action, and goes on to
a state of the phase that the action leads to. -/
def Rule.wellPhased (g : Grammar) (s : State) (r : Rule) : Bool :=
  let reached := (r.action.map Action.after).getD s.phase
  (r.action.all fun a => s.phase.below a.before) &&
    match r.next with
    | .stay => reached.below s.phase
    | .goTo target _ => (g.find? target).any fun s' => s'.canEnter (s.phaseAfterExit reached)
    | .resolve _ => s.exit = none && reached.below .closed

/-- Whether a state uses all of its rules and hooks in the right phase. An action that
chooses the transition itself chooses the entries of a table. -/
def State.wellPhased (g : Grammar) (s : State) : Bool :=
  s.exitsPlainly && s.rules.all (·.wellPhased g s) &&
    (g.find? Action.tableState).any (·.canEnter (s.phaseAfterExit .table))

theorem grammar_wellPhased :
    ∀ s ∈ Dialect.states, s.wellPhased Dialect.grammar := by decide

end DocComment
