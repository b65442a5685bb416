import DocComment.Proofs.Replays

/-!
# Everything that is written, one thing at a time

There are some thirty operations on a draft, and an action does several of them; but only
nine things ever happen. `Draft.Write` has one constructor for each of the nine, and all
that an action or a hook does is a chain of them (`Action.written_run`,
`Draft.writes_crossTo`). So a property of drafts is kept by every source if it is kept by
nine small changes, whatever the operations look like that are made of them.

One thing is missing from the list. A declaration that finds `nodoc` before it takes a
paragraph away (`Draft.Skips`), which is the only time that anything is taken away at all.
It is kept apart, and said to come last: an action that declares something does nothing
after the declaration.
-/

namespace DocComment

open Text Relation Reader

namespace Draft

/-! ## Single writes -/

/-- The least that can happen to a draft. -/
inductive Write : Draft → Draft → Prop where
  /-- Something else is remembered, or a mode is switched. -/
  | remember (d : Draft) (pending : Option Entry) (nextStyle : Option String)
      (functionGroup : Option GroupId) (table back : Option String) (scratch : Option Scratch)
      (looseReported literate loose : Bool) :
      Write d { d with
        doc := { d.doc with literate, loose }
        pending, nextStyle, functionGroup, table, back, scratch, looseReported }
  | freshGroup (d : Draft) : Write d d.freshGroup
  /-- An entry is added to some group. -/
  | addEntry (d : Draft) (i : GroupId) (e : Entry) : Write d { d with doc := d.doc.addEntry i e }
  /-- The current group gets to document something that is no parameter. -/
  | describe (d : Draft) {f : Group → Group} (hf : ∀ g, (f g).entries = g.entries) :
      Write d (d.updateGroup f)
  | placeGroup (d : Draft) (i : GroupId) : Write d (d.placeGroup i)
  /-- A section is opened with the current group. -/
  | opened (d : Draft) (title name : String) : Write d { d with
      doc := { d.doc with sections := d.doc.sections ++ d.current.toList }
      current := some { title, name, groups := [d.group] } }
  | listSpan (d : Draft) (s : Span) : Write d (d.listSpan s)
  /-- The current group gets to document a parameter, and the next one is a new one. -/
  | declare {d f : Draft} {key : String} {definition : Option String} {kind : ParamKind}
      (hd : d.current.isSome)
      (h : (d.updateGroup fun g =>
        { g with param := some key, paramKind := some kind, params := definition }).register
          key kind = .ok f) :
      Write d f.place.freshGroup
  /-- A key gets a table without entries. -/
  | clearTable (d : Draft) (key : String) :
      Write d { d with doc := { d.doc with params := putKey key {} d.doc.params } }

/-- The second draft is the first one after some writes. -/
def Writes : Draft → Draft → Prop :=
  ReflTransGen Write

/-- The second draft is the first one without the `nodoc` at the end of its current
group. -/
def Skips (d e : Draft) : Prop :=
  d.currentGroup.entries.getLast?.any Entry.isNodoc ∧
    e = { d.updateGroup fun g => { g with entries := g.entries.dropLast } with pending := none }

/-- The second draft is the first one after some writes, and maybe a declaration that is
skipped in the end. -/
def Written (declares : Prop) (d e : Draft) : Prop :=
  ∃ d', Writes d d' ∧ (e = d' ∨ declares ∧ Skips d' e)

variable {declares : Prop} {d e f : Draft}

theorem Writes.refl (d : Draft) : Writes d d :=
  ReflTransGen.refl

theorem Writes.trans (h : Writes d e) (h' : Writes e f) : Writes d f :=
  ReflTransGen.trans h h'

theorem Write.writes (h : Write d e) : Writes d e :=
  ReflTransGen.single h

theorem Writes.written (h : Writes d e) : Written declares d e :=
  ⟨e, h, Or.inl rfl⟩

theorem Written.of_writes (h : Writes d e) (h' : Written declares e f) : Written declares d f := by
  obtain ⟨d', hw, hs⟩ := h'
  exact ⟨d', h.trans hw, hs⟩

theorem Written.writes (h : Written declares d e) (hno : ¬ declares) : Writes d e := by
  obtain ⟨d', hw, rfl | ⟨hd, -⟩⟩ := h
  · exact hw
  · exact absurd hd hno

/-! ## Groups and sections -/

theorem writes_remember (h : e = { d with
    doc := { d.doc with literate := e.doc.literate, loose := e.doc.loose }
    pending := e.pending, nextStyle := e.nextStyle, functionGroup := e.functionGroup
    table := e.table, back := e.back, scratch := e.scratch, looseReported := e.looseReported }) :
    Writes d e :=
  h ▸ (Write.remember d _ _ _ _ _ _ _ _ _).writes

theorem writes_flush (d : Draft) : Writes d d.flush := by
  rw [flush]
  split
  · exact .refl d
  · next e _ => exact (Write.addEntry d d.group e.settled).writes.trans (writes_remember rfl)

theorem writes_pend (d : Draft) (p : Option Entry) : Writes d { d.flush with pending := p } :=
  (writes_flush d).trans (writes_remember rfl)

theorem writes_closeComment (d : Draft) : Writes d d.closeComment :=
  (writes_flush d).trans (writes_remember rfl)

theorem writes_openSection (d : Draft) (title : String) : Writes d (d.openSection title) :=
  ((writes_flush d).trans (Write.freshGroup _).writes).trans (Write.opened _ title _).writes

theorem writes_ensureSection (d : Draft) (reason : Option Template) :
    Writes d (d.ensureSection reason).1 := by
  unfold ensureSection
  split
  · exact .refl d
  · exact (writes_openSection d _).trans (Write.addEntry _ _ _).writes

theorem writes_addPlaced (d : Draft) (e : Entry) : Writes d (d.flush.addEntry e).place :=
  ((writes_flush d).trans (Write.addEntry _ _ e).writes).trans (Write.placeGroup _ _).writes

/-! ## Text, source and spans -/

theorem writes_appendText {text : String} {onNewLine : Bool}
    (h : d.appendText text onNewLine = .ok e) : Writes d e := by
  rcases appendText_cases h with ⟨-, rfl⟩ | ⟨p, p', -, -, rfl⟩
  · exact writes_remember rfl
  · exact writes_remember rfl

theorem writes_appendItem (d : Draft) (item : ListItem) : Writes d (d.appendItem item) := by
  rw [appendItem]
  split
  · exact writes_remember rfl
  · exact writes_pend d _

theorem writes_captureLine (d : Draft) (line : String) : Writes d (d.captureLine line) := by
  rw [captureLine]
  split
  · exact .refl d
  · exact writes_remember rfl

theorem writes_attachCode (d : Draft) (s : Scratch) : Writes d (d.attachCode s) := by
  rw [attachCode]
  split
  · exact (Write.addEntry d s.group _).writes
  · exact .refl d

theorem writes_splitCapture (d : Draft) : Writes d d.splitCapture := by
  rw [splitCapture]
  split
  · exact .refl d
  · next s _ =>
      split
      · exact (writes_attachCode d s).trans (writes_remember rfl)
      · exact .refl d

theorem writes_startCapture (d : Draft) : Writes d d.startCapture := by
  rw [startCapture]
  split
  · exact .refl d
  · exact (Write.freshGroup d).writes.trans (writes_remember rfl)

theorem writes_finishCapture (d : Draft) : Writes d d.finishCapture := by
  rw [finishCapture]
  split
  · exact .refl d
  · next s _ =>
      have hattach : Writes d ({ d with scratch := none }.attachCode s) :=
        (writes_remember rfl).trans (writes_attachCode _ s)
      simp only []
      split
      · exact hattach
      · exact hattach.trans (Write.placeGroup _ _).writes

theorem writes_addSpan (d : Draft) (kind : SpanKind) (text : String) :
    Writes d (d.addSpan kind text) := by
  refine (writes_splitCapture d).trans ?_
  rw [addSpan]
  split
  · exact writes_pend _ _
  · exact (writes_pend _ _).trans (Write.listSpan _ _).writes

theorem writes_addTodo (d : Draft) (text : String) : Writes d (d.addTodo text) :=
  (writes_addSpan d .todo text).trans (writes_flush _)

theorem writes_addKeyword {whole keyword text : String}
    (h : d.addKeyword whole keyword text = .ok e) : Writes d e := by
  rw [addKeyword] at h
  split at h
  · exact Except.ok.inj h ▸ writes_addSpan d _ text
  · exact writes_appendText h

/-! ## Tables and directives -/

theorem writes_openTable (d : Draft) (key : String) (lead : Option String) :
    Writes d (d.openTable key lead) := by
  have hopen := (Write.clearTable d (stripDeclaration key)).writes.trans
    (writes_remember (e := { d with
      doc := { d.doc with params := putKey (stripDeclaration key) {} d.doc.params }
      table := some (stripDeclaration key) }) rfl)
  exact (hopen.trans (writes_addPlaced _ _)).trans (Write.freshGroup _).writes

theorem writes_closeTable (d : Draft) : Writes d d.closeTable :=
  (writes_addPlaced d _).trans (writes_remember rfl)

theorem writes_flagUndocumented (d : Draft) : Writes d d.flagUndocumented := by
  rw [flagUndocumented]
  split
  · exact (Write.freshGroup d).writes
  · exact (Write.freshGroup d).writes.trans (writes_addTodo _ _)

theorem writes_setLoose (d : Draft) (enabled : Bool) : Writes d (d.setLoose enabled) := by
  rw [setLoose]
  split
  · exact (writes_remember rfl).trans (writes_addTodo
      { d with doc := { d.doc with loose := enabled }, looseReported := true } _)
  · exact writes_remember rfl

theorem writes_setLiterate (d : Draft) (enabled : Bool) : Writes d (d.setLiterate enabled) := by
  have hmode : Writes d { d with doc := { d.doc with literate := enabled } } := writes_remember rfl
  rw [setLiterate]
  split
  · exact hmode.trans (writes_startCapture _)
  · exact hmode.trans (writes_finishCapture _)

theorem writes_applyDirective {option : String} {enabled : Bool} {line : Option Int}
    (h : d.applyDirective option enabled line = .ok e) : Writes d e := by
  rw [applyDirective] at h
  split at h
  · split at h
    · split at h
      · exact Except.ok.inj h ▸ writes_setLiterate d enabled
      · exact Except.ok.inj h ▸ writes_setLoose d enabled
    · cases h
  · cases h

/-! ## Declarations -/

/-- A `nodoc` that is still pending leaves nothing behind. -/
theorem written_discardNodoc? (hdecl : declares) (h : d.discardNodoc? = some e) :
    Written declares d e := by
  rw [discardNodoc?] at h
  split at h
  · exact Option.some.inj h ▸ (writes_remember rfl).written
  · split at h
    · next hlast => exact ⟨d, .refl d, Or.inr ⟨hdecl, hlast, (Option.some.inj h).symm⟩⟩
    · cases h

theorem writes_placeAs (d : Draft) {f : Group → Group} (hf : ∀ g, (f g).entries = g.entries) :
    Writes d { (d.updateGroup f).place with functionGroup := some (d.updateGroup f).group } :=
  ((Write.describe d hf).writes.trans (Write.placeGroup _ _).writes).trans (writes_remember rfl)

theorem written_declareFunction (hdecl : declares) (d : Draft) (binding : Binding) (name : String)
    (params : Option String) : Written declares d (d.declareFunction binding name params) := by
  rw [declareFunction]
  split
  · next h => exact written_discardNodoc? hdecl h
  · refine (writes_placeAs d ?_).written
    exact fun _ => rfl

theorem written_declareConstant (hdecl : declares) (d : Draft) (name : String) :
    Written declares d (d.declareConstant name) := by
  rw [declareConstant]
  split
  · next h => exact written_discardNodoc? hdecl h
  · refine (writes_placeAs d ?_).written
    exact fun _ => rfl

theorem written_declareParam (hdecl : declares) (hd : d.current.isSome) {key : String}
    {definition : Option String} {kind : ParamKind}
    (h : d.declareParam key definition kind = .ok e) : Written declares d e := by
  rcases declareParam_cases h with h | ⟨-, f, hf, rfl⟩
  · exact written_discardNodoc? hdecl h
  · exact (Write.declare hd hf).writes.written

end Draft

/-! ## Actions -/

namespace Action

open Draft

variable {d e : Draft}

/-- Whether an action may declare something. -/
def declares : Action → Bool
  | declareFunction | declareConstant | documentedFunction | documentedGlobalFunction
  | documentedLibParam | undocumentedFunction | undocumentedParam | tableParam | listParam
  | sameLineParam => true
  | _ => false

theorem writes_openPreamble (d : Draft) (title : String) : Writes d (openPreamble d title) :=
  (writes_openSection d title).trans (writes_remember rfl)

theorem writes_freshIf (d : Draft) (p : Prop) [Decidable p] :
    Writes d (if p then d.freshGroup else d) := by
  split
  · exact (Write.freshGroup d).writes
  · exact .refl d

theorem writes_entryGroup (d : Draft) : Writes d (entryGroup d) := by
  rw [entryGroup]
  split
  · exact .refl d
  · exact (Write.freshGroup d).writes

theorem writes_splitFromSection (d : Draft) : Writes d (splitFromSection d) := by
  rw [splitFromSection]
  split
  · exact writes_flagUndocumented d
  · exact .refl d

theorem writes_addTrailing {text : String} (h : addTrailing d text = .ok e) : Writes d e := by
  rw [addTrailing] at h
  split at h
  · exact Except.ok.inj h ▸ .refl d
  · exact writes_appendText h

theorem writes_addFormula {formula trailing : String}
    (h : addFormula d formula trailing = .ok e) : Writes d e := by
  rw [addFormula] at h
  refine Writes.trans ?_ (writes_addTrailing h)
  split
  · exact .refl d
  · exact (writes_pend d _).trans (writes_flush _)

theorem writes_closeFormula {formula trailing : String}
    (h : closeFormula d formula trailing = .ok e) : Writes d e := by
  rw [closeFormula] at h
  split at h
  · exact (writes_flush d).trans (writes_addTrailing h)
  · obtain ⟨d', hd', h⟩ := ok_of_bind h
    exact ((writes_appendText hd').trans (writes_flush d')).trans (writes_addTrailing h)

theorem written_declareLibParam {declares : Prop} (hdecl : declares) (hd : d.current.isSome)
    {key value : String} (h : declareLibParam d key value = .ok e) : Written declares d e := by
  rw [declareLibParam] at h
  simp only [] at h
  split at h
  · exact Except.ok.inj h ▸ (Writes.refl d).written
  · split at h
    · have hopened := (frame_flagUndocumented d).opened hd
      exact .of_writes (writes_flagUndocumented d) (written_declareParam hdecl hopened h)
    · exact written_declareParam hdecl hd h

theorem written_captureOr {declares : Prop} {line : String} {declare : Draft → Except Fault Draft}
    (hd : declare d.flagUndocumented = .ok e → Written declares d.flagUndocumented e)
    (h : captureOr d line declare = .ok e) : Written declares d e := by
  rcases captureOr_cases h with rfl | ⟨-, h⟩
  · exact (writes_captureLine d line).written
  · exact .of_writes (writes_flagUndocumented d) (hd h)

/-- An action does nothing but write, except that a declaration may be skipped in the
end. -/
theorem written_apply {a : Action} {line : Nat} {c : Captures} (hd : a.before.Fits d)
    (h : a.apply line c d = .ok e) : Written a.declares d e := by
  cases a with
  | missingTitle | untitledPreamble | documentedLibParam | undocumentedParam =>
      exact Except.ok.inj h ▸ (Writes.refl d).written
  | preambleSection => exact Except.ok.inj h ▸ (writes_openPreamble d _).written
  | flush => exact Except.ok.inj h ▸ (writes_flush d).written
  | closeComment => exact Except.ok.inj h ▸ (writes_closeComment d).written
  | newSection => exact Except.ok.inj h ▸ (writes_openSection d _).written
  | newTitle => exact Except.ok.inj h ▸ (writes_addPlaced d _).written
  | declareFunction => exact Except.ok.inj h ▸ written_declareFunction rfl d _ _ _
  | declareConstant => exact Except.ok.inj h ▸ written_declareConstant rfl d _
  | todoFixme => exact (writes_addKeyword h).written
  | append | appendLine | appendBlankLine => exact (writes_appendText h).written
  | bullet | definition => exact Except.ok.inj h ▸ (writes_appendItem d _).written
  | startCode | mathOpen => exact Except.ok.inj h ▸ (writes_pend d _).written
  | mathInline => exact (writes_addFormula h).written
  | mathClose => exact (writes_closeFormula h).written
  | documentedFunction | documentedGlobalFunction =>
      exact Except.ok.inj h ▸
        .of_writes (writes_splitFromSection d) (written_declareFunction rfl _ _ _ _)
  | undocumentedFunction =>
      rw [apply] at h
      refine written_captureOr (fun hf => ?_) h
      exact Except.ok.inj hf ▸ written_declareFunction rfl _ _ _ _
  | endOfFunction =>
      exact Except.ok.inj h ▸ ((writes_remember rfl).trans
        (writes_captureLine { d with functionGroup := none } _)).written
  | enableOption | disableOption => exact (writes_applyDirective h).written
  | openTable =>
      have hleft : Writes d (leavePlacedGroup d.finishCapture) :=
        (writes_finishCapture d).trans (writes_freshIf _ _)
      exact Except.ok.inj h ▸ (hleft.trans (writes_openTable _ _ _)).written
  | sourceTodo =>
      obtain ⟨d', hd', h⟩ := ok_of_bind h
      exact Except.ok.inj h ▸ ((writes_addKeyword hd').trans (writes_flush d')).written
  | startComment => exact Except.ok.inj h ▸ (Write.freshGroup d).writes.written
  | sourceLine => exact Except.ok.inj h ▸ (writes_captureLine d _).written
  | paramsTitle =>
      refine Except.ok.inj h ▸ (((writes_flush d).trans ?_).trans (writes_addPlaced _ _)).written
      split
      · exact .refl _
      · exact (Write.freshGroup _).writes
  | paramsComment =>
      exact Except.ok.inj h ▸ ((writes_entryGroup d).trans (writes_remember rfl)).written
  | paramsBlockComment =>
      obtain ⟨d', hd', h⟩ := ok_of_bind h
      have hadd := (writes_entryGroup d).trans (writes_addTrailing hd')
      exact Except.ok.inj h ▸ (hadd.trans (writes_remember rfl)).written
  | paramsInlineComment =>
      obtain ⟨d', hd', h⟩ := ok_of_bind h
      have hadd := (writes_entryGroup d).trans (writes_appendText hd')
      exact Except.ok.inj h ▸ (hadd.trans (writes_flush d')).written
  | tableParam | listParam =>
      have hopened := (frame_flush d).opened (InTable.opened hd)
      exact .of_writes (writes_flush d) (written_declareParam rfl hopened h)
  | sameLineParam =>
      obtain ⟨d', hd', h⟩ := ok_of_bind h
      have hframe := (((frame_flush d).trans (frame_freshGroup _)).trans
        (frame_appendText hd')).trans (frame_flush d')
      have hwrites := (((writes_flush d).trans (Write.freshGroup _).writes).trans
        (writes_appendText hd')).trans (writes_flush d')
      exact .of_writes hwrites
        (written_declareParam rfl (hframe.opened (InTable.opened hd)) h)
  | closeTable => exact Except.ok.inj h ▸ (writes_closeTable d).written
  | paramsOther =>
      exact Except.ok.inj h ▸ ((writes_flush d).trans (Write.freshGroup _).writes).written

theorem written_run {a : Action} {line : Nat} {c : Captures} {x : Effect} (hd : a.before.Fits d)
    (h : a.run line c d = .ok x) : Written a.declares d x.draft := by
  obtain ⟨e, next, log⟩ := x
  cases leads_of_run h with
  | applied ha h => exact written_apply hd h
  | warned reason => exact (writes_ensureSection d reason).written
  | untitled => exact (writes_openPreamble d _).written
  | documentedTable => exact ((writes_freshIf d _).trans (writes_openTable _ _ _)).written
  | documentedParam h =>
      exact written_declareLibParam rfl (Leaving.toClosed hd).opened h
  | undocumentedTable =>
      exact (((writes_finishCapture d).trans (Write.freshGroup _).writes).trans
        (writes_openTable _ _ _)).written
  | undocumentedParam h =>
      have hopened := (frame_flagUndocumented d).opened (InSource.toDeparting hd).opened
      exact written_captureOr (written_declareParam rfl hopened) h

end Action

/-! ## Hooks -/

namespace Draft

theorem writes_enterSource (d : Draft) : Writes d (Hook.enterSource d) := by
  rw [Hook.enterSource]
  split
  · refine Writes.trans ?_ (writes_startCapture _)
    split
    · exact .refl d
    · exact (Write.placeGroup d _).writes
  · exact .refl d

theorem writes_hook (hook : Hook) (d : Draft) : Writes d (hook.run d).1 := by
  cases hook with
  | startEof | preambleEof => exact writes_ensureSection d _
  | flush => exact writes_flush d
  | sourceEnter => exact writes_enterSource d
  | sourceExit => exact writes_finishCapture d

theorem writes_hooked (hook : Option Hook) (d : Draft) : Writes d (hooked hook d) := by
  cases hook with
  | none => exact .refl d
  | some hook => exact writes_hook hook d

theorem writes_crossTo (s s' : State) (d : Draft) : Writes d (s.crossTo s' d) :=
  (writes_hooked s.exit d).trans (writes_hooked s'.enter _)

end Draft

/-! ## Lines -/

/-- No line that declares something is evaluated again. -/
theorem Dialect.replayTargets_of_declares :
    ∀ s ∈ states, ∀ r ∈ s.rules, r.action.any Action.declares → r.next.replayTargets = [] := by
  decide

namespace Reading

open Draft

/-- Whether the rule that takes a line may declare something. -/
def Declares (g : Reading) (line : String) : Prop :=
  ∃ m, g.state.matchLine line g.entering = some m ∧ m.rule.action.any Action.declares

variable {r : Reader} {line : String} {g g' : Reading}

theorem Coherent.written_act (hg : g.Coherent) {m : LineMatch}
    (hm : g.state.matchLine line g.entering = some m) {e : Effect} (h : act g m = .ok e) :
    Written (g.Declares line) g.draft e.draft := by
  obtain ⟨-, hrules, -⟩ := Dialect.wellPhased_of_mem hg.state
  have hrule := hrules m.rule (State.matchLine_mem hm)
  rw [act] at h
  cases ha : m.rule.action with
  | none =>
      rw [ha] at h
      exact Except.ok.inj h ▸ (Writes.refl _).written
  | some a =>
      rw [ha] at h
      rw [Rule.wellPhased, ha, Bool.and_eq_true] at hrule
      obtain ⟨d', hw, hs⟩ := Action.written_run (hg.fits.of_below hrule.1) h
      refine ⟨d', hw, hs.imp_right fun hs => ⟨⟨m, hm, ?_⟩, hs.2⟩⟩
      rw [ha]
      exact hs.1

/-- Evaluating a line writes to the draft; between that and the hooks of the states a
declaration may be skipped. -/
theorem Coherent.written_evaluate (hg : g.Coherent) {again : Bool}
    (h : r.evaluate line g = .ok (g', again)) :
    ∃ d, Written (g.Declares line) g.draft d ∧ Writes d g'.draft := by
  rcases evaluate_cases h with ⟨-, -, hl⟩ | ⟨m, e, hm, ha, ⟨-, -, hl⟩ | ⟨target, s, -, -, hl⟩⟩
  · exact ⟨g.draft, (Writes.refl _).written, hl.draft ▸ .refl _⟩
  · exact ⟨e.draft, hg.written_act hm ha, hl.draft ▸ .refl _⟩
  · exact ⟨e.draft, hg.written_act hm ha, hl.draft ▸ writes_crossTo _ _ _⟩

theorem Coherent.writes_again (hg : g.Coherent) (hr : r.grammar = Dialect.grammar)
    (h : r.Again line g g') : Writes g.draft g'.draft := by
  obtain ⟨m, hm, hmem⟩ := hg.again hr h
  obtain ⟨d, hwritten, hwrites⟩ := hg.written_evaluate h
  refine (hwritten.writes ?_).trans hwrites
  rintro ⟨m', hm', hdecl⟩
  obtain rfl : m = m' := Option.some.inj (hm.symm.trans hm')
  rw [Dialect.replayTargets_of_declares _ hg.state _ (State.matchLine_mem hm) hdecl] at hmem
  cases hmem

/-- As long as a line is asked for again, it only writes. -/
theorem Coherent.writes_of_again (hg : g.Coherent) (hr : r.grammar = Dialect.grammar)
    (h : ReflTransGen (r.Again line) g g') : Writes g.draft g'.draft := by
  induction h with
  | refl => exact .refl _
  | tail hagain hs ih => exact ih.trans ((hg.of_again hr hagain).1.writes_again hr hs)

/-- A line ends with an evaluation that does not ask for it again. -/
theorem exists_last (h : r.feed g line = .ok g') :
    ∃ g₁, ReflTransGen (r.Again (dropLineEnd line)) { g with line := g.line + 1 } g₁ ∧
      r.evaluate (dropLineEnd line) g₁ = .ok (g', false) := by
  refine evaluateAll_leads
    (P := ReflTransGen (r.Again (dropLineEnd line)) { g with line := g.line + 1 })
    (Q := fun k => ∃ g₁,
      ReflTransGen (r.Again (dropLineEnd line)) { g with line := g.line + 1 } g₁ ∧
      r.evaluate (dropLineEnd line) g₁ = .ok (k, false)) ?_ ?_ .refl h
  · intro g₁ g₂ hagain he
    exact hagain.tail he
  · intro g₁ g₂ hagain he
    exact ⟨g₁, hagain, he⟩

/-- A line writes, and its last evaluation may be a declaration that is skipped. -/
theorem Coherent.written_feed (hg : g.Coherent) (hr : r.grammar = Dialect.grammar)
    (h : r.feed g line = .ok g') :
    ∃ g₁ d, ReflTransGen (r.Again (dropLineEnd line)) { g with line := g.line + 1 } g₁ ∧
      Writes g.draft g₁.draft ∧ Written (g₁.Declares (dropLineEnd line)) g₁.draft d ∧
      Writes d g'.draft := by
  have hnext : Coherent { g with line := g.line + 1 } := ⟨hg.state, hg.fits⟩
  obtain ⟨g₁, hagain, he⟩ := exists_last h
  obtain ⟨d, hwritten, hwrites⟩ := (hnext.of_again hr hagain).1.written_evaluate he
  exact ⟨g₁, d, hagain, hnext.writes_of_again hr hagain, hwritten, hwrites⟩

theorem writes_finish (g : Reading) : Writes g.draft (Reader.finish g).draft := by
  rw [finish_draft]
  exact (writes_hooked _ _).trans (writes_hooked _ _)

end Reading

end DocComment
