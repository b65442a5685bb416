import DocComment.Proofs.LooseActions
import DocComment.Proofs.LooseDocuments
import DocComment.Proofs.SourceSpans

/-!
# Loose mode hides missing documentation and nothing else

The same source is read twice, once in loose mode. Line after line the two readings are in
the same state, and their drafts are alike (`Reading.Beside`), so that they meet the same
rules, the same transitions and the same faults. In the end one document is the other one
with missing documentation shown.

The proof walks along the reading in loose mode, and only that one has to be coherent. A
directive that switches loose mode would bring the readings together or change their
parts, so there must be none that is taken as one; in a comment, or in a table, it may
stand.
-/

namespace DocComment

open Text Relation Reader

/-! ## Readings -/

/-- The readings are at the same line of the same source, the second one in loose mode. -/
abbrev Reading.Beside : Reading → Reading → Prop :=
  Reading.Paired fun s => s.phase.Alike

/-- Whether an action obeys a directive. -/
def Action.directs (a : Action) : Bool :=
  a = .enableOption || a = .disableOption

namespace Dialect

/-- Rules of source perform actions of source, and rules of other states do not. -/
theorem phase_of_action :
    ∀ s ∈ states, ∀ r ∈ s.rules, ∀ a ∈ r.action, a.before = .source ↔ s.phase = .source := by
  decide

theorem phase_of_no_action :
    ∀ s ∈ states, ∀ r ∈ s.rules, r.action = none → s.phase ≠ .source := by
  decide

/-- What may leave a flagged group behind leads to source, or stays there. -/
theorem next_of_veils :
    ∀ s ∈ states, ∀ r ∈ s.rules, r.action.any Action.veils →
      (r.next = .goTo "lua" false ∧ s.exit = none) ∨ (r.next = .stay ∧ s.phase = .source) := by
  decide

end Dialect

theorem Draft.Bares.crossTo {d d' : Draft} (h : Bares d d') (s s' : State) :
    s'.phase.Alike (s.crossTo s' d) (s.crossTo s' d') :=
  ((h.hooked s.exit).hooked s'.enter).alike _

theorem Draft.Veils.crossTo {d d' : Draft} (h : Veils d d') {s : State} (hs : s.exit = none) :
    Dialect.lua.phase.Alike (s.crossTo Dialect.lua d) (s.crossTo Dialect.lua d') := by
  rw [State.crossTo, State.crossTo, hs]
  exact h.enterSource

namespace Reading

/-- No directive that switches loose mode is taken on the line. -/
def KeepsMode (g : Reading) (line : String) : Prop :=
  ∀ a m, g.state.matchLine line g.entering = some m → m.rule.action = some a → a.directs →
    trim (m.captures.text 0) ≠ "loose"

variable {r : Reader} {line : String} {g g' : Reading}

theorem Beside.together_act (h : g.Beside g') (hc : g'.Coherent) (hk : g'.KeepsMode line)
    {m : LineMatch} (hm : g'.state.matchLine line g'.entering = some m) :
    Together (Action.Alike (if m.rule.action.any Action.veils then Draft.Veils else Draft.Bares))
      (act g m) (act g' m) := by
  have hmem := State.matchLine_mem hm
  obtain ⟨-, hrules, -⟩ := Dialect.wellPhased_of_mem hc.state
  have hrule := hrules m.rule hmem
  rw [act, act]
  cases ha : m.rule.action with
  | none =>
      have hbare := h.draft.bares (Dialect.phase_of_no_action _ hc.state _ hmem ha)
      exact .ok (.of_draft hbare [] [])
  | some a =>
      rw [Rule.wellPhased, ha, Bool.and_eq_true] at hrule
      have halike := h.draft.of_iff (Dialect.phase_of_action _ hc.state _ hmem a (by rw [ha]; rfl))
      rw [h.line]
      exact Action.together_run (hc.fits.of_below hrule.1)
        (fun hd => hk a m hm ha (by simpa [Action.directs] using hd)) halike

/-- After an action the current group is bare, or the rule goes on in source. -/
theorem alike_cases (hc : g'.Coherent) {m : LineMatch}
    (hm : g'.state.matchLine line g'.entering = some m) {e e' : Effect}
    (h : Action.Alike (if m.rule.action.any Action.veils then Draft.Veils else Draft.Bares) e e') :
    Draft.Bares e.draft e'.draft ∨ Draft.Veils e.draft e'.draft ∧
      ((e'.next.getD m.rule.next = .goTo "lua" false ∧ g'.state.exit = none) ∨
        (e'.next.getD m.rule.next = .stay ∧ g'.state.phase = .source)) := by
  cases hn : e'.next with
  | some t => exact Or.inl (h.moved (by rw [hn]; rfl))
  | none =>
      have hd := h.draft hn
      split at hd
      · next hveils =>
          exact Or.inr ⟨hd, Dialect.next_of_veils _ hc.state _ (State.matchLine_mem hm) hveils⟩
      · exact Or.inl hd

/-- The action of a rule leads both readings the same way. -/
theorem Beside.leadsOn_act (h : g.Beside g') (hc : g'.Coherent)
    (hr : r.grammar = Dialect.grammar) (hk : g'.KeepsMode line) {m : LineMatch}
    (hm : g'.state.matchLine line g'.entering = some m) :
    Together (LeadsOn (fun s => s.phase.Alike) r.grammar g'.state m.rule.next) (act g m)
      (act g' m) := by
  refine (h.together_act hc hk hm).mono fun e e' _ halike => ?_
  have hcases := alike_cases hc hm halike
  obtain ⟨named, hides, hlast⟩ : Draft.Veils e.draft e'.draft :=
    hcases.elim Draft.Bares.veils And.left
  refine ⟨?_, fun ht => ?_, fun target again s' ht hf => ?_⟩
  · rw [halike.next, Transition.target?_congr hides.back]
  · rcases hcases with hbare | ⟨hveils, ⟨hn, -⟩ | ⟨-, hphase⟩⟩
    · exact hbare.alike _
    · rw [hn] at ht
      cases ht
    · show g'.state.phase.Alike e.draft e'.draft
      rw [hphase]
      exact hveils
  · rcases hcases with hbare | ⟨hveils, ⟨hn, hexit⟩ | ⟨hn, -⟩⟩
    · exact hbare.crossTo g'.state s'
    · rw [hn] at ht
      cases ht
      rw [hr] at hf
      obtain rfl : Dialect.lua = s' :=
        Option.some.inj ((by rfl : some Dialect.lua = _).trans hf)
      exact hveils.crossTo hexit
    · rw [hn] at ht
      cases ht

/-- A line is evaluated in both readings as often as in either of them. -/
theorem Beside.evaluateAll (h : g.Beside g') (hc : g'.Coherent)
    (hr : r.grammar = Dialect.grammar)
    (hk : ∀ k, ReflTransGen (r.Again line) g' k → k.KeepsMode line) (left : Nat) :
    Together Beside (r.evaluateAll line left g) (r.evaluateAll line left g') := by
  refine Paired.evaluateAll h (fun {_ k'} hagain hpaired => ?_) left
  have hcoherent := (hc.of_again hr hagain).1
  exact hpaired.evaluate fun m hm =>
    Beside.leadsOn_act hpaired hcoherent hr (hk k' hagain) hm

end Reading

/-! ## Sources -/

/-- No line of a source is taken for a directive that switches loose mode. -/
def KeepsLooseMode (settings : Settings) (q : Request) (lines : List String) : Prop :=
  ∀ before line after a g m, lines = before ++ line :: after →
    TakenInSource settings q before line a g m → a.directs → trim (m.captures.text 0) ≠ "loose"

/-- A source has no such line if the rules for directives accept none of its lines. -/
theorem keepsLooseMode_of_rejected {settings : Settings} {q : Request} {lines : List String}
    (h : ∀ line ∈ lines, ∀ r ∈ Dialect.lua.rules, r.action.any Action.directs →
      ¬ r.pattern.accepts (dropLineEnd line)) : KeepsLooseMode settings q lines := by
  intro before line after a g m hlines htaken hd
  have haction : m.rule.action.any Action.directs := by
    rw [htaken.action]
    exact hd
  exact absurd (State.matchLine_accepts htaken.matched)
    (h line (by simp [hlines]) m.rule htaken.mem_rules haction)

namespace Reading

variable {settings : Settings} {q : Request} {g g' : Reading}

theorem Beside.feed {before after : List String} {line : String}
    (hk : KeepsLooseMode settings q (before ++ line :: after)) (h : g.Beside g')
    (hg' : readingAfter settings q before = .ok g') :
    Together Beside (settings.reader.feed g line) (settings.reader.feed g' line) := by
  have hc := (readingAfter_steps hg').1
  have hcnext : Coherent { g' with line := g'.line + 1 } := ⟨hc.state, hc.fits⟩
  refine Beside.evaluateAll h.next hcnext rfl (fun k hagain a m hm ha hd => ?_) _
  -- only source knows directives, so the line is taken in source
  have hmem := (hcnext.of_again rfl hagain).1.state
  have hdirective : m.rule.action = some .enableOption ∨ m.rule.action = some .disableOption := by
    simpa [Action.directs, ha] using hd
  have hname := Dialect.name_of_directive _ hmem _ (State.matchLine_mem hm) hdirective
  have hlua : k.state = Dialect.lua := by
    have hfind : Dialect.grammar.find? "lua" = some Dialect.lua := rfl
    exact Dialect.eq_of_name hmem (Dialect.mem_of_find? hfind) hname
  exact hk before line after a k m rfl ⟨⟨g', hg', hagain⟩, hlua, hlua ▸ hm, ha⟩ hd

theorem Beside.feedAll {after : List String} :
    ∀ {before : List String} {g g' : Reading}, KeepsLooseMode settings q (before ++ after) →
      g.Beside g' → readingAfter settings q before = .ok g' →
      Together Beside (settings.reader.feedAll g after) (settings.reader.feedAll g' after) := by
  induction after with
  | nil => exact fun _ h _ => .ok h
  | cons line after ih =>
      intro before g g' hk h hg'
      rw [feedAll_cons, feedAll_cons]
      refine (h.feed hk hg').bind fun k k' hk' hbeside => ?_
      have hrest : KeepsLooseMode settings q ((before ++ [line]) ++ after) := by
        rw [List.append_assoc]
        exact hk
      exact ih hrest hbeside (readingAfter_concat hg' hk')

/-- The readings of a source are side by side as far as it is read. -/
theorem together_readingAfter {lines : List String}
    (hk : KeepsLooseMode (settings.withLoose (some true)) q lines) :
    Together Beside (readingAfter (settings.withLoose (some false)) q lines)
      (readingAfter (settings.withLoose (some true)) q lines) := by
  cases hq : q.named with
  | error f =>
      rw [readingAfter, readingAfter, hq]
      exact .error f
  | ok named =>
      obtain ⟨log, hs⟩ := startReading_eq (settings.withLoose (some false)) named.1 named.2
      obtain ⟨log', hs'⟩ := startReading_eq (settings.withLoose (some true)) named.1 named.2
      generalize hd : firstDraft (settings.withLoose (some false)) named.1 named.2 = d at hs
      generalize hd' : firstDraft (settings.withLoose (some true)) named.1 named.2 = d' at hs'
      have hfirst : Draft.Bares d d' := by
        subst hd hd'
        let first := firstDraft (settings.withLoose (some true)) named.1 named.2
        have hgroups : GroupStore.Flags (fun _ => False) first.doc.store first.doc.store :=
          ⟨rfl, fun _ _ => id, fun _ => ⟨False.elim, fun _ => rfl⟩⟩
        exact ⟨_, .of_eq rfl ⟨rfl, rfl⟩ hgroups rfl rfl fun _ hc => (by cases hc), id⟩
      have hbeside :
          Beside ⟨Dialect.start, true, 0, d, log⟩ ⟨Dialect.start, true, 0, d', log'⟩ :=
        ⟨rfl, rfl, rfl, hfirst.alike _⟩
      have hempty : readingAfter (settings.withLoose (some true)) q [] =
          .ok ⟨Dialect.start, true, 0, d', log'⟩ := by
        rw [readingAfter, hq]
        simp only [bind, Except.bind, hs']
        rfl
      have hall := @Beside.feedAll _ q lines [] _ _ hk hbeside hempty
      rw [readingAfter, readingAfter, hq]
      simp only [bind, Except.bind, hs, hs']
      exact hall

/-- At the end of the source the drafts still differ in missing documentation alone. -/
theorem Beside.finish (h : g.Beside g') (hc : g'.Coherent) :
    ∃ named, Draft.Hides named (Reader.finish g).draft (Reader.finish g').draft := by
  have hveils : Draft.Veils g.draft g'.draft := by
    have hd := h.draft
    rw [Phase.Alike] at hd
    split at hd
    · exact hd
    · exact hd.veils
  obtain ⟨named, hides, -⟩ := hveils
  refine ⟨named, ?_⟩
  obtain ⟨hplain, -, -⟩ := Dialect.wellPhased_of_mem hc.state
  rw [State.exitsPlainly, Bool.or_eq_true, decide_eq_true_eq, decide_eq_true_eq] at hplain
  rw [finish_draft, finish_draft, h.state]
  have hexit :
      Draft.Hides named (hooked g'.state.exit g.draft) (hooked g'.state.exit g'.draft) := by
    rcases hplain with hexit | hexit <;> rw [hexit]
    · exact hides
    · exact hides.finishCapture
  rcases Dialect.eof_cases _ hc.state with ⟨-, -, heof | heof⟩ | ⟨-, -, heof | heof⟩ <;> rw [heof]
  · exact hexit.ensureSection _
  · exact hexit.ensureSection _
  · exact hexit
  · exact hexit.flush

end Reading

/-! ## Documents -/

/-- Loose mode hides missing documentation and nothing else. Unless the source switches
loose mode itself, it meets the same fault whether it is read in loose mode or not, or it
is read both times. In that case the one document is the other one, but for the spans that
say that documentation is missing and for the mode, if nothing in the source says so
itself. -/
theorem loose_hides_missing (settings : Settings) (q : Request) (lines : List String)
    (hk : KeepsLooseMode (settings.withLoose (some true)) q lines) :
    Together
      (fun strict loose =>
        (∀ i ∈ loose.1.allGroups, ∀ e ∈ (loose.1.store.get i).entries, e.isMissing = false) →
        strict.1.withoutMissing.toJson = { loose.1 with loose := false }.toJson)
      (parseLines (settings.withLoose (some false)) q lines)
      (parseLines (settings.withLoose (some true)) q lines) := by
  rw [parseLines_eq, parseLines_eq]
  rcases (Reading.together_readingAfter hk).outcomes with ⟨f, hx, hy⟩ | ⟨g, g', hx, hy, hbeside⟩ <;>
    rw [hx, hy]
  · exact .error f
  · refine .ok fun hno => ?_
    obtain ⟨hc, name, q', hsteps⟩ := readingAfter_steps hy
    obtain ⟨named, hides⟩ := hbeside.finish hc
    obtain ⟨hfinish, hopened⟩ := hc.finish
    have hplaced := ((firstDraft_placed _ name q').steps hsteps).steps hfinish
    have htabled := (readingAfter_tabled hy).writes g'.writes_finish
    have hend : (finishReading g').1 = (Reader.finish g').draft.freshGroup.document :=
      Draft.finish_document hopened
    have hend' : (finishReading g).1 = (Reader.finish g).draft.freshGroup.document :=
      Draft.finish_document (hides.current ▸ hopened)
    rw [hend] at hno ⊢
    rw [hend']
    have hfresh : Draft.Hides named _ _ := hides.freshGroup
    exact hfresh.toJson_document hplaced.freshGroup (htabled.write (.freshGroup _)) hno

/-- A function without documentation is to do when it is read strictly, and not in loose
mode. -/
theorem loose_hides_missing_function :
    ∃ strict loose log log',
      parseLines ({ : Settings }.withLoose (some false)) { name := some "d" }
        ["// # T", "", "lib.f = function(a)"] = .ok (strict, log) ∧
      parseLines ({ : Settings }.withLoose (some true)) { name := some "d" }
        ["// # T", "", "lib.f = function(a)"] = .ok (loose, log') ∧
      strict.todo.isSome ∧ loose.todo = none ∧
      strict.withoutMissing.toJson = { loose with loose := false }.toJson := by
  have hkeeps : KeepsLooseMode ({ : Settings }.withLoose (some true)) { name := some "d" }
      ["// # T", "", "lib.f = function(a)"] := by
    refine keepsLooseMode_of_rejected ?_
    decide +kernel
  have htogether := loose_hides_missing {} { name := some "d" } _ hkeeps
  have hstrict : (parseLines ({ : Settings }.withLoose (some false)) { name := some "d" }
      ["// # T", "", "lib.f = function(a)"]).toOption.map (fun x => x.1.todo.isSome) =
      some true := by
    decide +kernel
  have hloose : (parseLines ({ : Settings }.withLoose (some true)) { name := some "d" }
      ["// # T", "", "lib.f = function(a)"]).toOption.map (fun x => (x.1.todo,
        x.1.allGroups.all fun i => (x.1.store.get i).entries.all (!·.isMissing))) =
      some (none, true) := by
    decide +kernel
  rcases htogether.outcomes with ⟨f, hx, -⟩ | ⟨strict, loose, hx, hy, hjson⟩
  · rw [hx] at hstrict
    cases hstrict
  · rw [hx] at hstrict
    rw [hy] at hloose
    obtain ⟨htodo, hall⟩ := Prod.mk.inj (Option.some.inj hloose)
    refine ⟨strict.1, loose.1, strict.2, loose.2, hx, hy, Option.some.inj hstrict, htodo,
      hjson fun i hi e he => ?_⟩
    simpa using List.all_eq_true.1 (List.all_eq_true.1 hall i hi) e he

end DocComment
