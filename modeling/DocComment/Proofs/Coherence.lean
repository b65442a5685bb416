import DocComment.Proofs.ActionPhases
import DocComment.Proofs.Evaluation
import DocComment.Parse

/-!
# States and drafts go together

A reading is coherent if its state is one of the dialect and its draft is one of the phase
that the state works on. The first reading is coherent, and evaluating a line keeps it so.
With the phases of the actions at hand there is little left to show: the table test
`grammar_wellPhased` says that a rule acts and goes on within the phases, and this file
says what that means for a run.

On the way everything is collected that can happen to a draft. `Draft.Step` is an action
in its phase, or one of the two hooks that a state of source is left and entered with, and
the drafts of a run are joined by such steps. So a property of drafts holds all along a
run if it is kept by every step; which state the reading is in need not be looked at
again.
-/

namespace DocComment

open Relation Reader

/-- One thing that happens to the draft of a coherent reading. -/
inductive Draft.Step : Draft → Draft → Prop where
  /-- An action is performed in its phase. -/
  | act {a : Action} {line : Nat} {c : Captures} {d : Draft} {e : Effect} (hd : a.before.Fits d)
      (h : a.run line c d = .ok e) : Step d e.draft
  /-- A capture of source is ended. -/
  | leave {p : Phase} {d : Draft} (hd : p.Fits d) : Step d d.finishCapture
  /-- Source is entered. -/
  | enter {d : Draft} (hd : d.Leaving) : Step d (Hook.enterSource d)
  /-- A source ends before its first section. -/
  | ensure {d : Draft} {reason : Option Template} (hd : d.Opening) :
      Step d (d.ensureSection reason).1
  /-- A source ends while an entry is pending. -/
  | settle {d : Draft} : Step d d.flush

/-- The state is one of the dialect, and the draft is one that the state works on. -/
structure Reading.Coherent (g : Reading) : Prop where
  state : g.state ∈ Dialect.states
  fits : g.state.phase.Fits g.draft

theorem Reading.Coherent.of_like {g g' : Reading} (h : g.Coherent) (hl : g'.Like g) :
    g'.Coherent := by
  refine ⟨?_, ?_⟩
  · rw [hl.state]
    exact h.state
  · rw [hl.state, hl.draft]
    exact h.fits

namespace Dialect

theorem mem_of_find? {target : String} {s : State} (h : grammar.find? target = some s) :
    s ∈ states :=
  List.mem_of_find?_eq_some h

theorem name_of_find? {target : String} {s : State} (h : grammar.find? target = some s) :
    s.name = target := by
  have hs := List.find?_some h
  simpa using hs

theorem find?_name {s : State} (h : s ∈ states) : grammar.find? s.name = some s := by
  simp only [states, List.mem_cons, List.not_mem_nil, or_false] at h
  rcases h with rfl | rfl | rfl | rfl | rfl | rfl | rfl | rfl | rfl | rfl | rfl | rfl | rfl | rfl |
    rfl <;> rfl

theorem eq_of_name {s s' : State} (h : s ∈ states) (h' : s' ∈ states) (hn : s.name = s'.name) :
    s = s' := by
  have hs := find?_name h
  rw [hn, find?_name h'] at hs
  exact (Option.some.inj hs).symm

theorem wellPhased_of_mem {s : State} (h : s ∈ states) :
    s.exitsPlainly ∧ (∀ r ∈ s.rules, r.wellPhased grammar s) ∧
      (grammar.find? Action.tableState).any (·.canEnter (s.phaseAfterExit .table)) := by
  have hw := grammar_wellPhased s h
  rw [State.wellPhased, Bool.and_eq_true, Bool.and_eq_true, List.all_eq_true] at hw
  exact ⟨hw.1.1, hw.1.2, hw.2⟩

end Dialect

theorem Reading.Coherent.in_source {g : Reading} (h : g.Coherent) (hs : g.state.name = "lua") :
    g.state = Dialect.lua :=
  Dialect.eq_of_name h.state (by simp [Dialect.states]) hs

/-! ## Going from state to state -/

theorem State.exit_fits {s : State} (hs : s.exitsPlainly) {p : Phase} {d : Draft} (hd : p.Fits d) :
    (s.phaseAfterExit p).Fits (hooked s.exit d) ∧
      ReflTransGen Draft.Step d (hooked s.exit d) := by
  rw [exitsPlainly, Bool.or_eq_true, decide_eq_true_eq, decide_eq_true_eq] at hs
  rcases hs with hs | hs
  · rw [phaseAfterExit, hs]
    exact ⟨hd, ReflTransGen.refl⟩
  · rw [phaseAfterExit, hs]
    exact ⟨hd.finishCapture, ReflTransGen.single (Draft.Step.leave hd)⟩

theorem State.enter_fits {s : State} {p : Phase} (hs : s.canEnter p) {d : Draft} (hd : p.Fits d) :
    s.phase.Fits (hooked s.enter d) ∧ ReflTransGen Draft.Step d (hooked s.enter d) := by
  rw [canEnter] at hs
  split at hs
  · next he =>
      rw [he]
      exact ⟨hd.of_below hs, ReflTransGen.refl⟩
  · next he =>
      rw [Bool.and_eq_true] at hs
      have hl : d.Leaving := hd.of_below hs.1
      rw [he]
      refine ⟨?_, ReflTransGen.single (Draft.Step.enter hl)⟩
      exact Phase.Fits.of_below (p := .source) hl.enterSource hs.2
  · cases hs

theorem State.crossTo_fits {s s' : State} (hs : s.exitsPlainly) {p : Phase} {d : Draft}
    (hd : p.Fits d) (hs' : s'.canEnter (s.phaseAfterExit p)) :
    s'.phase.Fits (s.crossTo s' d) ∧ ReflTransGen Draft.Step d (s.crossTo s' d) := by
  obtain ⟨hx, hxs⟩ := s.exit_fits hs hd
  obtain ⟨he, hes⟩ := State.enter_fits hs' hx
  exact ⟨he, hxs.trans hes⟩

theorem Draft.Closed.back_cases {d : Draft} (hd : d.Closed) :
    d.back = none ∨ d.back = some Action.tableState := by
  rw [hd.back]
  cases d.table with
  | none => exact Or.inl rfl
  | some key => exact Or.inr rfl

/-- A comment ends in front of a table or of source, whichever way its end is spelled. -/
theorem Resolver.target_cases {resolver : Resolver} {d : Draft} (hd : d.Closed) {target : String}
    {again : Bool} (ht : resolver.target d = (target, again)) :
    (target = Action.tableState ∧ d.InTable) ∨
      ((target = "end_comment" ∨ target = "lua") ∧ d.Leaving) := by
  unfold Resolver.target at ht
  rcases hd.back_cases with hb | hb
  · right
    refine ⟨?_, hd.leaving hb⟩
    rw [hb] at ht
    cases resolver with
    | afterBlockComment | afterLineComment =>
        cases ht
        exact Or.inl rfl
    | afterBlankLine =>
        cases ht
        exact Or.inr rfl
  · left
    refine ⟨?_, (hd.inTable hb).2⟩
    rw [hb] at ht
    cases resolver <;> cases ht <;> rfl

theorem Dialect.canEnter_table {s : State} (hf : grammar.find? Action.tableState = some s) :
    s.canEnter .table := by
  obtain rfl : params = s := Option.some.inj ((by rfl : some params = _).trans hf)
  rfl

theorem Dialect.canEnter_leaving {target : String} (ht : target = "end_comment" ∨ target = "lua")
    {s : State} (hf : grammar.find? target = some s) : s.canEnter .leaving := by
  rcases ht with rfl | rfl
  · obtain rfl : endComment = s := Option.some.inj ((by rfl : some endComment = _).trans hf)
    rfl
  · obtain rfl : lua = s := Option.some.inj ((by rfl : some lua = _).trans hf)
    rfl

/-! ## Evaluating a line -/

theorem act_fits {g : Reading} (hg : g.Coherent) {m : LineMatch}
    (hm : m.rule.wellPhased Dialect.grammar g.state) {e : Effect} (h : act g m = .ok e) :
    (e.next = none ∧ ((m.rule.action.map Action.after).getD g.state.phase).Fits e.draft ∨
      e.next = some (.goTo Action.tableState false) ∧ Phase.table.Fits e.draft) ∧
    ReflTransGen Draft.Step g.draft e.draft := by
  rw [act] at h
  cases ha : m.rule.action with
  | none =>
      rw [ha] at h
      injection h with h
      subst h
      exact ⟨Or.inl ⟨rfl, hg.fits⟩, ReflTransGen.refl⟩
  | some a =>
      rw [ha] at h
      rw [Rule.wellPhased, ha, Bool.and_eq_true] at hm
      have hd : a.before.Fits g.draft := hg.fits.of_below hm.1
      exact ⟨Action.fits_of_run hd h, ReflTransGen.single (Draft.Step.act hd h)⟩

variable {r : Reader} {line : String} {g g' : Reading}

/-- Evaluating a line keeps a reading coherent, and takes its draft through steps. -/
theorem Reading.Coherent.evaluate (hg : g.Coherent) (hr : r.grammar = Dialect.grammar)
    {again : Bool} (h : r.evaluate line g = .ok (g', again)) :
    g'.Coherent ∧ ReflTransGen Draft.Step g.draft g'.draft := by
  obtain ⟨hx, hrules, htable⟩ := Dialect.wellPhased_of_mem hg.state
  rcases evaluate_cases h with ⟨-, -, hl⟩ | ⟨m, e, hm, ha, hcases⟩
  · refine ⟨Reading.Coherent.of_like (g := { g with entering := false }) ⟨hg.state, hg.fits⟩ hl, ?_⟩
    rw [hl.draft]
  · have hrule := hrules m.rule (State.matchLine_mem hm)
    obtain ⟨hfits, hsteps⟩ := act_fits hg hrule ha
    rw [Rule.wellPhased, Bool.and_eq_true] at hrule
    rcases hcases with ⟨ht, -, hl⟩ | ⟨target, s, ht, hf, hl⟩
    · rcases hfits with ⟨hn, hfits⟩ | ⟨hn, -⟩
      · refine ⟨Reading.Coherent.of_like (g := { g with entering := false, draft := e.draft })
          ⟨hg.state, ?_⟩ hl, ?_⟩
        · rw [hn, Option.getD_none] at ht
          cases hnext : m.rule.next with
          | stay =>
              rw [hnext] at hrule
              exact hfits.of_below hrule.2
          | goTo | resolve =>
              rw [hnext] at ht
              cases ht
        · rw [hl.draft]
          exact hsteps
      · rw [hn] at ht
        cases ht
    · -- whichever way the new state was chosen, a draft of this phase can enter it
      rw [hr] at hf
      suffices hp : ∃ p : Phase, p.Fits e.draft ∧ s.canEnter (g.state.phaseAfterExit p) by
        obtain ⟨p, hp, hs⟩ := hp
        obtain ⟨hc, hcs⟩ := State.crossTo_fits hx hp hs
        refine ⟨Reading.Coherent.of_like
          (g := { g with state := s, entering := true, draft := g.state.crossTo s e.draft })
          ⟨Dialect.mem_of_find? hf, hc⟩ hl, ?_⟩
        rw [hl.draft]
        exact hsteps.trans hcs
      rcases hfits with ⟨hn, hfits⟩ | ⟨hn, hfits⟩
      · rw [hn, Option.getD_none] at ht
        cases hnext : m.rule.next with
        | stay =>
            rw [hnext] at ht
            cases ht
        | goTo target' again' =>
            rw [hnext] at ht hrule
            obtain ⟨rfl, rfl⟩ : target' = target ∧ again' = again := by
              simpa [Transition.target?] using ht
            refine ⟨_, hfits, ?_⟩
            have hent := hrule.2
            simp only [hf, Option.any_some] at hent
            exact hent
        | resolve resolver =>
            rw [hnext] at ht hrule
            have hent := hrule.2
            rw [Bool.and_eq_true, decide_eq_true_eq] at hent
            have hclosed : e.draft.Closed := hfits.of_below hent.2
            have hphase : ∀ p, g.state.phaseAfterExit p = p := by
              intro p
              rw [State.phaseAfterExit, hent.1]
            rcases Resolver.target_cases hclosed (Option.some.inj ht) with ⟨rfl, hd⟩ | ⟨htl, hd⟩
            · refine ⟨.table, hd, ?_⟩
              rw [hphase]
              exact Dialect.canEnter_table hf
            · refine ⟨.leaving, hd, ?_⟩
              rw [hphase]
              exact Dialect.canEnter_leaving htl hf
      · rw [hn, Option.getD_some] at ht
        obtain ⟨rfl, rfl⟩ : Action.tableState = target ∧ false = again := by
          simpa [Transition.target?] using ht
        refine ⟨.table, hfits, ?_⟩
        rw [hf] at htable
        exact htable

theorem Reading.Coherent.of_again (hg : g.Coherent) (hr : r.grammar = Dialect.grammar)
    (h : ReflTransGen (r.Again line) g g') : g'.Coherent ∧ g'.line = g.line := by
  induction h with
  | refl => exact ⟨hg, rfl⟩
  | tail _ hs ih => exact ⟨(ih.1.evaluate hr hs).1, (evaluate_line hs).trans ih.2⟩

/-- The state that source is read in is the only one that knows directives. -/
theorem Dialect.name_of_directive :
    ∀ s ∈ states, ∀ r ∈ s.rules,
      (r.action = some .enableOption ∨ r.action = some .disableOption) → s.name = "lua" := by
  decide

/-- Evaluating a line fails only at a directive in source that asks for an option which is
not there. -/
theorem Reading.Coherent.evaluate_error (hg : g.Coherent) (hr : r.grammar = Dialect.grammar)
    {f : Fault} (h : r.evaluate line g = .error f) :
    ∃ m, g.state.matchLine line g.entering = some m ∧ g.state.name = "lua" ∧
      (m.rule.action = some .enableOption ∨ m.rule.action = some .disableOption) ∧
      f = .source (.badOption (Text.trim (m.captures.text 0)))
        ⟨some g.line, some g.draft.file⟩ := by
  obtain ⟨-, hrules, htable⟩ := Dialect.wellPhased_of_mem hg.state
  obtain ⟨m, hm, hcases⟩ := Reader.evaluate_error h
  have hrule := hrules m.rule (State.matchLine_mem hm)
  refine ⟨m, hm, ?_⟩
  rcases hcases with ha | ⟨e, target, again, ha, ht, hf⟩
  · rw [evaluate_of_error hm ha] at h
    rw [act] at ha
    cases hact : m.rule.action with
    | none =>
        rw [hact] at ha
        cases ha
    | some a =>
        rw [hact] at ha
        rw [Rule.wellPhased, hact, Bool.and_eq_true] at hrule
        obtain ⟨hdir, hf⟩ := Action.run_error (hg.fits.of_below hrule.1) ha
        rw [Except.error.inj h] at hf
        have hdir : some a = some .enableOption ∨ some a = some .disableOption :=
          hdir.imp (congrArg some) (congrArg some)
        refine ⟨?_, hdir, hf⟩
        exact Dialect.name_of_directive _ hg.state _ (State.matchLine_mem hm) (hact ▸ hdir)
  · -- every state that a transition names is there
    exfalso
    obtain ⟨hfits, -⟩ := act_fits hg hrule ha
    rw [hr] at hf
    rw [Rule.wellPhased, Bool.and_eq_true] at hrule
    rcases hfits with ⟨hn, hfits⟩ | ⟨hn, -⟩
    · rw [hn, Option.getD_none] at ht
      cases hnext : m.rule.next with
      | stay =>
          rw [hnext] at ht
          cases ht
      | goTo target' again' =>
          rw [hnext] at ht hrule
          obtain ⟨rfl, -⟩ : target' = target ∧ again' = again := by
            simpa [Transition.target?] using ht
          have hent := hrule.2
          simp only [hf] at hent
          cases hent
      | resolve resolver =>
          rw [hnext] at ht hrule
          have hent := hrule.2
          rw [Bool.and_eq_true, decide_eq_true_eq] at hent
          have hclosed : e.draft.Closed := hfits.of_below hent.2
          rcases Resolver.target_cases hclosed (Option.some.inj ht) with
            ⟨rfl, -⟩ | ⟨rfl | rfl, -⟩ <;> cases hf
    · rw [hn, Option.getD_some] at ht
      obtain ⟨rfl, -⟩ : Action.tableState = target ∧ false = again := by
        simpa [Transition.target?] using ht
      rw [hf] at htable
      cases htable

/-! ## Reading lines -/

theorem Reading.Coherent.feed (hg : g.Coherent) (hr : r.grammar = Dialect.grammar)
    (h : r.feed g line = .ok g') :
    g'.Coherent ∧ ReflTransGen Draft.Step g.draft g'.draft := by
  refine evaluateAll_keeps
    (P := fun g' => g'.Coherent ∧ ReflTransGen Draft.Step g.draft g'.draft) ?_ ?_ h
  · intro g₁ g₂ again hg₁ he
    obtain ⟨hc, hs⟩ := hg₁.1.evaluate hr he
    exact ⟨hc, hg₁.2.trans hs⟩
  · exact ⟨⟨hg.state, hg.fits⟩, ReflTransGen.refl⟩

theorem Reading.Coherent.feedAll (hg : g.Coherent) (hr : r.grammar = Dialect.grammar)
    {lines : List String} (h : r.feedAll g lines = .ok g') :
    g'.Coherent ∧ ReflTransGen Draft.Step g.draft g'.draft := by
  refine feedAll_keeps
    (P := fun g' => g'.Coherent ∧ ReflTransGen Draft.Step g.draft g'.draft) ?_ ?_ h
  · intro g₁ g₂ line hg₁ hf
    obtain ⟨hc, hs⟩ := hg₁.1.feed hr hf
    exact ⟨hc, hg₁.2.trans hs⟩
  · exact ⟨hg, ReflTransGen.refl⟩

/-! ## The first reading and the last -/

/-- The draft of the first reading. -/
def firstDraft (settings : Settings) (name : String) (q : Request) : Draft :=
  Draft.start { Document.new name q.parent q.fullname with loose := settings.loose } q.file
    settings.defaultLanguage settings.allowedOptions

/-- A source can always be started, whatever it is called. -/
theorem startReading_eq (settings : Settings) (name : String) (q : Request) :
    ∃ log, startReading settings name q =
      .ok { state := Dialect.start, draft := firstDraft settings name q, log } :=
  ⟨_, rfl⟩

theorem firstDraft_opening (settings : Settings) (name : String) (q : Request) :
    (firstDraft settings name q).Opening :=
  ⟨rfl, rfl, rfl, rfl, rfl, rfl, rfl⟩

theorem startReading_coherent {settings : Settings} {name : String} {q : Request} {g : Reading}
    (h : startReading settings name q = .ok g) : g.Coherent := by
  obtain ⟨log, hs⟩ := startReading_eq settings name q
  rw [hs] at h
  cases h
  exact ⟨List.mem_cons_self, firstDraft_opening settings name q⟩

/-- The reading of a source before its next line. -/
def readingAfter (settings : Settings) (q : Request) (lines : List String) :
    Except Fault Reading := do
  let (name, q) ← q.named
  let g ← startReading settings name q
  settings.reader.feedAll g lines

/-- Under its name a source is read from a coherent reading on. How lines are read has no
part in that reading. -/
theorem readingAfter_eq (settings : Settings) {q : Request} {named : String × Request}
    (hq : q.named = .ok named) :
    ∃ g : Reading, g.Coherent ∧ g.line = 0 ∧
      g.draft = firstDraft settings named.1 named.2 ∧
      ∀ (bound : Int) (trace : Bool) (lines : List String),
      readingAfter { settings with maxReplay := bound, trace } q lines =
        Reader.feedAll { maxReplay := bound, trace } g lines := by
  obtain ⟨name, q'⟩ := named
  obtain ⟨log, hs⟩ := startReading_eq settings name q'
  refine ⟨_, startReading_coherent hs, rfl, rfl, fun bound trace lines => ?_⟩
  replace hs : startReading { settings with maxReplay := bound, trace } name q' = _ := hs
  rw [readingAfter, hq]
  simp only [bind, Except.bind, hs]
  rfl

/-- A source is read the same in one go or in two. -/
theorem readingAfter_append (settings : Settings) (q : Request) (lines lines' : List String) :
    readingAfter settings q (lines ++ lines') =
      readingAfter settings q lines >>= fun g => settings.reader.feedAll g lines' := by
  rw [readingAfter, readingAfter]
  cases q.named with
  | error f => rfl
  | ok named =>
      obtain ⟨log, hs⟩ := startReading_eq settings named.1 named.2
      simp only [bind, Except.bind, hs, feedAll_append]

theorem readingAfter_concat {settings : Settings} {q : Request} {lines : List String}
    {g g' : Reading} (h : readingAfter settings q lines = .ok g) {line : String}
    (hf : settings.reader.feed g line = .ok g') :
    readingAfter settings q (lines ++ [line]) = .ok g' := by
  rw [readingAfter_append, h]
  show settings.reader.feedAll g [line] = _
  rw [feedAll_cons, hf]
  rfl

/-- Every reading of a source is coherent, and its draft is one that steps lead to. -/
theorem readingAfter_steps {settings : Settings} {q : Request} {lines : List String} {g : Reading}
    (h : readingAfter settings q lines = .ok g) :
    g.Coherent ∧ ∃ name q', ReflTransGen Draft.Step (firstDraft settings name q') g.draft := by
  cases hq : q.named with
  | error f =>
      rw [readingAfter, hq] at h
      cases h
  | ok named =>
      obtain ⟨g₀, hg₀, -, hd, hreads⟩ := readingAfter_eq settings hq
      have hread := (hreads settings.maxReplay settings.trace lines).symm.trans h
      obtain ⟨hc, hs⟩ := hg₀.feedAll rfl hread
      exact ⟨hc, named.1, named.2, hd ▸ hs⟩

theorem Phase.Fits.opened {p : Phase} {d : Draft} (h : p.Fits d) (hp : p ≠ .opening) :
    d.current.isSome := by
  cases p with
  | opening => exact absurd rfl hp
  | writing => exact Draft.Writing.opened h
  | pausing => exact (Draft.Pausing.toWriting h).opened
  | closed => exact (Draft.Closed.toPausing h).opened
  | leaving => exact (Draft.Leaving.toClosed h).opened
  | source => exact (Draft.InSource.toDeparting h).opened
  | departing => exact (Draft.Departing.toBetween h).opened
  | table => exact Draft.InTable.opened h

/-- The states that a source can end in before its first section put one in its place, and
what is pending in the others is settled. -/
theorem Dialect.eof_cases :
    ∀ s ∈ states,
      (s.phase = .opening ∧ s.exit = none ∧ (s.eof = some .startEof ∨ s.eof = some .preambleEof)) ∨
        (s.phase ≠ .opening ∧ s.phaseAfterExit s.phase ≠ .opening ∧
          (s.eof = none ∨ s.eof = some .flush)) := by
  decide

/-- Only source has a hook for those who enter it. -/
theorem Dialect.enter_cases :
    ∀ s ∈ states, s.enter = none ∨ (s.enter = some .sourceEnter ∧ s.phase = .source) := by
  decide

/-- At the end of a source there is a section. -/
theorem Reading.Coherent.finish (hg : g.Coherent) :
    ReflTransGen Draft.Step g.draft (Reader.finish g).draft ∧
      (Reader.finish g).draft.current.isSome := by
  rw [finish_draft]
  obtain ⟨hplain, -, -⟩ := Dialect.wellPhased_of_mem hg.state
  obtain ⟨hx, hxs⟩ := State.exit_fits hplain hg.fits
  rcases Dialect.eof_cases _ hg.state with ⟨hp, hexit, heof⟩ | ⟨-, hp, heof⟩
  · have ho : g.draft.Opening := by
      have hf := hg.fits
      rw [hp] at hf
      exact hf
    rw [hexit]
    rcases heof with heof | heof <;> rw [heof]
    · exact ⟨ReflTransGen.single (Draft.Step.ensure ho), (ho.ensureSection _).opened⟩
    · exact ⟨ReflTransGen.single (Draft.Step.ensure ho), (ho.ensureSection _).opened⟩
  · rcases heof with heof | heof <;> rw [heof]
    · exact ⟨hxs, hx.opened hp⟩
    · refine ⟨hxs.tail Draft.Step.settle, ?_⟩
      exact (Draft.frame_flush _).opened (hx.opened hp)

end DocComment
