import DocComment.Proofs.Calls
import DocComment.Proofs.Replays

/-!
# A source is read by calls

Whatever a source says, its draft is made by tame calls from the first draft
(`readingAfter_called`, `Reader.called_finish`), so what every such call keeps is kept by
every source.

What takes an argument is that text is added on a line of its own only to code and
formulas. The states in which that is done are entered by the first line of the code,
which starts a code block, or by a line that opens a formula. The latter is evaluated
again with whatever was pending before it, and only then puts a formula there. So between
two lines such a state has code or a formula pending (`Reading.Lined`), but within a line
it may be about to get it (`Reading.Midway`).
-/

namespace DocComment

open Text Pattern Relation Reader

/-! ## Hooks -/

namespace Draft

variable {clean : Prop}

theorem called_hook (hook : Hook) (d : Draft) : ReflTransGen (Called clean) d (hook.run d).1 := by
  cases hook with
  | startEof | preambleEof => exact .single (called_ensureSection d _)
  | flush => exact .single (.silent .flush rfl rfl)
  | sourceExit => exact .single (.silent .finishCapture rfl rfl)
  | sourceEnter =>
      show ReflTransGen _ d (Hook.enterSource d)
      rw [Hook.enterSource]
      split
      · refine ReflTransGen.tail ?_ (.silent .startCapture rfl rfl)
        split
        · exact .refl
        · exact .single (.silent .place rfl rfl)
      · exact .refl

theorem called_hooked (hook : Option Hook) (d : Draft) :
    ReflTransGen (Called clean) d (hooked hook d) := by
  cases hook with
  | none => exact .refl
  | some hook => exact called_hook hook d

theorem called_crossTo (s s' : State) (d : Draft) :
    ReflTransGen (Called clean) d (s.crossTo s' d) :=
  (called_hooked s.exit d).trans (called_hooked s'.enter _)

end Draft

open Draft

/-! ## Lines of code and of formulas -/

namespace Dialect

/-- The states in which a line goes on with code or with a formula. -/
def linedStates : List String :=
  ["mcode_body", "mmath", "code_body", "math"]

theorem lined_of_joinsLines :
    ∀ s ∈ states, ∀ r ∈ s.rules, r.action.any Action.joinsLines → s.name ∈ linedStates := by
  decide

/-- A rule that stays in such a state adds a line or opens a formula. -/
theorem lined_of_stay :
    ∀ s ∈ states, s.name ∈ linedStates → ∀ r ∈ s.rules, r.next = .stay →
      r.action = some .appendLine ∨ r.action = some .appendBlankLine ∨
        r.action = some .mathOpen := by
  decide

/-- Such a state is entered by a first line of code, or by a line that opens a formula and
does nothing before it is evaluated again. -/
theorem lined_of_goTo :
    ∀ s ∈ states, ∀ r ∈ s.rules, ∀ target ∈ linedStates, ∀ again, r.next = .goTo target again →
      s.exit = none ∧ (r.action = some .startCode ∨
        (r.action = none ∧ again = true ∧
          (s.name = "mgroup" ∧ target = "mmath" ∨ s.name = "group" ∧ target = "math"))) := by
  decide

theorem lined_enter : ∀ s ∈ states, s.name ∈ linedStates → s.enter = none := by
  decide

end Dialect

namespace Reading

/-- In the states of code and of formulas, code or a formula is pending. -/
def Lined (g : Reading) : Prop :=
  g.state.name ∈ Dialect.linedStates → g.draft.pending.any Entry.takesLines

/-- The same while a line is evaluated, or else the line is one that opens a formula. -/
inductive Midway (line : String) (g : Reading) : Prop where
  | lined (h : g.Lined)
  | block (hs : g.state = Dialect.mmath) (h : (spaces ++ "[math]").accepts line)
  | comment (hs : g.state = Dialect.math) (h : (lineStart ++ spaces ++ "[math]").accepts line)

end Reading

theorem State.matchLine_ne_none {s : State} {line : String} {entering : Bool} {r : Rule}
    (hr : r ∈ s.rules) (ha : r.active entering) (hp : r.pattern.accepts line) :
    s.matchLine line entering ≠ none := by
  rw [matchLine]
  generalize 0 = index
  generalize s.rules = rules at hr
  induction rules generalizing index with
  | nil => cases hr
  | cons r' rules ih =>
      rw [matchFrom]
      rcases List.mem_cons.1 hr with rfl | hr
      · rw [if_pos ha]
        cases hc : r.pattern.read? line with
        | none => exact absurd hp (read?_eq_none_iff.1 hc)
        | some captures => simp
      · split
        · split
          · simp
          · exact ih _ hr
        · exact ih _ hr

namespace Reading

variable {r : Reader} {line : String} {g g' : Reading}

theorem accepts_formulaStart (hn : '\n' ∉ line.toList) (h : (spaces ++ "[math]").accepts line) :
    formulaStart.accepts line :=
  accepts_append_anything hn h 0

theorem accepts_lineStart_formulaStart (hn : '\n' ∉ line.toList)
    (h : (lineStart ++ spaces ++ "[math]").accepts line) :
    (lineStart ++ formulaStart).accepts line := by
  obtain ⟨t, m₁, ⟨m₂, ⟨m₃, ⟨m₄, hs, hb⟩, hf⟩, hc⟩, he⟩ :=
    accepts_iff.1 (accepts_append_anything hn h 0)
  exact accepts_iff.2 ⟨t, m₄, hs, m₁, ⟨m₂, ⟨m₃, hb, hf⟩, hc⟩, he⟩

/-- A line that opens a formula is taken by a rule that does not add it on a line of its
own; if it stays in its state then because it opened the formula. -/
theorem Midway.cases (h : g.Midway line) (hn : '\n' ∉ line.toList) :
    g.Lined ∨ ∃ m, g.state.matchLine line g.entering = some m ∧
      ¬ m.rule.action.any Action.joinsLines := by
  cases h with
  | lined h => exact Or.inl h
  | block hs h =>
      right
      have ha := accepts_formulaStart hn h
      rw [hs]
      cases hm : Dialect.mmath.matchLine line g.entering with
      | none =>
          exact absurd hm (@State.matchLine_ne_none Dialect.mmath line g.entering _
            (List.mem_cons_of_mem _ (List.mem_cons_of_mem _ List.mem_cons_self)) rfl ha)
      | some m =>
          have hr := @State.matchLine_mem_of_accepts Dialect.mmath line g.entering m
            (Dialect.mmath.rules.take 2) _ _ rfl rfl ha hm
          refine ⟨m, rfl, ?_⟩
          exact (by decide : ∀ r ∈ Dialect.mmath.rules.take 3,
            ¬ r.action.any Action.joinsLines) _ hr
  | comment hs h =>
      right
      have ha := accepts_lineStart_formulaStart hn h
      rw [hs]
      cases hm : Dialect.math.matchLine line g.entering with
      | none =>
          exact absurd hm (@State.matchLine_ne_none Dialect.math line g.entering _
            (List.mem_cons_of_mem _ List.mem_cons_self) rfl ha)
      | some m =>
          have hr := @State.matchLine_mem_of_accepts Dialect.math line g.entering m
            (Dialect.math.rules.take 1) _ _ rfl rfl ha hm
          refine ⟨m, rfl, ?_⟩
          exact (by decide : ∀ r ∈ Dialect.math.rules.take 2,
            ¬ r.action.any Action.joinsLines) _ hr

/-- Where a transition leads: to the state that the rule names, or out of the comment. -/
theorem Coherent.target_cases (hg : g.Coherent) {m : LineMatch}
    (hm : g.state.matchLine line g.entering = some m) {e : Effect} (ha : act g m = .ok e)
    {target : String} {again : Bool}
    (ht : (e.next.getD m.rule.next).target? e.draft = some (target, again)) :
    m.rule.next = .goTo target again ∨ target ∉ Dialect.linedStates := by
  obtain ⟨-, hrules, -⟩ := Dialect.wellPhased_of_mem hg.state
  have hrule := hrules m.rule (State.matchLine_mem hm)
  obtain ⟨hfits, -⟩ := act_fits hg hrule ha
  rcases hfits with ⟨hn, hfits⟩ | ⟨hn, -⟩
  · rw [hn, Option.getD_none] at ht
    cases hnext : m.rule.next with
    | stay =>
        rw [hnext] at ht
        cases ht
    | goTo target' again' =>
        rw [hnext] at ht
        obtain ⟨rfl, rfl⟩ : target' = target ∧ again' = again := by
          simpa [Transition.target?] using ht
        exact Or.inl rfl
    | resolve resolver =>
        right
        rw [hnext] at ht
        rw [Rule.wellPhased, hnext, Bool.and_eq_true, Bool.and_eq_true] at hrule
        have hclosed : e.draft.Closed := hfits.of_below hrule.2.2
        rcases Resolver.target_cases hclosed (Option.some.inj ht) with
          ⟨rfl, -⟩ | ⟨rfl | rfl, -⟩ <;> decide
  · right
    rw [hn, Option.getD_some] at ht
    obtain ⟨rfl, -⟩ : Action.tableState = target ∧ false = again := by
      simpa [Transition.target?] using ht
    decide

theorem appendText_takesLines {d e : Draft} {text : String} {onNewLine : Bool}
    (hp : d.pending.any Entry.takesLines) (h : d.appendText text onNewLine = .ok e) :
    e.pending.any Entry.takesLines := by
  rcases appendText_cases h with ⟨hnone, -⟩ | ⟨p, p', hsome, hext, rfl⟩
  · rw [hnone] at hp
    cases hp
  · rw [hsome] at hp
    cases p with
    | code | formula => exact Except.ok.inj hext ▸ rfl
    | paragraph | heading | edge | span | list | blank => cases hp

variable {clean : Prop}

theorem called_act {m : LineMatch} (hm : g.state.matchLine line g.entering = some m)
    (hn : clean → '\n' ∉ line.toList)
    (hp : clean → m.rule.action.any Action.joinsLines → g.draft.pending.any Entry.takesLines)
    {e : Effect} (ha : act g m = .ok e) : ReflTransGen (Called clean) g.draft e.draft := by
  rw [act] at ha
  cases haction : m.rule.action with
  | none =>
      rw [haction] at ha
      exact Except.ok.inj ha ▸ .refl
  | some a =>
      rw [haction] at ha hp
      refine Action.called_run (fun hc i hmem => ?_) hp ha
      exact hn hc (text_subset (State.matchLine_read hm) i hmem)

/-- A line that stays in a state of code or of a formula leaves code or a formula
pending. -/
theorem Coherent.lined_stay (hg : g.Coherent) {m : LineMatch}
    (hm : g.state.matchLine line g.entering = some m)
    (hp : m.rule.action.any Action.joinsLines → g.draft.pending.any Entry.takesLines)
    {e : Effect} (ha : act g m = .ok e)
    (ht : (e.next.getD m.rule.next).target? e.draft = none)
    (hs : g.state.name ∈ Dialect.linedStates) : e.draft.pending.any Entry.takesLines := by
  obtain ⟨-, hrules, -⟩ := Dialect.wellPhased_of_mem hg.state
  have hmem := State.matchLine_mem hm
  obtain ⟨hfits, -⟩ := act_fits hg (hrules m.rule hmem) ha
  have hnext : m.rule.next = .stay := by
    rcases hfits with ⟨hn, -⟩ | ⟨hn, -⟩
    · rw [hn, Option.getD_none] at ht
      cases hnext : m.rule.next with
      | stay => rfl
      | goTo | resolve =>
          rw [hnext] at ht
          cases ht
    · rw [hn] at ht
      cases ht
  rw [act] at ha
  rcases Dialect.lined_of_stay _ hg.state hs _ hmem hnext with haction | haction | haction <;>
    rw [haction] at ha hp
  · obtain ⟨d', hd', ha⟩ := ok_of_bind ha
    exact Except.ok.inj ha ▸ appendText_takesLines (hp rfl) hd'
  · obtain ⟨d', hd', ha⟩ := ok_of_bind ha
    exact Except.ok.inj ha ▸ appendText_takesLines (hp rfl) hd'
  · exact Except.ok.inj ha ▸ rfl

/-- A line that goes on to such a state leaves code pending there, or is still to open a
formula. -/
theorem Coherent.midway_move (hg : g.Coherent) {m : LineMatch}
    (hm : g.state.matchLine line g.entering = some m) {e : Effect} (ha : act g m = .ok e)
    {target : String} {again : Bool} {s : State} (hnext : m.rule.next = .goTo target again)
    (hf : Dialect.grammar.find? target = some s) (hs : target ∈ Dialect.linedStates)
    (hstate : g'.state = s) (hdraft : g'.draft = g.state.crossTo s e.draft) :
    g'.Lined ∨ again = true ∧ g'.Midway line := by
  have hmem := State.matchLine_mem hm
  have hname := Dialect.name_of_find? hf
  have hs' := Dialect.mem_of_find? hf
  obtain ⟨hexit, haction | ⟨-, rfl, hcases⟩⟩ :=
    Dialect.lined_of_goTo _ hg.state _ hmem _ hs _ hnext
  · left
    intro _
    rw [hdraft, State.crossTo, hexit, Dialect.lined_enter s hs' (hname ▸ hs)]
    rw [act, haction] at ha
    exact Except.ok.inj ha ▸ rfl
  · right
    refine ⟨rfl, ?_⟩
    -- the only rules that do so are those of the two states which a formula is opened from
    have haccepts := State.matchLine_accepts hm
    have htarget : target ∈ m.rule.next.replayTargets := by
      rw [hnext]
      exact List.mem_cons_self
    have hp := mem_replaysOf hmem htarget
    rcases hcases with ⟨hg', rfl⟩ | ⟨hg', rfl⟩
    · have hgroup : some Dialect.mgroup = some g.state := Dialect.find?_name hg.state ▸ hg' ▸ rfl
      rw [← Option.some.inj hgroup] at hp
      have hp : (m.rule.pattern, "mmath") ∈ [(spaces ++ "[math]", "mmath")] := hp
      rw [(Prod.mk.inj (List.mem_singleton.1 hp)).1] at haccepts
      exact .block (hstate.trans (Option.some.inj (hf.symm.trans rfl))) haccepts
    · have hgroup : some Dialect.group = some g.state := Dialect.find?_name hg.state ▸ hg' ▸ rfl
      rw [← Option.some.inj hgroup] at hp
      have hp : (m.rule.pattern, "math") ∈
          [(Dialect.codeStart, "code"), (indent ++ notAhead "//" ++ visible, Action.tableState),
           (indent ++ notAhead "//" ++ visible, "end_comment"),
           (run isBlank 0 ++ stop, Action.tableState), (lineStart ++ spaces ++ "[math]", "math")] :=
        hp
      have hp : m.rule.pattern = lineStart ++ spaces ++ "[math]" := by
        simpa [Action.tableState] using hp
      rw [hp] at haccepts
      exact .comment (hstate.trans (Option.some.inj (hf.symm.trans rfl))) haccepts

theorem Coherent.called (hg : g.Coherent) (hr : r.grammar = Dialect.grammar)
    (hn : clean → '\n' ∉ line.toList) (hl : clean → g.Midway line) {again : Bool}
    (h : r.evaluate line g = .ok (g', again)) :
    ReflTransGen (Called clean) g.draft g'.draft ∧
      (clean → g'.Lined ∨ again = true ∧ g'.Midway line) := by
  rcases evaluate_cases h with ⟨hm, -, hlike⟩ | ⟨m, e, hm, ha, hcases⟩
  · refine ⟨hlike.draft ▸ .refl, fun hc => Or.inl ?_⟩
    rcases (hl hc).cases (hn hc) with hlined | ⟨m, hm', -⟩
    · rw [Lined, hlike.state, hlike.draft]
      exact hlined
    · rw [hm] at hm'
      cases hm'
  · have hp (hc : clean) (hj : m.rule.action.any Action.joinsLines) :
        g.draft.pending.any Entry.takesLines := by
      rcases (hl hc).cases (hn hc) with hlined | ⟨m', hm', hno⟩
      · exact hlined (Dialect.lined_of_joinsLines _ hg.state _ (State.matchLine_mem hm) hj)
      · rw [hm] at hm'
        cases hm'
        exact absurd hj hno
    have hcalled := called_act hm hn hp ha
    rcases hcases with ⟨ht, -, hlike⟩ | ⟨target, s, ht, hf, hlike⟩
    · refine ⟨?_, fun hc => Or.inl ?_⟩
      · rw [hlike.draft]
        exact hcalled
      · intro hs
        rw [hlike.draft]
        rw [hlike.state] at hs
        exact hg.lined_stay hm (hp hc) ha ht hs
    · rw [hr] at hf
      refine ⟨?_, fun hc => ?_⟩
      · rw [hlike.draft]
        exact hcalled.trans (called_crossTo _ _ _)
      · by_cases hs : target ∈ Dialect.linedStates
        · have hnext := (hg.target_cases hm ha ht).resolve_right fun hno => hno hs
          exact hg.midway_move hm ha hnext hf hs hlike.state hlike.draft
        · left
          intro hlined
          rw [hlike.state] at hlined
          exact absurd (Dialect.name_of_find? hf ▸ hlined) hs

/-! ## Sources -/

/-- A line is read by calls, and leaves code or a formula pending where lines go on with
it. -/
theorem Coherent.called_feed (hg : g.Coherent) (hr : r.grammar = Dialect.grammar)
    (hn : clean → IsLine line) (hl : clean → g.Lined) (h : r.feed g line = .ok g') :
    ReflTransGen (Called clean) g.draft g'.draft ∧ (clean → g'.Lined) := by
  refine evaluateAll_leads
    (P := fun g₁ => g₁.Coherent ∧ ReflTransGen (Called clean) g.draft g₁.draft ∧
      (clean → g₁.Midway (dropLineEnd line)))
    (Q := fun g' => ReflTransGen (Called clean) g.draft g'.draft ∧ (clean → g'.Lined)) ?_ ?_ ?_ h
  · rintro g₁ g₂ ⟨hg₁, hcalls, hmid⟩ he
    obtain ⟨hcalled, hend⟩ := hg₁.called hr hn hmid he
    refine ⟨(hg₁.evaluate hr he).1, hcalls.trans hcalled, fun hc => ?_⟩
    rcases hend hc with hlined | ⟨-, hmid⟩
    · exact .lined hlined
    · exact hmid
  · rintro g₁ g₂ ⟨hg₁, hcalls, hmid⟩ he
    obtain ⟨hcalled, hend⟩ := hg₁.called hr hn hmid he
    exact ⟨hcalls.trans hcalled, fun hc => (hend hc).resolve_right fun hx => by cases hx.1⟩
  · exact ⟨⟨hg.state, hg.fits⟩, .refl, fun hc => .lined (hl hc)⟩

theorem Coherent.called_feedAll (hg : g.Coherent) (hr : r.grammar = Dialect.grammar)
    {lines : List String} (hn : clean → ∀ line ∈ lines, IsLine line) (hl : clean → g.Lined)
    (h : r.feedAll g lines = .ok g') : ReflTransGen (Called clean) g.draft g'.draft := by
  induction lines generalizing g with
  | nil =>
      cases h
      exact .refl
  | cons line lines ih =>
      rw [feedAll_cons] at h
      obtain ⟨g₁, hf, h⟩ := ok_of_bind h
      obtain ⟨hcalled, hlined⟩ :=
        hg.called_feed hr (fun hc => hn hc line List.mem_cons_self) hl hf
      exact hcalled.trans
        (ih (hg.feed hr hf).1 (fun hc l hmem => hn hc l (List.mem_cons_of_mem _ hmem)) hlined h)

theorem called_finish (g : Reading) :
    ReflTransGen (Called clean) g.draft (Reader.finish g).draft := by
  rw [finish_draft]
  exact (called_hooked _ _).trans (called_hooked _ _)

end Reading

/-- Every draft of a source is made by calls from the first one, and by clean ones if the
lines of the source are clean. -/
theorem readingAfter_called {settings : Settings} {q : Request} {lines : List String} {g : Reading}
    (h : readingAfter settings q lines = .ok g) :
    ∃ named, q.named = .ok named ∧
      ReflTransGen (Called (∀ line ∈ lines, IsLine line))
        (firstDraft settings named.1 named.2) g.draft := by
  cases hq : q.named with
  | error f =>
      rw [readingAfter, hq] at h
      cases h
  | ok named =>
      obtain ⟨g₀, hg₀, -, hd, hreads⟩ := readingAfter_eq settings hq
      have hread := (hreads settings.maxReplay settings.trace lines).symm.trans h
      refine ⟨named, rfl, hd ▸ hg₀.called_feedAll rfl id (fun _ hs => ?_) hread⟩
      have hopening := hg₀.consistent.opened.1 (hd ▸ rfl)
      have hno : ∀ n ∈ Dialect.openingStates, n ∉ Dialect.linedStates := by decide
      exact absurd hs (hno _ hopening)

end DocComment
