import DocComment.Proofs.PatternReads
import DocComment.Reader
import Mathlib.Logic.Relation

/-!
# Evaluating lines

What `Reader.evaluate` does to a line, told without the log. `Reading.Like` says that two
readings differ in nothing but their logs; that is all a reading with another reader, one
that logs more or has another bound, can differ in, so every later statement about a
reading is one about all of its likes.

`Reader.Ends` is the evaluation of a line without the bound: the line is evaluated until
no state asks for it again, and the number of times that this happened is part of the
relation. The search with the bound finds what the relation says as soon as the bound is
not below that number (`evaluateAll_of_ends`). So the bound is looked at once, there, and
termination is a question of the grammar alone.
-/

namespace DocComment

open Text Relation

/-! ## Which rule a line meets -/

/-- The rule that a line meets is the first one that takes part and accepts it. -/
theorem matchFrom_eq_some {index : Nat} {rules : List Rule} {line : String} {entering : Bool}
    {m : LineMatch} (h : matchFrom index rules line entering = some m) :
    ∃ pre post, rules = pre ++ m.rule :: post ∧ m.rule.active entering ∧
      m.rule.pattern.read? line = some m.captures ∧
      ∀ r ∈ pre, r.active entering → r.pattern.read? line = none := by
  induction rules generalizing index with
  | nil => cases h
  | cons r rs ih =>
      rw [matchFrom] at h
      split at h
      · next ha =>
          split at h
          · next captures hc =>
              injection h with h
              subst h
              exact ⟨[], rs, rfl, ha, hc, by simp⟩
          · next hn =>
              obtain ⟨pre, post, rfl, hm, hc, hpre⟩ := ih h
              refine ⟨r :: pre, post, rfl, hm, hc, ?_⟩
              rintro r' (_ | ⟨_, hr⟩) ha'
              · exact hn
              · exact hpre r' hr ha'
      · next ha =>
          obtain ⟨pre, post, rfl, hm, hc, hpre⟩ := ih h
          refine ⟨r :: pre, post, rfl, hm, hc, ?_⟩
          rintro r' (_ | ⟨_, hr⟩) ha'
          · exact absurd ha' ha
          · exact hpre r' hr ha'

namespace State

theorem matchLine_mem {s : State} {line : String} {entering : Bool} {m : LineMatch}
    (h : s.matchLine line entering = some m) : m.rule ∈ s.rules := by
  obtain ⟨pre, post, hs, -⟩ := matchFrom_eq_some h
  rw [hs]
  exact List.mem_append_right _ List.mem_cons_self

theorem matchLine_read {s : State} {line : String} {entering : Bool} {m : LineMatch}
    (h : s.matchLine line entering = some m) : m.rule.pattern.read? line = some m.captures := by
  obtain ⟨-, -, -, -, hc, -⟩ := matchFrom_eq_some h
  exact hc

theorem matchLine_accepts {s : State} {line : String} {entering : Bool} {m : LineMatch}
    (h : s.matchLine line entering = some m) : m.rule.pattern.accepts line :=
  Pattern.accepts_of_read (matchLine_read h)

/-- A line that a rule accepts meets that rule or one before it. -/
theorem matchLine_mem_of_accepts {s : State} {line : String} {entering : Bool} {m : LineMatch}
    {pre post : List Rule} {r : Rule} (hs : s.rules = pre ++ r :: post) (ha : r.active entering)
    (hr : r.pattern.accepts line) (h : s.matchLine line entering = some m) :
    m.rule ∈ pre ++ [r] := by
  obtain ⟨pre', post', hs', -, -, hpre⟩ := matchFrom_eq_some h
  rw [hs, List.append_eq_append_iff] at hs'
  rcases hs' with ⟨as, rfl, has⟩ | ⟨as, rfl, has⟩
  · cases as with
    | nil =>
        rw [List.nil_append] at has
        injection has with has _
        rw [← has]
        simp
    | cons a as =>
        -- the rule stands before the one that was met, but it accepts the line
        injection has with has _
        have hn := hpre r (by rw [has]; simp) ha
        exact absurd hr (Pattern.read?_eq_none_iff.1 hn)
  · cases as with
    | nil =>
        rw [List.nil_append] at has
        injection has with has _
        rw [has]
        simp
    | cons a as =>
        injection has with has _
        rw [has]
        simp

end State

/-! ## One evaluation -/

/-- Where a transition leads, if it leads anywhere, and whether the line is evaluated
there. -/
def Transition.target? (d : Draft) : Transition → Option (String × Bool)
  | .stay => none
  | .goTo target again => some (target, again)
  | .resolve resolver => some (resolver.target d)

/-- What a hook does to a draft, if there is one. -/
def hooked : Option Hook → Draft → Draft
  | none, d => d
  | some hook, d => (hook.run d).1

/-- The draft once a state has been left for another one. -/
def State.crossTo (s s' : State) (d : Draft) : Draft :=
  hooked s'.enter (hooked s.exit d)

/-- Two readings that differ in nothing but their logs. -/
structure Reading.Like (g g' : Reading) : Prop where
  state : g.state = g'.state
  entering : g.entering = g'.entering
  line : g.line = g'.line
  draft : g.draft = g'.draft

namespace Reading.Like

theorem refl (g : Reading) : g.Like g :=
  ⟨rfl, rfl, rfl, rfl⟩

theorem symm {g g' : Reading} (h : g.Like g') : g'.Like g :=
  ⟨h.state.symm, h.entering.symm, h.line.symm, h.draft.symm⟩

theorem trans {g g' g'' : Reading} (h : g.Like g') (h' : g'.Like g'') : g.Like g'' :=
  ⟨h.state.trans h'.state, h.entering.trans h'.entering, h.line.trans h'.line,
    h.draft.trans h'.draft⟩

end Reading.Like

/-- Two readings that differ in nothing but their logs and the numbers of their lines. -/
structure Reading.Abreast (g g' : Reading) : Prop where
  state : g.state = g'.state
  entering : g.entering = g'.entering
  draft : g.draft = g'.draft

namespace Reading

theorem Abreast.trans {g g' g'' : Reading} (h : g.Abreast g') (h' : g'.Abreast g'') :
    g.Abreast g'' :=
  ⟨h.state.trans h'.state, h.entering.trans h'.entering, h.draft.trans h'.draft⟩

theorem Like.abreast {g g' : Reading} (h : g.Like g') : g.Abreast g' :=
  ⟨h.state, h.entering, h.draft⟩

end Reading

namespace Reader

theorem note_like (r : Reader) (g : Reading) (message : String) : (r.note g message).Like g := by
  rw [note]
  split <;> exact ⟨rfl, rfl, rfl, rfl⟩

theorem runHook_like (g : Reading) (hook : Option Hook) :
    (runHook g hook).Like { g with draft := hooked hook g.draft } := by
  cases hook <;> exact ⟨rfl, rfl, rfl, rfl⟩

variable {r : Reader} {line : String} {g : Reading}

theorem evaluate_of_none (hm : g.state.matchLine line g.entering = none) :
    ∃ g', r.evaluate line g = .ok (g', false) ∧ g'.Like { g with entering := false } := by
  refine ⟨_, by rw [evaluate, hm], ?_⟩
  have hn := note_like r g ("dropped: " ++ quoted line)
  exact ⟨hn.state, rfl, hn.line, hn.draft⟩

theorem evaluate_of_error {m : LineMatch} {f : Fault}
    (hm : g.state.matchLine line g.entering = some m) (ha : act g m = .error f) :
    r.evaluate line g = .error f := by
  rw [evaluate, hm]
  simp only [ha]
  rfl

/-- A line that leads nowhere leaves the reading in its state. -/
theorem evaluate_of_stay {m : LineMatch} {e : Effect}
    (hm : g.state.matchLine line g.entering = some m) (ha : act g m = .ok e)
    (ht : (e.next.getD m.rule.next).target? e.draft = none) :
    ∃ g', r.evaluate line g = .ok (g', false) ∧
      g'.Like { g with entering := false, draft := e.draft } := by
  have hstay : e.next.getD m.rule.next = .stay := by
    cases h : e.next.getD m.rule.next with
    | stay => rfl
    | goTo | resolve => rw [h] at ht; cases ht
  refine ⟨stay (r.note { g with draft := e.draft, log := g.log ++ e.log } m.rule.actionName),
    ?_, ?_⟩
  · rw [evaluate, hm]
    simp only [ha]
    show (match e.next.getD m.rule.next with | .stay => _ | .goTo _ _ => _ | .resolve _ => _) = _
    rw [hstay]
    rfl
  · have hn := note_like r { g with draft := e.draft, log := g.log ++ e.log } m.rule.actionName
    exact ⟨hn.state, rfl, hn.line, hn.draft⟩

theorem moveTo_of_find {rule : Rule} {target : String} {again : Bool} {s : State}
    (hf : r.grammar.find? target = some s) :
    ∃ g', r.moveTo g rule target again = .ok g' ∧
      g'.Like { g with state := s, entering := true, draft := g.state.crossTo s g.draft } := by
  refine ⟨_, by rw [moveTo, hf], ?_⟩
  have hn := note_like r g
    (rule.actionName ++ " -> " ++ target ++ (if again then " (replay)" else ""))
  revert hn
  generalize r.note g _ = n
  intro hn
  have hx := runHook_like n n.state.exit
  have he := runHook_like { runHook n n.state.exit with state := s } s.enter
  refine ⟨he.state, rfl, he.line.trans (hx.line.trans hn.line), ?_⟩
  rw [State.crossTo, ← hn.state, ← hn.draft]
  exact he.draft.trans (congrArg (hooked s.enter) hx.draft)

theorem evaluate_of_move {m : LineMatch} {e : Effect} {target : String} {again : Bool} {s : State}
    (hm : g.state.matchLine line g.entering = some m) (ha : act g m = .ok e)
    (ht : (e.next.getD m.rule.next).target? e.draft = some (target, again))
    (hf : r.grammar.find? target = some s) :
    ∃ g', r.evaluate line g = .ok (g', again) ∧
      g'.Like { g with state := s, entering := true, draft := g.state.crossTo s e.draft } := by
  obtain ⟨g', hg', hl⟩ := @moveTo_of_find r { g with draft := e.draft, log := g.log ++ e.log }
    m.rule target again s hf
  refine ⟨g', ?_, hl.trans ⟨rfl, rfl, rfl, rfl⟩⟩
  rw [evaluate, hm]
  simp only [ha]
  show (match e.next.getD m.rule.next with | .stay => _ | .goTo _ _ => _ | .resolve _ => _) = _
  cases hn : e.next.getD m.rule.next with
  | stay => rw [hn] at ht; cases ht
  | goTo target' again' =>
      rw [hn] at ht
      injection ht with ht
      injection ht with h1 h2
      subst h1 h2
      simp only [hg']
      rfl
  | resolve resolver =>
      rw [hn] at ht
      injection ht with ht
      simp only [ht, hg']
      rfl

theorem evaluate_of_lost {m : LineMatch} {e : Effect} {target : String} {again : Bool}
    (hm : g.state.matchLine line g.entering = some m) (ha : act g m = .ok e)
    (ht : (e.next.getD m.rule.next).target? e.draft = some (target, again))
    (hf : r.grammar.find? target = none) :
    r.evaluate line g =
      .error (.grammar (.lostTarget target) (some g.state.name) (some g.line)) := by
  rw [evaluate, hm]
  simp only [ha]
  show (match e.next.getD m.rule.next with | .stay => _ | .goTo _ _ => _ | .resolve _ => _) = _
  cases hn : e.next.getD m.rule.next with
  | stay => rw [hn] at ht; cases ht
  | goTo target' again' =>
      rw [hn] at ht
      injection ht with ht
      injection ht with h1 h2
      subst h1 h2
      simp only [moveTo, hf]
      rfl
  | resolve resolver =>
      rw [hn] at ht
      injection ht with ht
      simp only [ht, moveTo, hf]
      rfl

/-- The ways in which an evaluation succeeds: nothing took the line, it was taken and the
state stays, or the state changes. -/
theorem evaluate_cases {g' : Reading} {again : Bool} (h : r.evaluate line g = .ok (g', again)) :
    (g.state.matchLine line g.entering = none ∧ again = false ∧
      g'.Like { g with entering := false }) ∨
    ∃ m e, g.state.matchLine line g.entering = some m ∧ act g m = .ok e ∧
      (((e.next.getD m.rule.next).target? e.draft = none ∧ again = false ∧
        g'.Like { g with entering := false, draft := e.draft }) ∨
      ∃ target s, (e.next.getD m.rule.next).target? e.draft = some (target, again) ∧
        r.grammar.find? target = some s ∧
        g'.Like { g with state := s, entering := true, draft := g.state.crossTo s e.draft }) := by
  cases hm : g.state.matchLine line g.entering with
  | none =>
      obtain ⟨g'', he, hl⟩ := @evaluate_of_none r line g hm
      rw [h] at he
      cases he
      exact Or.inl ⟨rfl, rfl, hl⟩
  | some m =>
      right
      cases ha : act g m with
      | error f =>
          rw [evaluate_of_error hm ha] at h
          cases h
      | ok e =>
          refine ⟨m, e, rfl, ha, ?_⟩
          cases ht : (e.next.getD m.rule.next).target? e.draft with
          | none =>
              obtain ⟨g'', he, hl⟩ := @evaluate_of_stay r line g m e hm ha ht
              rw [h] at he
              cases he
              exact Or.inl ⟨rfl, rfl, hl⟩
          | some way =>
              obtain ⟨target, again'⟩ := way
              cases hf : r.grammar.find? target with
              | none =>
                  rw [evaluate_of_lost hm ha ht hf] at h
                  cases h
              | some s =>
                  obtain ⟨g'', he, hl⟩ := evaluate_of_move hm ha ht hf
                  rw [h] at he
                  cases he
                  exact Or.inr ⟨target, s, rfl, hf, hl⟩

/-- The ways in which an evaluation fails: the action does, or there is nowhere to go
on. -/
theorem evaluate_error {f : Fault} (h : r.evaluate line g = .error f) :
    ∃ m, g.state.matchLine line g.entering = some m ∧
      (act g m = .error f ∨ ∃ e target again, act g m = .ok e ∧
        (e.next.getD m.rule.next).target? e.draft = some (target, again) ∧
        r.grammar.find? target = none) := by
  cases hm : g.state.matchLine line g.entering with
  | none =>
      obtain ⟨g', he, -⟩ := @evaluate_of_none r line g hm
      rw [h] at he
      cases he
  | some m =>
      refine ⟨m, rfl, ?_⟩
      cases ha : act g m with
      | error f' =>
          rw [evaluate_of_error hm ha] at h
          exact Or.inl (congrArg Except.error (Except.error.inj h))
      | ok e =>
          cases ht : (e.next.getD m.rule.next).target? e.draft with
          | none =>
              obtain ⟨g', he, -⟩ := @evaluate_of_stay r line g m e hm ha ht
              rw [h] at he
              cases he
          | some way =>
              cases hf : r.grammar.find? way.1 with
              | none => exact Or.inr ⟨e, way.1, way.2, rfl, ht, hf⟩
              | some s =>
                  obtain ⟨g', he, -⟩ := evaluate_of_move hm ha ht hf
                  rw [h] at he
                  cases he

theorem evaluate_line {g' : Reading} {again : Bool} (h : r.evaluate line g = .ok (g', again)) :
    g'.line = g.line := by
  rcases evaluate_cases h with ⟨-, -, hl⟩ | ⟨m, e, -, -, ⟨-, -, hl⟩ | ⟨target, s, -, -, hl⟩⟩ <;>
    exact hl.line

theorem act_congr {g g' : Reading} (h : g.Like g') (m : LineMatch) : act g m = act g' m := by
  rw [act, act, h.line, h.draft]

theorem evaluate_error_congr {r' : Reader} {g' : Reading} (hr : r.grammar = r'.grammar)
    (hg : g.Like g') {f : Fault} (h : r.evaluate line g = .error f) :
    r'.evaluate line g' = .error f := by
  obtain ⟨m, hm, hcases⟩ := evaluate_error h
  have hm' := hm
  rw [hg.state, hg.entering] at hm'
  rcases hcases with ha | ⟨e, target, again, ha, ht, hf⟩
  · rw [evaluate_of_error hm ha] at h
    rw [act_congr hg] at ha
    rw [evaluate_of_error hm' ha, h]
  · rw [evaluate_of_lost hm ha ht hf] at h
    rw [act_congr hg] at ha
    rw [hr] at hf
    rw [evaluate_of_lost hm' ha ht hf, ← h, hg.state, hg.line]

/-- What an action does to the draft and where it leads does not depend on the number of
the line, which is told only in messages. -/
theorem run_of_line {a : Action} {n : Nat} {c : Captures} {d : Draft} {e : Effect}
    (h : a.run n c d = .ok e) (n' : Nat) :
    ∃ e', a.run n' c d = .ok e' ∧ e'.draft = e.draft ∧ e'.next = e.next := by
  have hdirective : ∀ {option : String} {enabled : Bool} {d' : Draft},
      d.applyDirective option enabled (some n) = .ok d' →
      d.applyDirective option enabled (some n') = .ok d' := by
    intro option enabled d' h
    rw [Draft.applyDirective] at h ⊢
    split at h
    · split at h
      · next ha =>
          rw [if_pos ha]
          exact h
      · cases h
    · cases h
  cases a with
  | untitledPreamble =>
      cases h
      exact ⟨_, rfl, rfl, rfl⟩
  | enableOption | disableOption =>
      obtain ⟨d', hd, he⟩ := ok_of_bind h
      cases he
      refine ⟨⟨d', none, []⟩, ?_, rfl, rfl⟩
      exact congrArg (Except.map fun d => (⟨d, none, []⟩ : Effect)) (hdirective hd)
  | _ => exact ⟨e, h, rfl, rfl⟩

theorem act_abreast {g' : Reading} {m m' : LineMatch} (haction : m.rule.action = m'.rule.action)
    (hcaptures : m.captures = m'.captures) (hdraft : g.draft = g'.draft) {e : Effect}
    (h : act g m = .ok e) : ∃ e', act g' m' = .ok e' ∧ e'.draft = e.draft ∧ e'.next = e.next := by
  rw [act, haction, hcaptures, hdraft] at h
  rw [act]
  cases ha : m'.rule.action with
  | none =>
      rw [ha] at h
      exact ⟨e, h, rfl, rfl⟩
  | some a =>
      rw [ha] at h
      exact run_of_line h g'.line

/-- Readings that are abreast stay so, whoever reads. -/
theorem evaluate_abreast {r' : Reader} {g' : Reading} (hr : r.grammar = r'.grammar)
    (hg : g.Abreast g') {h : Reading} {again : Bool} (he : r.evaluate line g = .ok (h, again)) :
    ∃ h', r'.evaluate line g' = .ok (h', again) ∧ h.Abreast h' := by
  rcases evaluate_cases he with ⟨hm, rfl, hl⟩ | ⟨m, e, hm, ha, hcases⟩
  · rw [hg.state, hg.entering] at hm
    obtain ⟨h', he', hl'⟩ := @evaluate_of_none r' line g' hm
    refine ⟨h', he', (hl.abreast.trans ?_).trans hl'.symm.abreast⟩
    exact ⟨hg.state, rfl, hg.draft⟩
  · rw [hg.state, hg.entering] at hm
    obtain ⟨e', ha', hdraft, hnext⟩ := act_abreast rfl rfl hg.draft ha
    rw [← hdraft, ← hnext] at hcases
    rcases hcases with ⟨ht, rfl, hl⟩ | ⟨target, s, ht, hf, hl⟩
    · obtain ⟨h', he', hl'⟩ := @evaluate_of_stay r' line g' m e' hm ha' ht
      refine ⟨h', he', (hl.abreast.trans ?_).trans hl'.symm.abreast⟩
      exact ⟨hg.state, rfl, rfl⟩
    · rw [hr] at hf
      obtain ⟨h', he', hl'⟩ := evaluate_of_move hm ha' ht hf
      refine ⟨h', he', (hl.abreast.trans ?_).trans hl'.symm.abreast⟩
      exact ⟨rfl, rfl, by rw [hg.state]⟩

theorem evaluate_congr {r' : Reader} {g' : Reading} (hr : r.grammar = r'.grammar) (hg : g.Like g')
    {h : Reading} {again : Bool} (he : r.evaluate line g = .ok (h, again)) :
    ∃ h', r'.evaluate line g' = .ok (h', again) ∧ h.Like h' := by
  obtain ⟨h', he', ha⟩ := evaluate_abreast hr hg.abreast he
  refine ⟨h', he', ha.state, ha.entering, ?_, ha.draft⟩
  rw [evaluate_line he, evaluate_line he', hg.line]

/-! ## Evaluating a line to its end -/

/-- The line that is evaluated asks to be evaluated again, in a new state. -/
def Again (r : Reader) (line : String) (g g' : Reading) : Prop :=
  r.evaluate line g = .ok (g', true)

/-- A line that is evaluated until no state asks for it again ends as given; the number
says how often it was asked for. -/
inductive Ends (r : Reader) (line : String) : Reading → Nat → Except Fault Reading → Prop where
  | fault {g : Reading} {f : Fault} (h : r.evaluate line g = .error f) : Ends r line g 0 (.error f)
  | done {g g' : Reading} (h : r.evaluate line g = .ok (g', false)) : Ends r line g 0 (.ok g')
  | again {g g' : Reading} {n : Nat} {o : Except Fault Reading}
      (h : r.evaluate line g = .ok (g', true)) (ho : Ends r line g' n o) : Ends r line g (n + 1) o

/-- Two outcomes that differ in nothing but logs. -/
inductive Alike : Except Fault Reading → Except Fault Reading → Prop where
  | ok {g g' : Reading} (h : g.Like g') : Alike (.ok g) (.ok g')
  | error (f : Fault) : Alike (.error f) (.error f)

theorem Ends.congr {r' : Reader} {n : Nat} {o : Except Fault Reading} (h : r.Ends line g n o)
    (hr : r.grammar = r'.grammar) {g' : Reading} (hg : g.Like g') :
    ∃ o', r'.Ends line g' n o' ∧ Alike o o' := by
  induction h generalizing g' with
  | fault h => exact ⟨_, .fault (evaluate_error_congr hr hg h), .error _⟩
  | done h =>
      obtain ⟨h', he, hl⟩ := evaluate_congr hr hg h
      exact ⟨_, .done he, .ok hl⟩
  | again h _ ih =>
      obtain ⟨h', he, hl⟩ := evaluate_congr hr hg h
      obtain ⟨o', ho', ha⟩ := ih hl
      exact ⟨o', .again he ho', ha⟩

/-- With a bound that is high enough the bound does not matter. -/
theorem evaluateAll_of_ends {n left : Nat} {o : Except Fault Reading} (h : r.Ends line g n o)
    (hn : n ≤ left) : r.evaluateAll line left g = o := by
  induction h generalizing left with
  | fault h =>
      unfold evaluateAll
      rw [h]
  | done h =>
      unfold evaluateAll
      rw [h]
  | again h ho ih =>
      cases left with
      | zero => omega
      | succ left =>
          unfold evaluateAll
          rw [h]
          exact ih (by omega)

/-- A line ends in the same way in readings that are abreast, unless it ends in a
fault. -/
theorem Ends.abreast {r' : Reader} {n : Nat} {o : Except Fault Reading} (h : r.Ends line g n o)
    (hr : r.grammar = r'.grammar) {g' : Reading} (hg : g.Abreast g') {k : Reading}
    (ho : o = .ok k) : ∃ k', r'.Ends line g' n (.ok k') ∧ k.Abreast k' := by
  induction h generalizing g' with
  | fault h => cases ho
  | done h =>
      cases ho
      obtain ⟨k', he, ha⟩ := evaluate_abreast hr hg h
      exact ⟨k', .done he, ha⟩
  | again h _ ih =>
      obtain ⟨h', he, ha⟩ := evaluate_abreast hr hg h
      obtain ⟨k', hk, ha'⟩ := ih ha ho
      exact ⟨k', .again he hk, ha'⟩

/-- A line that ends in a fault met it where it was evaluated last. -/
theorem Ends.error {n : Nat} {o : Except Fault Reading} (h : r.Ends line g n o) {f : Fault}
    (ho : o = .error f) :
    ∃ g', ReflTransGen (r.Again line) g g' ∧ r.evaluate line g' = .error f := by
  induction h with
  | fault h => exact ⟨_, ReflTransGen.refl, Except.error.inj ho ▸ h⟩
  | done h => cases ho
  | again h _ ih =>
      obtain ⟨g', hs, hf⟩ := ih ho
      exact ⟨g', ReflTransGen.head h hs, hf⟩

/-! ## Reading lines -/

theorem feedAll_cons (r : Reader) (g : Reading) (line : String) (lines : List String) :
    r.feedAll g (line :: lines) = r.feed g line >>= fun g' => r.feedAll g' lines := by
  rw [feedAll, List.foldlM_cons]
  rfl

theorem feedAll_pair {g₁ g₂ : Reading} {line' : String} (h : r.feed g line = .ok g₁)
    (h' : r.feed g₁ line' = .ok g₂) : r.feedAll g [line, line'] = .ok g₂ := by
  rw [feedAll_cons, h]
  show r.feedAll g₁ [line'] = _
  rw [feedAll_cons, h']
  rfl

theorem feedAll_append (r : Reader) (g : Reading) (lines lines' : List String) :
    r.feedAll g (lines ++ lines') = r.feedAll g lines >>= fun g' => r.feedAll g' lines' :=
  List.foldlM_append

/-- What a line ends as is what it ends as from any of its evaluations on. -/
theorem evaluateAll_of_again {g' : Reading}
    (h : ReflTransGen (r.Again line) g g') {left : Nat} {k : Reading}
    (hk : r.evaluateAll line left g = .ok k) : ∃ left', r.evaluateAll line left' g' = .ok k := by
  induction h with
  | refl => exact ⟨left, hk⟩
  | tail _ hs ih =>
      obtain ⟨left', hk⟩ := ih
      unfold evaluateAll at hk
      rw [hs] at hk
      cases left' with
      | zero => cases hk
      | succ left' => exact ⟨left', hk⟩

theorem evaluateAll_of_done {g' k : Reading} {left : Nat}
    (he : r.evaluate line g = .ok (g', false)) (hk : r.evaluateAll line left g = .ok k) :
    g' = k := by
  unfold evaluateAll at hk
  rw [he] at hk
  exact Except.ok.inj hk

theorem evaluateAll_cases {k : Reading} {left : Nat}
    (hk : r.evaluateAll line left g = .ok k) :
    r.evaluate line g = .ok (k, false) ∨
      ∃ g' left', r.evaluate line g = .ok (g', true) ∧ r.evaluateAll line left' g' = .ok k := by
  unfold evaluateAll at hk
  cases he : r.evaluate line g with
  | error f =>
      rw [he] at hk
      cases hk
  | ok x =>
      rw [he] at hk
      obtain ⟨g', again⟩ := x
      cases again with
      | false =>
          cases hk
          exact Or.inl rfl
      | true =>
          cases left with
          | zero => cases hk
          | succ left => exact Or.inr ⟨g', left, rfl, hk⟩

/-- What is kept while a line is asked for again leads to what its last evaluation leads
to. -/
theorem evaluateAll_leads {P Q : Reading → Prop}
    (hagain : ∀ {g g'}, P g → r.evaluate line g = .ok (g', true) → P g')
    (hdone : ∀ {g g'}, P g → r.evaluate line g = .ok (g', false) → Q g') {left : Nat}
    {g g' : Reading} (hg : P g) (h : r.evaluateAll line left g = .ok g') : Q g' := by
  induction left generalizing g with
  | zero =>
      unfold evaluateAll at h
      split at h
      · cases h
      · next he => exact Except.ok.inj h ▸ hdone hg he
      · cases h
  | succ left ih =>
      unfold evaluateAll at h
      split at h
      · cases h
      · next he => exact Except.ok.inj h ▸ hdone hg he
      · next he => exact ih (hagain hg he) h

theorem evaluateAll_keeps {P : Reading → Prop}
    (hP : ∀ {g g' again}, P g → r.evaluate line g = .ok (g', again) → P g') {left : Nat}
    {g g' : Reading} (hg : P g) (h : r.evaluateAll line left g = .ok g') : P g' :=
  evaluateAll_leads (fun hg he => hP hg he) (fun hg he => hP hg he) hg h

/-- Whatever every line keeps is kept by a source. -/
theorem feedAll_keeps {P : Reading → Prop}
    (hP : ∀ {g g' line}, P g → r.feed g line = .ok g' → P g') {lines : List String}
    {g g' : Reading} (hg : P g) (h : r.feedAll g lines = .ok g') : P g' := by
  induction lines generalizing g with
  | nil =>
      cases h
      exact hg
  | cons line lines ih =>
      rw [feedAll_cons] at h
      cases hf : r.feed g line with
      | error f =>
          rw [hf] at h
          cases h
      | ok g'' =>
          rw [hf] at h
          exact ih (hP hg hf) h

theorem finish_draft (g : Reading) :
    (finish g).draft = hooked g.state.eof (hooked g.state.exit g.draft) := by
  have hx := runHook_like g g.state.exit
  have he := runHook_like (runHook g g.state.exit) g.state.eof
  exact he.draft.trans (congrArg (hooked g.state.eof) hx.draft)

theorem feed_line {g' : Reading} (h : r.feed g line = .ok g') : g'.line = g.line + 1 := by
  refine evaluateAll_keeps (P := fun g' => g'.line = g.line + 1) ?_ (by rfl) h
  intro g₁ g₂ again hg he
  rw [evaluate_line he, hg]

end Reader

end DocComment
