import DocComment.Proofs.ActionPhases
import DocComment.Proofs.Evaluation

/-!
# The bound on replays only cuts runs off

A reader looks at its bound in one place: when a line asks to be evaluated once more and
may not. Until then a bounded run is the run without a bound, step for step. So a line
either ends, as `Reader.Ends` says, before the bound is used up, or every evaluation that
the bound allows asks for another one, and then the run is cut off
(`evaluateAll_ends_or_cut`). This holds in every grammar, of whatever circles, and from
every reading: nothing is said about the states or the draft.

That the fault of a cut run has no other source needs one look at the actions. Whatever
draft they are given, they know of three faults only (`Action.run_fault`), and none of
them is this one.
-/

namespace DocComment

open Text Reader

/-! ## The faults of actions -/

/-- The faults that an action knows of: an option that is refused, an entry of a table
where none is open, and text for an entry that takes none. -/
inductive Fault.OfAction : Fault → Prop where
  | badOption (option : String) (place : Place) : OfAction (.source (.badOption option) place)
  | noTable (kind : String) : OfAction (.grammar (.noTable kind) none none)
  | noText (kind : String) : OfAction (.grammar (.noText kind) none none)

/-- A computation that fails only as actions do. -/
def FailsAsAction {α : Type} (x : Except Fault α) : Prop :=
  ∀ f, x = .error f → f.OfAction

namespace FailsAsAction

variable {α β : Type}

theorem ok (a : α) : FailsAsAction (.ok a) :=
  fun _ h => by cases h

theorem error {f : Fault} (h : f.OfAction) : FailsAsAction (.error f : Except Fault α) := by
  intro f' hf
  cases hf
  exact h

theorem bind {x : Except Fault α} {k : α → Except Fault β} (hx : FailsAsAction x)
    (hk : ∀ a, FailsAsAction (k a)) : FailsAsAction (x >>= k) := by
  cases x with
  | error f => exact error (hx f rfl)
  | ok a => exact hk a

end FailsAsAction

open FailsAsAction

theorem Entry.extend_fault (e : Entry) (text : String) (onNewLine : Bool) :
    FailsAsAction (e.extend text onNewLine) := by
  cases e with
  | heading | edge | blank => exact .error (.noText _)
  | paragraph | formula | code | span | list => exact .ok _

namespace Draft

theorem appendText_fault (d : Draft) (text : String) (onNewLine : Bool) :
    FailsAsAction (d.appendText text onNewLine) := by
  rw [appendText]
  split
  · exact .ok _
  · next e _ => exact (e.extend_fault text onNewLine).bind fun _ => .ok _

theorem addKeyword_fault (d : Draft) (whole keyword text : String) :
    FailsAsAction (d.addKeyword whole keyword text) := by
  rw [addKeyword]
  split
  · exact .ok _
  · exact d.appendText_fault whole false

theorem register_fault (d : Draft) (key : String) (kind : ParamKind) :
    FailsAsAction (d.register key kind) := by
  unfold register
  split
  · exact .ok _
  · exact .ok _
  · exact .error (.noTable _)

theorem declareParam_fault (d : Draft) (key : String) (definition : Option String)
    (kind : ParamKind) : FailsAsAction (d.declareParam key definition kind) := by
  rw [declareParam]
  split
  · exact .ok _
  · exact (register_fault _ key kind).bind fun _ => .ok _

theorem applyDirective_fault (d : Draft) (option : String) (enabled : Bool) (line : Option Int) :
    FailsAsAction (d.applyDirective option enabled line) := by
  intro f hf
  rw [applyDirective_error hf]
  exact .badOption _ _

end Draft

namespace Action

open Draft

theorem addTrailing_fault (d : Draft) (text : String) : FailsAsAction (addTrailing d text) := by
  rw [addTrailing]
  split
  · exact .ok _
  · exact d.appendText_fault _ false

theorem closeFormula_fault (d : Draft) (formula trailing : String) :
    FailsAsAction (closeFormula d formula trailing) := by
  unfold closeFormula
  dsimp only
  split
  · exact addTrailing_fault _ trailing
  · exact (d.appendText_fault _ true).bind fun d' => addTrailing_fault d'.flush trailing

theorem declareLibParam_fault (d : Draft) (key value : String) :
    FailsAsAction (declareLibParam d key value) := by
  unfold declareLibParam
  dsimp only
  split
  · exact .ok _
  · exact declareParam_fault _ key (some value) .plain

theorem captureOr_fault (d : Draft) (line : String) {declare : Draft → Except Fault Draft}
    (h : ∀ d, FailsAsAction (declare d)) : FailsAsAction (captureOr d line declare) := by
  rw [captureOr]
  split
  · exact .ok _
  · exact h _

theorem apply_fault (a : Action) (line : Nat) (c : Captures) (d : Draft) :
    FailsAsAction (a.apply line c d) := by
  cases a with
  | todoFixme => exact d.addKeyword_fault _ _ _
  | append | appendLine | appendBlankLine => exact d.appendText_fault _ _
  | mathInline => exact addTrailing_fault _ _
  | mathClose => exact closeFormula_fault d _ _
  | undocumentedFunction => exact captureOr_fault d _ fun _ => .ok _
  | enableOption | disableOption => exact d.applyDirective_fault _ _ _
  | sourceTodo => exact (d.addKeyword_fault _ _ _).bind fun _ => .ok _
  | paramsBlockComment => exact (addTrailing_fault _ _).bind fun _ => .ok _
  | paramsInlineComment => exact (appendText_fault _ _ _).bind fun _ => .ok _
  | tableParam | listParam => exact declareParam_fault _ _ _ _
  | sameLineParam => exact (appendText_fault _ _ _).bind fun _ => declareParam_fault _ _ _ _
  | _ => exact .ok _

theorem run_fault (a : Action) (line : Nat) (c : Captures) (d : Draft) :
    FailsAsAction (a.run line c d) := by
  cases a with
  | missingTitle | untitledPreamble => exact .ok _
  | documentedLibParam =>
      rw [run]
      split
      · exact .ok _
      · exact (declareLibParam_fault d _ _).bind fun _ => .ok _
  | undocumentedParam =>
      rw [run]
      split
      · exact .ok _
      · exact (captureOr_fault d _ fun _ => declareParam_fault _ _ _ _).bind fun _ => .ok _
  | _ => exact (apply_fault _ line c d).bind fun _ => .ok _

end Action

namespace Reader

variable {r : Reader} {line : String} {g g' : Reading}

/-- No evaluation meets the fault that a reader cuts a run off with. -/
theorem evaluate_ne_replayed {f : Fault} (h : r.evaluate line g = .error f) (bound : Int)
    (state : Option String) (n : Option Int) : f ≠ .grammar (.replayed bound) state n := by
  rintro rfl
  obtain ⟨m, hm, ha | ⟨e, target, again, ha, ht, hf⟩⟩ := evaluate_error h
  · rw [act] at ha
    split at ha
    · cases ha
    · cases Action.run_fault _ _ _ _ _ ha
  · rw [evaluate_of_lost hm ha ht hf] at h
    cases h

/-! ## Runs -/

/-- The reading after a line was evaluated a number of times, if it asked to be evaluated
again every time. -/
def askedAgain? (r : Reader) (line : String) : Nat → Reading → Option Reading
  | 0, g => some g
  | n + 1, g =>
    match r.evaluate line g with
    | .ok (g', true) => r.askedAgain? line n g'
    | _ => none

/-- Evaluates a line as `evaluateAll` does, and counts how often. -/
def evaluateCounted (r : Reader) (line : String) (left : Nat) (g : Reading) :
    Except Fault Reading × Nat :=
  match r.evaluate line g with
  | .error fault => (.error fault, 1)
  | .ok (g, false) => (.ok g, 1)
  | .ok (g, true) =>
    match left with
    | 0 => (.error (.grammar (.replayed r.maxReplay) (some g.state.name) (some g.line)), 1)
    | left + 1 =>
      let (outcome, count) := r.evaluateCounted line left g
      (outcome, count + 1)

/-- Reads a line as `feed` does, and counts how often it is evaluated. -/
def feedCounted (r : Reader) (g : Reading) (line : String) : Except Fault Reading × Nat :=
  r.evaluateCounted (dropLineEnd line) r.maxReplay.toNat { g with line := g.line + 1 }

/-- The reader with another bound. -/
def bounded (r : Reader) (bound : Int) : Reader :=
  { r with maxReplay := bound }

@[simp] theorem bounded_evaluate (r : Reader) (bound : Int) (line : String) (g : Reading) :
    (r.bounded bound).evaluate line g = r.evaluate line g := rfl

theorem evaluateCounted_fst (r : Reader) (line : String) (left : Nat) (g : Reading) :
    (r.evaluateCounted line left g).1 = r.evaluateAll line left g := by
  induction left generalizing g with
  | zero =>
      unfold evaluateCounted evaluateAll
      rcases r.evaluate line g with f | ⟨g', _ | _⟩ <;> rfl
  | succ left ih =>
      unfold evaluateCounted evaluateAll
      rcases r.evaluate line g with f | ⟨g', _ | _⟩
      · rfl
      · rfl
      · exact ih g'

theorem evaluateCounted_snd_le (r : Reader) (line : String) (left : Nat) (g : Reading) :
    (r.evaluateCounted line left g).2 ≤ left + 1 := by
  induction left generalizing g with
  | zero =>
      unfold evaluateCounted
      split <;> exact Nat.le_refl 1
  | succ left ih =>
      unfold evaluateCounted
      split
      · exact Nat.le_add_left 1 _
      · exact Nat.le_add_left 1 _
      · next g' _ => exact Nat.succ_le_succ (ih g')

theorem askedAgain?_of_again (h : r.evaluate line g = .ok (g', true)) (n : Nat) :
    r.askedAgain? line (n + 1) g = r.askedAgain? line n g' := by
  rw [askedAgain?, h]

theorem bounded_askedAgain? (r : Reader) (bound : Int) (line : String) (n : Nat) (g : Reading) :
    (r.bounded bound).askedAgain? line n g = r.askedAgain? line n g := by
  induction n generalizing g with
  | zero => rfl
  | succ n ih =>
      rw [askedAgain?, askedAgain?, bounded_evaluate]
      split
      · exact ih _
      · rfl

/-- A line keeps its number however often it is evaluated. -/
theorem askedAgain?_line {n : Nat} (h : r.askedAgain? line n g = some g') : g'.line = g.line := by
  induction n generalizing g with
  | zero => rw [← Option.some.inj h]
  | succ n ih =>
      rw [askedAgain?] at h
      split at h
      · next g'' he => rw [ih h, evaluate_line he]
      · cases h

/-- A line that ends is not asked for more often than that. -/
theorem Ends.askedAgain?_eq_none {n m : Nat} {o : Except Fault Reading} (h : r.Ends line g n o)
    (hm : n < m) : r.askedAgain? line m g = none := by
  obtain ⟨m, rfl⟩ : ∃ k, m = k + 1 := ⟨m - 1, by omega⟩
  induction h generalizing m with
  | fault h | done h => rw [askedAgain?, h]
  | again h _ ih =>
      obtain ⟨k, rfl⟩ : ∃ k, m = k + 1 := ⟨m - 1, by omega⟩
      rw [askedAgain?_of_again h]
      exact ih k (by omega)

theorem Ends.bounded {n : Nat} {o : Except Fault Reading} (h : r.Ends line g n o) (bound : Int) :
    (r.bounded bound).Ends line g n o := by
  induction h with
  | fault h => exact .fault h
  | done h => exact .done h
  | again h _ ih => exact .again h ih

/-- A line ends before the bound is used up, or all evaluations ask for another one and
the run is cut off. -/
theorem evaluateAll_ends_or_cut (r : Reader) (line : String) (left : Nat) (g : Reading) :
    (∃ n ≤ left, r.Ends line g n (r.evaluateAll line left g)) ∨
      ∃ g', r.askedAgain? line (left + 1) g = some g' ∧ r.evaluateAll line left g =
        .error (.grammar (.replayed r.maxReplay) (some g'.state.name) (some g'.line)) := by
  induction left generalizing g with
  | zero =>
      unfold evaluateAll
      split
      · next he => exact .inl ⟨0, Nat.le_refl 0, .fault he⟩
      · next he => exact .inl ⟨0, Nat.le_refl 0, .done he⟩
      · next g' he => exact .inr ⟨g', askedAgain?_of_again he 0, rfl⟩
  | succ left ih =>
      unfold evaluateAll
      split
      · next he => exact .inl ⟨0, Nat.zero_le _, .fault he⟩
      · next he => exact .inl ⟨0, Nat.zero_le _, .done he⟩
      · next g' he =>
          rcases ih g' with ⟨n, hn, hends⟩ | ⟨k, hk, hcut⟩
          · exact .inl ⟨n + 1, Nat.succ_le_succ hn, .again he hends⟩
          · exact .inr ⟨k, (askedAgain?_of_again he _).trans hk, hcut⟩

/-- The fault of a line that ends is never that of a run that is cut off. -/
theorem Ends.ne_replayed {n : Nat} {o : Except Fault Reading} (h : r.Ends line g n o) (bound : Int)
    (state : Option String) (k : Option Int) : o ≠ .error (.grammar (.replayed bound) state k) := by
  intro ho
  obtain ⟨g', -, he⟩ := h.error ho
  exact evaluate_ne_replayed he bound state k rfl

theorem evaluateAll_replayed_iff (r : Reader) (line : String) (left : Nat) (g : Reading)
    (bound : Int) (state : Option String) (n : Option Int) :
    r.evaluateAll line left g = .error (.grammar (.replayed bound) state n) ↔
      bound = r.maxReplay ∧ n = some (g.line : Int) ∧
        ∃ g', r.askedAgain? line (left + 1) g = some g' ∧ state = some g'.state.name := by
  rcases evaluateAll_ends_or_cut r line left g with ⟨m, hm, hends⟩ | ⟨g', hasked, hcut⟩
  · constructor
    · intro h
      exact absurd h (hends.ne_replayed bound state n)
    · rintro ⟨-, -, g', hasked, -⟩
      rw [hends.askedAgain?_eq_none (Nat.lt_succ_of_le hm)] at hasked
      cases hasked
  · rw [hcut, ← askedAgain?_line hasked]
    constructor
    · intro h
      cases h
      exact ⟨rfl, rfl, g', hasked, rfl⟩
    · rintro ⟨rfl, rfl, k, hk, rfl⟩
      cases hasked.symm.trans hk
      rfl

/-- What a line ends as under some bound, unless it is cut off, it ends as under every
higher one. -/
theorem evaluateAll_mono {left left' : Nat} (hle : left ≤ left') (bound : Int)
    {o : Except Fault Reading} (h : r.evaluateAll line left g = o)
    (ho : ∀ b state n, o ≠ .error (.grammar (.replayed b) state n)) :
    (r.bounded bound).evaluateAll line left' g = o := by
  rcases evaluateAll_ends_or_cut r line left g with ⟨n, hn, hends⟩ | ⟨g', -, hcut⟩
  · rw [h] at hends
    exact evaluateAll_of_ends (hends.bounded bound) (Nat.le_trans hn hle)
  · exact absurd (h.symm.trans hcut) (ho _ _ _)

theorem feed_mono {bound bound' : Int} (hle : bound ≤ bound') {o : Except Fault Reading}
    (h : (r.bounded bound).feed g line = o)
    (ho : ∀ b state n, o ≠ .error (.grammar (.replayed b) state n)) :
    (r.bounded bound').feed g line = o :=
  evaluateAll_mono (r := r.bounded bound) (Int.toNat_le_toNat hle) bound' h ho

end Reader

/-- Whatever the grammar, the reading and the line: a reader evaluates the line at most
once more than its bound allows replays; it cuts the run off, and names the state that was
reached and the line, if and only if all these evaluations ask for another one; and a
higher bound changes neither a reading that the line leads to nor any other fault. -/
theorem bound_only_cuts_off (r : Reader) (g : Reading) (line : String) (bound : Int) :
    ((r.bounded bound).feedCounted g line).1 = (r.bounded bound).feed g line ∧
    (((r.bounded bound).feedCounted g line).2 : Int) ≤ max bound 0 + 1 ∧
    (∀ b state n, (r.bounded bound).feed g line = .error (.grammar (.replayed b) state n) ↔
      b = bound ∧ n = some (g.line + 1 : Nat) ∧
        ∃ g', r.askedAgain? (dropLineEnd line) ((max bound 0).toNat + 1)
          { g with line := g.line + 1 } = some g' ∧ state = some g'.state.name) ∧
    ∀ bound', bound ≤ bound' →
      (∀ g', (r.bounded bound).feed g line = .ok g' → (r.bounded bound').feed g line = .ok g') ∧
      ∀ f, (∀ b state n, f ≠ .grammar (.replayed b) state n) →
        (r.bounded bound).feed g line = .error f → (r.bounded bound').feed g line = .error f := by
  have hleft : (max bound 0).toNat = bound.toNat := by omega
  refine ⟨evaluateCounted_fst _ _ _ _, ?_, fun b state n => ?_, fun bound' hle => ⟨?_, ?_⟩⟩
  · have hcount : ((r.bounded bound).feedCounted g line).2 ≤ bound.toNat + 1 :=
      evaluateCounted_snd_le _ _ _ _
    omega
  · have hcut := evaluateAll_replayed_iff (r.bounded bound) (dropLineEnd line) bound.toNat
      { g with line := g.line + 1 } b state n
    simp only [bounded_askedAgain?] at hcut
    rw [hleft]
    exact hcut
  · intro g' h
    exact feed_mono hle h fun _ _ _ ho => by cases ho
  · intro f hf h
    exact feed_mono hle h fun b state n ho => hf b state n (Except.error.inj ho)

/-- Two states that hand every line to each other: with a bound of three the fourth
evaluation is the last one, and with a negative bound the first one is. -/
theorem bound_only_cuts_off_circle :
    ∃ grammar g, Grammar.ofDeclared
        [{ name := "a", rules := [{ pattern := .empty, next := .goTo "b" true }] },
         { name := "b", rules := [{ pattern := .empty, next := .goTo "a" true }] }] = .ok grammar ∧
      let r : Reader := { grammar }
      r.start "a" (Draft.start (Document.new "d" none none) none "js" []) = .ok g ∧
      (r.bounded 3).feed g "x" = .error (.grammar (.replayed 3) (some "a") (some 1)) ∧
      (r.bounded (-1)).feed g "x" = .error (.grammar (.replayed (-1)) (some "b") (some 1)) ∧
      ((r.bounded (-1)).feedCounted g "x").2 ≤ 1 := by
  refine ⟨_, _, rfl, rfl, ?_, ?_, ?_⟩
  · exact ((bound_only_cuts_off _ _ "x" 3).2.2.1 _ _ _).2 ⟨rfl, rfl, _, rfl, rfl⟩
  · exact ((bound_only_cuts_off _ _ "x" (-1)).2.2.1 _ _ _).2 ⟨rfl, rfl, _, rfl, rfl⟩
  · exact Int.ofNat_le.1 (bound_only_cuts_off _ _ "x" (-1)).2.1

end DocComment
