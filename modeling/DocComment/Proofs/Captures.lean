import DocComment.Pattern.Piece
import DocComment.Proofs.PatternReads

/-!
# What a pattern captures

What a rule captures depends on the order in which a pattern tries lengths, and on what
stood before the place that it is read from only as far as a word may end there. So two
lines that go on alike are captured alike, whatever they start with: `follow_congr` is
that for two places of the same rest, and `follow_spaces` for places that have the same
rest after their spaces. The marks themselves are the same then, as a mark holds the rest
of the line from its two ends on.

A run comes back if what follows it fails. It need not, if what follows does not gain by
that (`followRun_zero`), and that is so for every run of the dialect that is looked at
here.

`Takes` is a reading with its marks and without any order. The search finds one of them
(`follow_takes`), so what holds of all of them holds of the captures; for one, whatever is
captured is a part of the line (`text_subset`).
-/

namespace DocComment

open Text

/-- Places from which every pattern reads and captures the same. -/
structure Spot.Like (s t : Spot) : Prop where
  rest : s.rest = t.rest
  edge : s.before.any isWord = t.before.any isWord

theorem Text.isIndent_iff {c : Char} : isIndent c ↔ c = ' ' ∨ c = '\t' := by
  rw [isIndent, Bool.or_eq_true, decide_eq_true_eq, decide_eq_true_eq]

theorem Spot.Like.refl (s : Spot) : s.Like s :=
  ⟨rfl, rfl⟩

namespace Pattern

/-! ## Places of the same rest -/

/-- What goes on alike from places that are alike. -/
def Steady (next : Spot → Marks → Option Marks) : Prop :=
  ∀ s t ms, s.Like t → next s ms = next t ms

theorem followRun_congr {p : Char → Bool} {next : Spot → Option Marks}
    (hnext : ∀ s t, s.Like t → next s = next t) {least : Nat} {b b' : Option Char}
    (hb : b.any isWord = b'.any isWord) (cs : List Char) :
    followRun p next least b cs = followRun p next least b' cs := by
  cases cs with
  | nil => rw [followRun, followRun, hnext ⟨b, []⟩ ⟨b', []⟩ ⟨rfl, hb⟩]
  | cons c cs => rw [followRun, followRun, hnext ⟨b, c :: cs⟩ ⟨b', c :: cs⟩ ⟨rfl, hb⟩]

theorem followLazyRun_congr {p : Char → Bool} {next : Spot → Option Marks}
    (hnext : ∀ s t, s.Like t → next s = next t) {b b' : Option Char}
    (hb : b.any isWord = b'.any isWord) (cs : List Char) :
    followLazyRun p next b cs = followLazyRun p next b' cs := by
  cases cs with
  | nil => rw [followLazyRun, followLazyRun, hnext ⟨b, []⟩ ⟨b', []⟩ ⟨rfl, hb⟩]
  | cons c cs => rw [followLazyRun, followLazyRun, hnext ⟨b, c :: cs⟩ ⟨b', c :: cs⟩ ⟨rfl, hb⟩]

theorem afterText_congr (ts : List Char) {s t : Spot} (h : s.Like t) :
    Option.Rel Spot.Like (afterText ts s) (afterText ts t) := by
  obtain ⟨b, cs⟩ := s
  obtain ⟨b', cs'⟩ := t
  obtain rfl : cs = cs' := h.rest
  cases ts with
  | nil => exact .some h
  | cons x ts =>
      cases cs with
      | nil => exact .none
      | cons c cs =>
          rw [afterText, afterText]
          split
          · cases afterText ts ⟨some c, cs⟩ with
            | none => exact .none
            | some u => exact .some (.refl u)
          · exact .none

/-- A pattern reads and captures the same from places that are alike. -/
theorem follow_congr {p : Pattern} {next : Spot → Marks → Option Marks} (hnext : Steady next) :
    Steady (p.follow next) := by
  induction p generalizing next with
  | empty => exact hnext
  | one p =>
      intro s t ms h
      rw [follow, follow, h.rest]
  | lit text =>
      intro s t ms h
      have ha := afterText_congr text.toList h
      rw [follow, follow]
      generalize afterText text.toList s = x at ha
      generalize afterText text.toList t = y at ha
      cases ha with
      | none => rfl
      | some hu => exact hnext _ _ ms hu
  | run p least =>
      intro s t ms h
      rw [follow, follow, h.rest]
      exact followRun_congr (fun s t hst => hnext s t ms hst) h.edge _
  | lazyRun p =>
      intro s t ms h
      rw [follow, follow, h.rest]
      exact followLazyRun_congr (fun s t hst => hnext s t ms hst) h.edge _
  | seq p q ihp ihq => exact ihp (ihq hnext)
  | either p q ihp ihq =>
      intro s t ms h
      rw [follow, follow, ihp hnext s t ms h, ihq hnext s t ms h]
  | capture i p ih =>
      intro s t ms h
      rw [follow, follow, h.rest]
      refine ih ?_ s t ms h
      intro u v ms' huv
      simp only [huv.rest]
      exact hnext u v _ huv
  | notAhead p ih =>
      intro s t ms h
      have hp : p.follow (fun _ ms => some ms) s ms = p.follow (fun _ ms => some ms) t ms :=
        ih (fun _ _ _ _ => rfl) s t ms h
      rw [follow, follow, hp, hnext s t ms h]
  | edge =>
      intro s t ms h
      have hedge : atEdge s = atEdge t := by
        rw [atEdge, atEdge, h.rest, h.edge]
      rw [follow, follow, hedge, hnext s t ms h]
  | stop =>
      intro s t ms h
      have hstop : atStop s = atStop t := by
        rw [atStop, atStop, h.rest]
      rw [follow, follow, hstop, hnext s t ms h]

/-! ## Runs that need not come back -/

/-- The character before a place once a run of a class has been read up to it. -/
def lastOf (p : Char → Bool) (before : Option Char) (cs : List Char) : Option Char :=
  (cs.takeWhile p).getLast?.or before

theorem lastOf_cons {p : Char → Bool} {c : Char} (hc : p c) (before : Option Char)
    (cs : List Char) : lastOf p before (c :: cs) = lastOf p (some c) cs := by
  rw [lastOf, lastOf, List.takeWhile_cons_of_pos hc, List.getLast?_cons]
  cases (cs.takeWhile p).getLast? with
  | none => rfl
  | some d => rfl

/-- What succeeds before characters of a class, and then also after the first of them,
succeeds after all of them. -/
theorem isSome_after_run {p : Char → Bool} {next : Spot → Option Marks}
    (hgain : ∀ b c cs, p c → (next ⟨b, c :: cs⟩).isSome → (next ⟨some c, cs⟩).isSome)
    {before : Option Char} {cs : List Char} (h : (next ⟨before, cs⟩).isSome) :
    (next ⟨lastOf p before cs, cs.dropWhile p⟩).isSome := by
  induction cs generalizing before with
  | nil => exact h
  | cons c cs ih =>
      by_cases hc : p c
      · rw [lastOf_cons hc, List.dropWhile_cons_of_pos hc]
        exact ih (hgain before c cs hc h)
      · rw [lastOf, List.takeWhile_cons_of_neg hc, List.dropWhile_cons_of_neg hc]
        exact h

/-- A run is as long as it can be, if what follows succeeds after it or gains nothing by a
shorter run. -/
theorem followRun_zero {p : Char → Bool} {next : Spot → Option Marks} {before : Option Char}
    {cs : List Char}
    (h : (next ⟨lastOf p before cs, cs.dropWhile p⟩).isSome ∨
      ∀ b c cs, p c → (next ⟨b, c :: cs⟩).isSome → (next ⟨some c, cs⟩).isSome) :
    followRun p next 0 before cs = next ⟨lastOf p before cs, cs.dropWhile p⟩ := by
  induction cs generalizing before with
  | nil => rfl
  | cons c cs ih =>
      by_cases hc : p c
      · rw [lastOf_cons hc, List.dropWhile_cons_of_pos hc] at h ⊢
        rw [followRun, if_pos hc, if_pos rfl, ih h]
        cases hn : next ⟨lastOf p (some c) cs, cs.dropWhile p⟩ with
        | some ms => rfl
        | none =>
            rw [hn] at h
            have hgain := h.resolve_left (by simp)
            cases hnext : next ⟨before, c :: cs⟩ with
            | none => rfl
            | some ms =>
                have hsome := @isSome_after_run p next hgain (some c) cs
                  (hgain before c cs hc (by rw [hnext]; rfl))
                rw [hn] at hsome
                cases hsome
      · rw [followRun, if_neg hc, if_pos rfl, lastOf, List.takeWhile_cons_of_neg hc,
          List.dropWhile_cons_of_neg hc]
        rfl

/-! ## The parts of the dialect's patterns -/

/-- What is done when a pattern has been read: what was captured is the answer. -/
abbrev done : Spot → Marks → Option Marks :=
  fun _ ms => some ms

theorem steady_done : Steady done :=
  fun _ _ _ _ => rfl

/-- A reading that gains nothing by leaving spaces to it. -/
def SkipsSpaces (next : Spot → Marks → Option Marks) : Prop :=
  ∀ b cs ms, (next ⟨b, ' ' :: cs⟩ ms).isSome → (next ⟨some ' ', cs⟩ ms).isSome

/-- What does not start with a space gains nothing by one. -/
theorem SkipsSpaces.of_none {next : Spot → Marks → Option Marks}
    (h : ∀ b cs ms, next ⟨b, ' ' :: cs⟩ ms = none) : SkipsSpaces next := by
  intro b cs ms hsome
  rw [h] at hsome
  cases hsome

/-- Past a run of characters that are in no word it matters only what comes after them. -/
theorem follow_run {p : Char → Bool} (hp : ∀ c, p c → isWord c = false)
    {next : Spot → Marks → Option Marks} (hnext : Steady next) {s : Spot}
    (hs : s.before.any isWord = false) {ms : Marks}
    (h : (next ⟨none, s.rest.dropWhile p⟩ ms).isSome ∨
      ∀ b c cs, p c → (next ⟨b, c :: cs⟩ ms).isSome → (next ⟨some c, cs⟩ ms).isSome) :
    (run p 0).follow next s ms = next ⟨none, s.rest.dropWhile p⟩ ms := by
  have hlike : Spot.Like ⟨lastOf p s.before s.rest, s.rest.dropWhile p⟩
      ⟨none, s.rest.dropWhile p⟩ := by
    refine ⟨rfl, ?_⟩
    show (lastOf _ _ _).any isWord = false
    rw [lastOf]
    cases hl : (s.rest.takeWhile p).getLast? with
    | none => exact hs
    | some c => exact hp c (List.all_eq_true.1 List.all_takeWhile c (List.mem_of_getLast? hl))
  show followRun _ _ 0 _ _ = _
  rw [followRun_zero, hnext _ _ ms hlike]
  refine h.imp_left ?_
  intro hsome
  rw [hnext _ _ ms hlike]
  exact hsome

/-- Past spaces it matters only what comes after them. -/
theorem follow_spaces {next : Spot → Marks → Option Marks} (hnext : Steady next) {s : Spot}
    (hs : s.before.any isWord = false) {ms : Marks}
    (h : (next ⟨none, s.rest.dropWhile (· = ' ')⟩ ms).isSome ∨ SkipsSpaces next) :
    spaces.follow next s ms = next ⟨none, s.rest.dropWhile (· = ' ')⟩ ms := by
  refine follow_run ?_ hnext hs (h.imp_right ?_)
  · intro c hc
    rw [of_decide_eq_true hc]
    rfl
  · intro hskip b c cs hc
    rw [of_decide_eq_true hc]
    exact hskip b cs ms

/-- Past the indentation it matters only what comes after it. -/
theorem follow_indent {next : Spot → Marks → Option Marks} (hnext : Steady next) {s : Spot}
    (hs : s.before.any isWord = false) {ms : Marks}
    (h : ∀ b c cs, isIndent c → next ⟨b, c :: cs⟩ ms = none) :
    indent.follow next s ms = next ⟨none, s.rest.dropWhile isIndent⟩ ms := by
  refine follow_run ?_ hnext hs (.inr ?_)
  · intro c hc
    rcases isIndent_iff.1 hc with rfl | rfl <;> rfl
  · intro b c cs hc hsome
    rw [h b c cs hc] at hsome
    cases hsome

theorem follow_lit_none {text : String} {next : Spot → Marks → Option Marks} {s : Spot}
    (h : ¬ text.toList <+: s.rest) (ms : Marks) : (lit text).follow next s ms = none := by
  rw [follow]
  split
  · rfl
  · next t ht =>
      refine absurd ?_ h
      rw [(afterText_eq_some_iff.1 ht).rest]
      exact List.prefix_append _ _

/-- A block comment does not end at a place that has something else after its spaces. -/
theorem follow_blockEnd_none {s : Spot} (hs : s.before.any isWord = false)
    (h : ¬ "*/".toList <+: s.rest.dropWhile (· = ' ')) (ms : Marks) :
    blockEnd.follow done s ms = none := by
  have hskip : SkipsSpaces ((lit "*/").follow done) := SkipsSpaces.of_none fun _ _ _ => rfl
  have hspaces : blockEnd.follow done s ms =
      (lit "*/").follow done ⟨none, s.rest.dropWhile (· = ' ')⟩ ms :=
    follow_spaces (follow_congr steady_done) hs (.inr hskip)
  rw [hspaces]
  exact follow_lit_none h ms

theorem dropWhile_isInline {cs : List Char} (h : '\n' ∉ cs) : cs.dropWhile isInline = [] := by
  induction cs with
  | nil => rfl
  | cons c cs ih =>
      rw [List.mem_cons, not_or] at h
      have hc : isInline c := by
        rw [isInline, bne_iff_ne]
        exact Ne.symm h.1
      rw [List.dropWhile_cons_of_pos hc]
      exact ih h.2

/-- The rest of a line is captured as a whole. -/
theorem follow_anything {i : Nat} {s : Spot} (h : '\n' ∉ s.rest) (ms : Marks) :
    (capture i anything ++ stop).follow done s ms = some ((i, ⟨s.rest, []⟩) :: ms) := by
  show followRun isInline _ 0 s.before s.rest = _
  rw [followRun_zero, dropWhile_isInline h]
  · rfl
  · left
    rw [dropWhile_isInline h]
    rfl

theorem follow_something {i : Nat} {b : Option Char} {c : Char} {cs : List Char}
    (h : '\n' ∉ c :: cs) (ms : Marks) :
    (capture i something ++ stop).follow done ⟨b, c :: cs⟩ ms =
      some ((i, ⟨c :: cs, []⟩) :: ms) := by
  rw [List.mem_cons, not_or] at h
  have hc : isInline c := by
    rw [isInline, bne_iff_ne]
    exact Ne.symm h.1
  show followRun isInline _ 1 b (c :: cs) = _
  rw [followRun, if_pos hc, followRun_zero, dropWhile_isInline h.2]
  · rfl
  · left
    rw [dropWhile_isInline h.2]
    rfl

/-- Patterns that read two lines alike capture the same. -/
theorem read?_eq_of_follow {p q : Pattern} {line line' : String}
    (hcount : p.captureCount = q.captureCount)
    (h : p.follow done ⟨none, line.toList⟩ [] = q.follow done ⟨none, line'.toList⟩ []) :
    p.read? line = q.read? line' := by
  rw [read?, read?, hcount]
  exact congrArg _ h

/-! ## Captures without the search -/

/-- A reading of a pattern from one place of a line to another, and the marks that it
sets. -/
def Takes : Pattern → Spot → Spot → Marks → Prop
  | seq p q, s, t, marks =>
    ∃ m older newer, p.Takes s m older ∧ q.Takes m t newer ∧ marks = newer ++ older
  | either p q, s, t, marks => p.Takes s t marks ∨ q.Takes s t marks
  | capture i p, s, t, marks =>
    ∃ inner, p.Takes s t inner ∧ marks = (i, ⟨s.rest, t.rest⟩) :: inner
  | p, s, t, marks => p.Reads s t ∧ marks = []

theorem followRun_takes {p : Char → Bool} {next : Spot → Option Marks} {rest : List Char} :
    ∀ {least : Nat} {before : Option Char} {ms : Marks},
      followRun p next least before rest = some ms →
      ∃ t, (run p least).Reads ⟨before, rest⟩ t ∧ next t = some ms := by
  induction rest with
  | nil =>
      intro least before ms h
      rw [followRun] at h
      split at h
      · next h0 => exact ⟨_, ⟨[], by simp [h0], by simp, Spot.Passes.nil_iff.2 rfl⟩, h⟩
      · cases h
  | cons c rest ih =>
      intro least before ms h
      rw [followRun, Option.orElse_eq_orElse, Option.orElse_eq_or, Option.or_eq_some_iff] at h
      rcases h with h | ⟨-, h⟩
      · split at h
        · next hc =>
            obtain ⟨t, ⟨w, hw, hall, hp⟩, ht⟩ := ih h
            refine ⟨t, ⟨c :: w, ?_, ?_, Spot.Passes.cons_iff.2 ⟨rest, rfl, hp⟩⟩, ht⟩
            · rw [List.length_cons]
              omega
            · simpa [hc] using hall
        · cases h
      · split at h
        · next h0 => exact ⟨_, ⟨[], by simp [h0], by simp, Spot.Passes.nil_iff.2 rfl⟩, h⟩
        · cases h

theorem followLazyRun_takes {p : Char → Bool} {next : Spot → Option Marks} {rest : List Char} :
    ∀ {before : Option Char} {ms : Marks}, followLazyRun p next before rest = some ms →
      ∃ t, (lazyRun p).Reads ⟨before, rest⟩ t ∧ next t = some ms := by
  induction rest with
  | nil => exact fun h => ⟨_, ⟨[], by simp, Spot.Passes.nil_iff.2 rfl⟩, h⟩
  | cons c rest ih =>
      intro before ms h
      rw [followLazyRun, Option.orElse_eq_orElse, Option.orElse_eq_or, Option.or_eq_some_iff] at h
      rcases h with h | ⟨-, h⟩
      · exact ⟨_, ⟨[], by simp, Spot.Passes.nil_iff.2 rfl⟩, h⟩
      · split at h
        · next hc =>
            obtain ⟨t, ⟨w, hall, hp⟩, ht⟩ := ih h
            refine ⟨t, ⟨c :: w, by simpa [hc] using hall, ?_⟩, ht⟩
            exact Spot.Passes.cons_iff.2 ⟨rest, rfl, hp⟩
        · cases h

/-- What the search finds is a reading, whatever goes on after it. -/
theorem follow_takes {p : Pattern} {next : Spot → Marks → Option Marks} {s : Spot}
    {ms found : Marks} (h : p.follow next s ms = some found) :
    ∃ t marks, p.Takes s t marks ∧ next t (marks ++ ms) = some found := by
  induction p generalizing next s ms with
  | empty => exact ⟨s, [], ⟨rfl, rfl⟩, h⟩
  | one p =>
      obtain ⟨before, rest⟩ := s
      cases rest with
      | nil => cases h
      | cons c rest =>
          rw [follow] at h
          simp only [] at h
          split at h
          · next hc =>
              exact ⟨_, [], ⟨⟨c, hc, Spot.Passes.cons_iff.2 ⟨rest, rfl, Spot.Passes.nil_iff.2 rfl⟩⟩,
                rfl⟩, h⟩
          · cases h
  | lit text =>
      rw [follow] at h
      split at h
      · cases h
      · next t ht => exact ⟨t, [], ⟨afterText_eq_some_iff.1 ht, rfl⟩, h⟩
  | run p least =>
      obtain ⟨t, hr, ht⟩ := followRun_takes h
      exact ⟨t, [], ⟨hr, rfl⟩, ht⟩
  | lazyRun p =>
      obtain ⟨t, hr, ht⟩ := followLazyRun_takes h
      exact ⟨t, [], ⟨hr, rfl⟩, ht⟩
  | seq p q ihp ihq =>
      obtain ⟨m, older, hp, hm⟩ := ihp h
      obtain ⟨t, newer, hq, ht⟩ := ihq hm
      refine ⟨t, newer ++ older, ⟨m, older, newer, hp, hq, rfl⟩, ?_⟩
      rw [List.append_assoc]
      exact ht
  | either p q ihp ihq =>
      rw [follow, Option.orElse_eq_orElse, Option.orElse_eq_or, Option.or_eq_some_iff] at h
      rcases h with h | ⟨-, h⟩
      · obtain ⟨t, marks, hp, ht⟩ := ihp h
        exact ⟨t, marks, Or.inl hp, ht⟩
      · obtain ⟨t, marks, hq, ht⟩ := ihq h
        exact ⟨t, marks, Or.inr hq, ht⟩
  | capture i p ih =>
      obtain ⟨t, inner, hp, ht⟩ := ih h
      exact ⟨t, _, ⟨inner, hp, rfl⟩, ht⟩
  | notAhead p =>
      rw [follow] at h
      split at h
      · cases h
      · next hno =>
          refine ⟨s, [], ⟨⟨rfl, fun hr => hno ?_⟩, rfl⟩, h⟩
          exact (@follow_isSome p _ (fun _ => True) (by simp) s ms).2
            (hr.imp fun _ hr => ⟨hr, trivial⟩)
  | edge | stop =>
      rw [follow] at h
      split at h
      · next he => exact ⟨s, [], ⟨⟨rfl, he⟩, rfl⟩, h⟩
      · cases h

/-- The captures of a line are the marks of a reading from its start. -/
theorem read?_takes {p : Pattern} {line : String} {captures : Captures}
    (h : p.read? line = some captures) :
    ∃ t marks, p.Takes ⟨none, line.toList⟩ t marks ∧
      captures = (List.range p.captureCount).map fun i => (marks.lookup i).map Mark.text := by
  rw [read?, Option.map_eq_some_iff] at h
  obtain ⟨found, hf, rfl⟩ := h
  obtain ⟨t, marks, ht, hd⟩ := follow_takes hf
  rw [List.append_nil] at hd
  exact ⟨t, marks, ht, by rw [Option.some.inj hd]⟩

theorem Takes.reads {p : Pattern} {s t : Spot} {marks : Marks} (h : p.Takes s t marks) :
    p.Reads s t := by
  induction p generalizing s t marks with
  | seq p q ihp ihq =>
      obtain ⟨m, older, newer, hp, hq, -⟩ := h
      exact ⟨m, ihp hp, ihq hq⟩
  | either p q ihp ihq => exact h.imp ihp ihq
  | capture i p ih =>
      obtain ⟨inner, hp, -⟩ := h
      exact ih hp
  | empty | one | lit | run | lazyRun | notAhead | edge | stop => exact h.1

theorem Reads.suffix {p : Pattern} {s t : Spot} (h : p.Reads s t) : t.rest <:+ s.rest := by
  obtain ⟨w, hw⟩ := h.exists_passes
  exact ⟨w, hw.rest.symm⟩

/-- What a mark spans starts within the part of the line that was read. -/
theorem Takes.within {p : Pattern} {s t : Spot} {marks : Marks} (h : p.Takes s t marks) :
    ∀ m ∈ marks, m.2.start <:+ s.rest := by
  induction p generalizing s t marks with
  | seq p q ihp ihq =>
      obtain ⟨m, older, newer, hp, hq, rfl⟩ := h
      intro x hx
      rcases List.mem_append.1 hx with hx | hx
      · exact (ihq hq x hx).trans hp.reads.suffix
      · exact ihp hp x hx
  | either p q ihp ihq => exact h.elim (fun h => ihp h) fun h => ihq h
  | capture i p ih =>
      obtain ⟨inner, hp, rfl⟩ := h
      rintro x (_ | ⟨_, hx⟩)
      · exact List.suffix_refl _
      · exact ih hp x hx
  | empty | one | lit | run | lazyRun | notAhead | edge | stop =>
      rw [h.2]
      exact fun _ hx => absurd hx List.not_mem_nil

theorem mark_text_of_passes {s t : Spot} {w : List Char} (h : s.Passes w t) :
    Mark.text ⟨s.rest, t.rest⟩ = String.ofList w := by
  rw [Mark.text, h.rest]
  simp

/-- What a pattern captures is a part of the line. -/
theorem text_subset {p : Pattern} {line : String} {captures : Captures}
    (h : p.read? line = some captures) (i : Nat) :
    (captures.text i).toList ⊆ line.toList := by
  obtain ⟨t, marks, ht, rfl⟩ := read?_takes h
  rw [Captures.text]
  cases hi : ((List.range p.captureCount).map fun i => (marks.lookup i).map Mark.text)[i]? with
  | none => exact List.nil_subset _
  | some captured =>
      rw [List.getElem?_map, Option.map_eq_some_iff] at hi
      obtain ⟨j, -, rfl⟩ := hi
      cases hj : marks.lookup j with
      | none => exact List.nil_subset _
      | some m =>
          obtain ⟨pre, post, hsplit, -⟩ := List.lookup_eq_some_iff.1 hj
          have hm : (j, m) ∈ marks := by
            rw [hsplit]
            exact List.mem_append_right _ List.mem_cons_self
          show m.text.toList ⊆ _
          rw [Mark.text, String.toList_ofList]
          exact List.Subset.trans (List.take_subset _ _) (ht.within _ hm).subset

end Pattern

end DocComment
