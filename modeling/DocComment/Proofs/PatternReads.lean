import DocComment.Pattern.Class

/-!
# What a pattern can read

`Pattern.follow` is a search: it tries lengths in order and comes back. Whether it
succeeds does not depend on that order, and this file says what it depends on instead.
`Reads` relates two places of a line if the pattern can be read from the first to the
second, one clause for each constructor and no order anywhere; `follow_isSome` is the one
theorem that ties the search to it, and `accepts_iff` its reading for whole lines.

Everything that is said later about which rule takes which line goes through `Reads`,
where a line falls into the parts that the pattern names. What a rule captures does depend
on the order, and is not treated here.
-/

namespace DocComment

open Text

/-- From one place of a line to a later one, past the given characters. -/
structure Spot.Passes (s : Spot) (w : List Char) (t : Spot) : Prop where
  rest : s.rest = w ++ t.rest
  before : t.before = w.getLast?.or s.before

namespace Spot.Passes

theorem nil_iff {s t : Spot} : s.Passes [] t ↔ t = s := by
  constructor
  · rintro ⟨hr, hb⟩
    cases s
    cases t
    simp_all
  · rintro rfl
    exact ⟨rfl, rfl⟩

theorem cons_iff {s t : Spot} {c : Char} {w : List Char} :
    s.Passes (c :: w) t ↔ ∃ cs, s.rest = c :: cs ∧ Spot.Passes ⟨some c, cs⟩ w t := by
  have hlast : (c :: w).getLast?.or s.before = w.getLast?.or (some c) := by
    cases w <;> simp [List.getLast?_cons]
  constructor
  · rintro ⟨hr, hb⟩
    exact ⟨w ++ t.rest, hr, rfl, by rw [hb, hlast]⟩
  · rintro ⟨cs, hs, hr, hb⟩
    refine ⟨?_, ?_⟩
    · rw [hs, show cs = w ++ t.rest from hr, List.cons_append]
    · rw [hb, hlast]

end Spot.Passes

namespace Pattern

theorem afterText_eq_some_iff {ts : List Char} {s t : Spot} :
    afterText ts s = some t ↔ s.Passes ts t := by
  induction ts generalizing s with
  | nil =>
      rw [afterText, Spot.Passes.nil_iff, Option.some.injEq]
      exact eq_comm
  | cons c cs ih =>
      rw [Spot.Passes.cons_iff]
      obtain ⟨b, rest⟩ := s
      cases rest with
      | nil => simp [afterText]
      | cons d ds =>
          rw [afterText]
          by_cases hcd : c = d
          · subst hcd
            simp [ih]
          · rw [if_neg hcd]
            simp [Ne.symm hcd]

theorem followRun_isSome {p : Char → Bool} {next : Spot → Option Marks} {least : Nat}
    {before : Option Char} {rest : List Char} :
    (followRun p next least before rest).isSome ↔
      ∃ w t, least ≤ w.length ∧ (∀ c ∈ w, p c) ∧ Spot.Passes ⟨before, rest⟩ w t ∧
        (next t).isSome := by
  induction rest generalizing least before with
  | nil =>
      rw [followRun]
      constructor
      · intro h
        split at h
        · next h0 => exact ⟨[], _, by omega, by simp, Spot.Passes.nil_iff.2 rfl, h⟩
        · cases h
      · rintro ⟨w, t, hw, -, hp, ht⟩
        obtain rfl : w = [] := by
          have := hp.rest
          simp_all
        rw [Spot.Passes.nil_iff] at hp
        subst hp
        rw [if_pos (by simpa using hw)]
        exact ht
  | cons c cs ih =>
      rw [followRun, Option.orElse_eq_orElse, Option.orElse_eq_or, Option.isSome_or,
        Bool.or_eq_true]
      constructor
      · rintro (h | h)
        · split at h
          · next hc =>
              obtain ⟨w, t, hw, hall, hp, ht⟩ := ih.1 h
              refine ⟨c :: w, t, ?_, ?_, Spot.Passes.cons_iff.2 ⟨cs, rfl, hp⟩, ht⟩
              · rw [List.length_cons]
                omega
              · simpa [hc] using hall
          · cases h
        · split at h
          · next h0 => exact ⟨[], _, by omega, by simp, Spot.Passes.nil_iff.2 rfl, h⟩
          · cases h
      · rintro ⟨w, t, hw, hall, hp, ht⟩
        cases w with
        | nil =>
            rw [Spot.Passes.nil_iff] at hp
            subst hp
            right
            rw [if_pos (by simpa using hw)]
            exact ht
        | cons d ds =>
            obtain ⟨ds', hd, hp⟩ := Spot.Passes.cons_iff.1 hp
            obtain ⟨rfl, rfl⟩ : c = d ∧ cs = ds' := by simpa using hd
            left
            rw [if_pos (hall c (by simp))]
            refine ih.2 ⟨ds, t, ?_, fun x hx => hall x (by simp [hx]), hp, ht⟩
            rw [List.length_cons] at hw
            omega

theorem followLazyRun_isSome {p : Char → Bool} {next : Spot → Option Marks}
    {before : Option Char} {rest : List Char} :
    (followLazyRun p next before rest).isSome ↔
      ∃ w t, (∀ c ∈ w, p c) ∧ Spot.Passes ⟨before, rest⟩ w t ∧ (next t).isSome := by
  induction rest generalizing before with
  | nil =>
      rw [followLazyRun]
      constructor
      · exact fun h => ⟨[], _, by simp, Spot.Passes.nil_iff.2 rfl, h⟩
      · rintro ⟨w, t, -, hp, ht⟩
        obtain rfl : w = [] := by
          have := hp.rest
          simp_all
        rw [Spot.Passes.nil_iff] at hp
        subst hp
        exact ht
  | cons c cs ih =>
      rw [followLazyRun, Option.orElse_eq_orElse, Option.orElse_eq_or, Option.isSome_or,
        Bool.or_eq_true]
      constructor
      · rintro (h | h)
        · exact ⟨[], _, by simp, Spot.Passes.nil_iff.2 rfl, h⟩
        · split at h
          · next hc =>
              obtain ⟨w, t, hall, hp, ht⟩ := ih.1 h
              exact ⟨c :: w, t, by simpa [hc] using hall, Spot.Passes.cons_iff.2 ⟨cs, rfl, hp⟩, ht⟩
          · cases h
      · rintro ⟨w, t, hall, hp, ht⟩
        cases w with
        | nil =>
            rw [Spot.Passes.nil_iff] at hp
            subst hp
            exact Or.inl ht
        | cons d ds =>
            obtain ⟨ds', hd, hp⟩ := Spot.Passes.cons_iff.1 hp
            obtain ⟨rfl, rfl⟩ : c = d ∧ cs = ds' := by simpa using hd
            right
            rw [if_pos (hall c (by simp))]
            exact ih.2 ⟨ds, t, fun x hx => hall x (by simp [hx]), hp, ht⟩

/-- Whether a pattern can be read from one place of a line to another. -/
def Reads : Pattern → Spot → Spot → Prop
  | empty, s, t => t = s
  | one p, s, t => ∃ c, p c ∧ s.Passes [c] t
  | lit text, s, t => s.Passes text.toList t
  | run p least, s, t => ∃ w, least ≤ w.length ∧ (∀ c ∈ w, p c) ∧ s.Passes w t
  | lazyRun p, s, t => ∃ w, (∀ c ∈ w, p c) ∧ s.Passes w t
  | seq p q, s, t => ∃ m, p.Reads s m ∧ q.Reads m t
  | either p q, s, t => p.Reads s t ∨ q.Reads s t
  | capture _ p, s, t => p.Reads s t
  | notAhead p, s, t => t = s ∧ ¬ ∃ u, p.Reads s u
  | edge, s, t => t = s ∧ atEdge s
  | stop, s, t => t = s ∧ atStop s

/-- Every reading goes on from where it started. -/
theorem Reads.exists_passes {p : Pattern} {s t : Spot} (h : p.Reads s t) :
    ∃ w, s.Passes w t := by
  induction p generalizing s t with
  | empty => exact ⟨[], Spot.Passes.nil_iff.2 h⟩
  | one p => exact ⟨_, h.choose_spec.2⟩
  | lit text => exact ⟨_, h⟩
  | run p least => exact ⟨_, h.choose_spec.2.2⟩
  | lazyRun p => exact ⟨_, h.choose_spec.2⟩
  | seq p q ihp ihq =>
      obtain ⟨m, hp, hq⟩ := h
      obtain ⟨v, hv⟩ := ihp hp
      obtain ⟨w, hw⟩ := ihq hq
      refine ⟨v ++ w, ?_, ?_⟩
      · rw [hv.rest, hw.rest, List.append_assoc]
      · rw [hw.before, hv.before, List.getLast?_append, Option.or_assoc]
  | either p q ihp ihq => exact h.elim ihp ihq
  | capture i p ih => exact ih h
  | notAhead p => exact ⟨[], Spot.Passes.nil_iff.2 h.1⟩
  | edge => exact ⟨[], Spot.Passes.nil_iff.2 h.1⟩
  | stop => exact ⟨[], Spot.Passes.nil_iff.2 h.1⟩

/-- The search succeeds exactly if the pattern can be read to a place where the rest of it
goes on. What has been captured on the way must not matter to the rest. -/
theorem follow_isSome {p : Pattern} {next : Spot → Marks → Option Marks} {good : Spot → Prop}
    (hnext : ∀ t ms, (next t ms).isSome ↔ good t) (s : Spot) (ms : Marks) :
    (p.follow next s ms).isSome ↔ ∃ t, p.Reads s t ∧ good t := by
  induction p generalizing next good s ms with
  | empty => simp [follow, Reads, hnext]
  | one p =>
      obtain ⟨b, rest⟩ := s
      cases rest with
      | nil => simp [follow, Reads, Spot.Passes.cons_iff]
      | cons c cs =>
          simp only [follow, Reads, Spot.Passes.cons_iff, Spot.Passes.nil_iff]
          constructor
          · intro h
            split at h
            · next hc => exact ⟨_, ⟨c, hc, cs, rfl, rfl⟩, (hnext _ _).1 h⟩
            · cases h
          · rintro ⟨t, ⟨d, hd, ds, hs, rfl⟩, hg⟩
            obtain ⟨rfl, rfl⟩ : c = d ∧ cs = ds := by simpa using hs
            rw [if_pos hd]
            exact (hnext _ _).2 hg
  | lit text =>
      simp only [follow, Reads]
      cases h : afterText text.toList s with
      | none =>
          have hno : ∀ t, ¬ s.Passes text.toList t := fun t ht => by
            rw [← afterText_eq_some_iff, h] at ht
            cases ht
          simp [hno]
      | some t =>
          have ht := afterText_eq_some_iff.1 h
          constructor
          · exact fun hs => ⟨t, ht, (hnext _ _).1 hs⟩
          · rintro ⟨u, hu, hg⟩
            rw [← afterText_eq_some_iff, h, Option.some.injEq] at hu
            subst hu
            exact (hnext _ _).2 hg
  | run p least =>
      simp only [follow, Reads]
      rw [followRun_isSome]
      constructor
      · rintro ⟨w, t, hw, hall, hp, ht⟩
        exact ⟨t, ⟨w, hw, hall, hp⟩, (hnext _ _).1 ht⟩
      · rintro ⟨t, ⟨w, hw, hall, hp⟩, hg⟩
        exact ⟨w, t, hw, hall, hp, (hnext _ _).2 hg⟩
  | lazyRun p =>
      simp only [follow, Reads]
      rw [followLazyRun_isSome]
      constructor
      · rintro ⟨w, t, hall, hp, ht⟩
        exact ⟨t, ⟨w, hall, hp⟩, (hnext _ _).1 ht⟩
      · rintro ⟨t, ⟨w, hall, hp⟩, hg⟩
        exact ⟨w, t, hall, hp, (hnext _ _).2 hg⟩
  | seq p q ihp ihq =>
      simp only [follow, Reads]
      rw [@ihp _ (fun m => ∃ t, q.Reads m t ∧ good t) fun m ms => ihq hnext m ms]
      constructor
      · rintro ⟨m, hp, t, hq, hg⟩
        exact ⟨t, ⟨m, hp, hq⟩, hg⟩
      · rintro ⟨t, ⟨m, hp, hq⟩, hg⟩
        exact ⟨m, hp, t, hq, hg⟩
  | either p q ihp ihq =>
      simp only [follow, Reads]
      rw [Option.orElse_eq_orElse, Option.orElse_eq_or, Option.isSome_or, Bool.or_eq_true,
        ihp hnext, ihq hnext]
      constructor
      · rintro (⟨t, h, hg⟩ | ⟨t, h, hg⟩)
        · exact ⟨t, Or.inl h, hg⟩
        · exact ⟨t, Or.inr h, hg⟩
      · rintro ⟨t, h | h, hg⟩
        · exact Or.inl ⟨t, h, hg⟩
        · exact Or.inr ⟨t, h, hg⟩
  | capture i p ih =>
      simp only [follow, Reads]
      exact ih (fun t ms => hnext t _) s ms
  | notAhead p ih =>
      simp only [follow, Reads]
      have hp := @ih (fun _ ms => some ms) (fun _ => True) (by simp) s ms
      simp only [and_true] at hp
      by_cases h : ∃ t, p.Reads s t
      · rw [if_pos (hp.2 h)]
        simp [h]
      · rw [if_neg (mt hp.1 h), hnext]
        simp [h]
  | edge =>
      simp only [follow, Reads]
      by_cases h : atEdge s <;> simp [h, hnext]
  | stop =>
      simp only [follow, Reads]
      by_cases h : atStop s <;> simp [h, hnext]

theorem accepts_iff {p : Pattern} {line : String} :
    p.accepts line ↔ ∃ t, p.Reads ⟨none, line.toList⟩ t := by
  rw [accepts, read?, Option.isSome_map, @follow_isSome p _ (fun _ => True) (by simp)]
  simp

theorem accepts_of_read {p : Pattern} {line : String} {captures : Captures}
    (h : p.read? line = some captures) : p.accepts line := by
  rw [accepts, h]
  rfl

theorem read?_eq_none_iff {p : Pattern} {line : String} :
    p.read? line = none ↔ ¬ p.accepts line := by
  rw [accepts, Option.not_isSome_iff_eq_none]

end Pattern

end DocComment
