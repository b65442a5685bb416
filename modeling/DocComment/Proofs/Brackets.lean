import DocComment.Proofs.ProseTags
import DocComment.Proofs.Twins

/-!
# Whose brackets

Two things can be observed of the opening brackets of a text. They start tags
(`opensOnly`), and they are in certain places (`openings`). If a text is written once with
the brackets of its source as they are and once with them turned around, the brackets that
do not stay in their places came from the source.

`Compared` compares two such texts from left to right and counts the brackets that were
turned around. `Compared.own_iff` is what it is for: none was if and only if all brackets
of the first text start tags and stay in their places.
-/

namespace DocComment.Html

open Text

/-! ## Opening brackets -/

/-- Where the opening brackets of a text are. -/
def openings (cs : List Char) : List Bool :=
  cs.map (· = '<')

/-- Whether every opening bracket of a text is the first character of one of the tags. -/
def opensOnly (tags : List String) : List Char → Bool
  | [] => true
  | c :: cs =>
    (c ≠ '<' || tags.any fun t => (after? t.toList (c :: cs)).isSome) && opensOnly tags cs

theorem openings_append (u v : List Char) : openings (u ++ v) = openings u ++ openings v :=
  List.map_append

theorem Twins.openings_eq {cs ds : List Char} (h : Twins cs ds) : openings cs = openings ds := by
  induction h with
  | nil => rfl
  | @cons c d cs ds hc _ ih =>
      have hopen : c = '<' ↔ d = '<' := hc.eq_iff (by decide) (by decide)
      show decide (c = '<') :: openings cs = decide (d = '<') :: openings ds
      rw [ih, decide_eq_decide.2 hopen]

/-- Tags have an opening bracket in the first place and no other. -/
def BracketFirst (tags : List String) : Prop :=
  ∀ t ∈ tags, t.toList = '<' :: t.toList.tail ∧ '<' ∉ t.toList.tail

instance (tags : List String) : Decidable (BracketFirst tags) :=
  inferInstanceAs (Decidable (∀ t ∈ tags, _))

section

variable {tags : List String}

theorem opensOnly_of_not_mem {u v : List Char} (hu : '<' ∉ u) (hv : opensOnly tags v) :
    opensOnly tags (u ++ v) := by
  induction u with
  | nil => exact hv
  | cons c u ih =>
      rw [List.mem_cons, not_or] at hu
      rw [List.cons_append, opensOnly, ih hu.2]
      simp [Ne.symm hu.1]

theorem opensOnly_tag (htags : BracketFirst tags) {t : String} (ht : t ∈ tags) {u : List Char}
    (hu : opensOnly tags u) : opensOnly tags (t.toList ++ u) := by
  obtain ⟨hw, hin⟩ := htags t ht
  have hany : tags.any fun t' => (after? t'.toList (t.toList ++ u)).isSome := by
    refine List.any_eq_true.2 ⟨t, ht, ?_⟩
    rw [after?_eq_some_iff.2 rfl]
    rfl
  rw [hw, List.cons_append] at hany
  rw [hw, List.cons_append, opensOnly, hany, opensOnly_of_not_mem hin hu]
  simp

theorem opensOnly_of_append {u v : List Char} (h : opensOnly tags (u ++ v)) : opensOnly tags v := by
  induction u with
  | nil => exact h
  | cons c u ih =>
      rw [List.cons_append, opensOnly, Bool.and_eq_true] at h
      exact ih h.2

end

/-! ## Pages compared -/

/-- Two texts compared from left to right. They have the same tags, and elsewhere
characters that open none; but some opening brackets of the first, as many as it says, are
turned around in the second. -/
inductive Compared (tags : List String) : Nat → List Char → List Char → Prop where
  | nil : Compared tags 0 [] []
  | char {n : Nat} {a b : Char} {u v : List Char} (ha : a ≠ '<') (hb : b ≠ '<')
      (h : Compared tags n u v) : Compared tags n (a :: u) (b :: v)
  | tag {n : Nat} {t : String} {w u v : List Char} (ht : t ∈ tags)
      (hw : openings t.toList = openings w) (h : Compared tags n u v) :
      Compared tags n (t.toList ++ u) (w ++ v)
  | bare {n : Nat} {u v : List Char} (h : Compared tags n u v) :
      Compared tags (n + 1) ('<' :: u) ('>' :: v)

namespace Compared

variable {tags : List String} {n m : Nat} {u v u' v' : List Char}

theorem append (h : Compared tags n u v) (h' : Compared tags m u' v') :
    Compared tags (n + m) (u ++ u') (v ++ v') := by
  induction h with
  | nil => simpa using h'
  | char ha hb _ ih => exact .char ha hb ih
  | tag ht hw _ ih =>
      rw [List.append_assoc, List.append_assoc]
      exact .tag ht hw ih
  | @bare n _ _ _ ih =>
      rw [show n + 1 + m = n + m + 1 by omega]
      exact .bare ih

theorem of_not_mem (hu : '<' ∉ u) (hv : '<' ∉ v) (hlen : u.length = v.length) :
    Compared tags 0 u v := by
  induction u generalizing v with
  | nil =>
      rw [List.length_nil] at hlen
      rw [List.length_eq_zero_iff.1 hlen.symm]
      exact .nil
  | cons a u ih =>
      cases v with
      | nil => cases hlen
      | cons b v =>
          rw [List.mem_cons, not_or] at hu hv
          exact .char (Ne.symm hu.1) (Ne.symm hv.1) (ih hu.2 hv.2 (Nat.succ.inj hlen))

theorem of_opensOnly (htags : BracketFirst tags) (h : opensOnly tags u) :
    Compared tags 0 u u := by
  induction hn : u.length using Nat.strongRecOn generalizing u with
  | ind n ih =>
    cases u with
    | nil => exact .nil
    | cons c u =>
        by_cases hc : c = '<'
        · rw [opensOnly, Bool.and_eq_true, Bool.or_eq_true] at h
          obtain ⟨t, ht, hafter⟩ := List.any_eq_true.1 (h.1.resolve_left (by simp [hc]))
          obtain ⟨rest, hrest⟩ := Option.isSome_iff_exists.1 hafter
          have hcut : c :: u = t.toList ++ rest := after?_eq_some_iff.1 hrest
          rw [hcut]
          refine .tag ht rfl (ih rest.length ?_ ?_ rfl)
          · rw [← hn, hcut, (htags t ht).1, List.cons_append, List.length_cons, List.length_append]
            omega
          · refine opensOnly_of_append (u := t.toList) ?_
            rw [← hcut, opensOnly, Bool.and_eq_true, Bool.or_eq_true]
            exact h
        · refine .char hc hc (ih u.length ?_ (opensOnly_of_append (u := [c]) h) rfl)
          rw [← hn, List.length_cons]
          omega

/-- What is made of tags, and a twin of it. -/
theorem of_tagged (hu : Tagged tags u) (h : Twins u v) : Compared tags 0 u v := by
  induction hu generalizing v with
  | nil =>
      cases h
      exact .nil
  | char hc _ ih =>
      cases h with
      | cons hcd hrest =>
          have hd := mt (hcd.eq_iff (by decide) (by decide)).2 hc
          exact .char hc hd (ih hrest)
  | @tag t cs ht _ ih =>
      have hw := List.forall₂_take t.toList.length h
      have hrest := List.forall₂_drop t.toList.length h
      rw [List.take_left] at hw
      rw [List.drop_left] at hrest
      rw [← List.take_append_drop t.toList.length v]
      exact .tag ht (Twins.openings_eq hw) (ih hrest)

theorem openings_eq (h : Compared tags 0 u v) : openings u = openings v := by
  generalize hn : 0 = n at h
  induction h with
  | nil => rfl
  | @char _ a b u v ha hb _ ih =>
      show decide (a = '<') :: openings u = decide (b = '<') :: openings v
      rw [ih hn, decide_eq_false ha, decide_eq_false hb]
  | tag _ hw _ ih => rw [openings_append, openings_append, hw, ih hn]
  | bare _ _ => cases hn

theorem opensOnly (htags : BracketFirst tags) (h : Compared tags 0 u v) : opensOnly tags u := by
  generalize hn : 0 = n at h
  induction h with
  | nil => rfl
  | @char _ a b u v ha _ _ ih =>
      refine opensOnly_of_not_mem (u := [a]) ?_ (ih hn)
      rw [List.mem_singleton]
      exact Ne.symm ha
  | tag ht _ _ ih => exact opensOnly_tag htags ht (ih hn)
  | bare _ _ => cases hn

/-- The brackets that are turned around are those that the second text has not. -/
theorem count_eq (h : Compared tags n u v) :
    (openings u).count true = (openings v).count true + n := by
  induction h with
  | nil => rfl
  | @char _ a b u v ha hb _ ih =>
      show (decide (a = '<') :: openings u).count true =
        (decide (b = '<') :: openings v).count true + _
      rw [decide_eq_false ha, decide_eq_false hb, List.count_cons_of_ne (by decide),
        List.count_cons_of_ne (by decide), ih]
  | tag _ hw _ ih =>
      rw [openings_append, openings_append, List.count_append, List.count_append, hw, ih]
      omega
  | @bare _ u v _ ih =>
      show (true :: openings u).count true = (false :: openings v).count true + _
      rw [List.count_cons_self, List.count_cons_of_ne (by decide), ih]
      omega

/-- The brackets of the first text start tags and stay in their places if and only if none
of them is turned around. -/
theorem own_iff (htags : BracketFirst tags) (h : Compared tags n u v) :
    (Html.opensOnly tags u ∧ openings u = openings v) ↔ n = 0 := by
  constructor
  · intro ⟨_, hsame⟩
    have hcount := h.count_eq
    rw [hsame] at hcount
    omega
  · intro hn
    subst hn
    exact ⟨h.opensOnly htags, h.openings_eq⟩

end Compared

end DocComment.Html
