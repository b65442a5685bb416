import DocComment.Proofs.Alike

/-!
# Prose under another bracket

Where an opening bracket in a page comes from cannot be read off the page. It can be read
off two pages: if every opening bracket of a text is turned around (`turn`) and the page
has its opening brackets where it had them, then none of them came from the text. This
file compares the prose of a text with the prose of the text so turned.

The escapes of the two brackets differ in one letter, `&lt;` and `&gt;`, and no mark of
the inline markup starts with either letter. So the two escaped texts are `Twins`, alike
but for those letters, and so is their prose (`twins_prose`).
-/

namespace DocComment.Html

open Text

/-- A character, an opening bracket turned around. -/
def turn (c : Char) : Char :=
  if c = '<' then '>' else c

/-- The same character, or the letters in which the escapes of the two brackets differ. -/
def Near (a b : Char) : Prop :=
  a = b ∨ a = 'l' ∧ b = 'g'

/-- Texts that are alike, character by character. -/
abbrev Twins : List Char → List Char → Prop :=
  List.Forall₂ Near

namespace Near

variable {a b : Char}

theorem refl (a : Char) : Near a a :=
  .inl rfl

theorem eq_iff (h : Near a b) {x : Char} (hl : x ≠ 'l') (hg : x ≠ 'g') : a = x ↔ b = x := by
  rcases h with rfl | ⟨rfl, rfl⟩
  · exact Iff.rfl
  · exact iff_of_false (Ne.symm hl) (Ne.symm hg)

end Near

namespace Twins

theorem refl (cs : List Char) : Twins cs cs :=
  List.forall₂_same.2 fun c _ => Near.refl c

theorem append {cs ds cs' ds' : List Char} (h : Twins cs ds) (h' : Twins cs' ds') :
    Twins (cs ++ cs') (ds ++ ds') :=
  List.rel_append h h'

end Twins

/-- What is written for each character of a text and of the text turned around. -/
theorem twins_flatMap {write : Char → List Char} (hw : Twins (write '<') (write '>'))
    (cs : List Char) : Twins (cs.flatMap write) ((cs.map turn).flatMap write) := by
  induction cs with
  | nil => exact .nil
  | cons c cs ih =>
      rw [List.map_cons, List.flatMap_cons, List.flatMap_cons]
      refine Twins.append ?_ ih
      by_cases hc : c = '<'
      · rw [hc]
        exact hw
      · rw [turn, if_neg hc]
        exact Twins.refl _

theorem twins_escaped : Twins "&lt;".toList "&gt;".toList :=
  .cons (.inl rfl) (.cons (.inr ⟨rfl, rfl⟩) (Twins.refl _))

theorem twins_escapeChars (cs : List Char) : Twins (escapeChars cs) (escapeChars (cs.map turn)) :=
  twins_flatMap twins_escaped cs

/-- The two letters, in the place of each other. -/
def TurnedLetter (b b' : List Char) : Prop :=
  b = ['l'] ∧ b' = ['g']

theorem twins_iff_alike {cs ds : List Char} : Twins cs ds ↔ Alike TurnedLetter cs ds := by
  constructor
  · intro h
    induction h with
    | nil => exact .nil
    | cons hc _ ih =>
        rcases hc with rfl | ⟨rfl, rfl⟩
        · exact .char _ ih
        · have hletter : TurnedLetter ['l'] ['g'] := ⟨rfl, rfl⟩
          exact .pair hletter ih
  · intro h
    induction h with
    | nil => exact .nil
    | char c _ ih => exact .cons (.refl c) ih
    | pair hb _ ih =>
        obtain ⟨rfl, rfl⟩ := hb
        exact .cons (.inr ⟨rfl, rfl⟩) ih

theorem unnoticed_turnedLetter : Unnoticed TurnedLetter := by
  refine .of_oneOf ["l", "g"] ?_ (by decide) (by decide) (by decide +kernel)
  rintro b ⟨b', ⟨rfl, -⟩ | ⟨-, rfl⟩⟩
  · exact ⟨"l", by decide, rfl⟩
  · exact ⟨"g", by decide, rfl⟩

/-- Prose of a text and of the same text with its opening brackets turned around. -/
theorem twins_prose {cs out : List Char} (h : proseChars cs = .ok out) :
    ∃ out', proseChars (cs.map turn) = .ok out' ∧ Twins out out' := by
  obtain ⟨out', hout', hrel⟩ :=
    alike_prose unnoticed_turnedLetter (twins_iff_alike.1 (twins_escapeChars cs)) h
  exact ⟨out', hout', twins_iff_alike.2 hrel⟩

end DocComment.Html
