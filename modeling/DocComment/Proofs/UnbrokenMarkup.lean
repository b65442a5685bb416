import DocComment.Proofs.Alike
import DocComment.Proofs.ProseGrammar

/-!
# Markup in one piece

In the prose of a page every angle bracket belongs to a tag, and every ampersand starts an
entity (`Unbroken`). Prose is made of these (`illustrated_prose`), so it is enough to look
at them one by one: what is asked of a place in a text looks at what stands before it or
after it, and is not lost when the text goes on in either direction (`Everywhere.append`).

That the brackets are those of tags says nothing about who wrote the tags. So the text is
compared with the text that has question marks for its brackets and ampersands: the prose
of the two is the same but for the entities that stand for the question marks
(`prose_unbroken`).
-/

namespace DocComment.Html

open Text

/-! ## Places of a text -/

/-- What holds of every place of a text where the character stands: of what is before it
and of what is after it. -/
def Everywhere (c : Char) (P : List Char → List Char → Prop) (cs : List Char) : Prop :=
  ∀ u v, cs = u ++ c :: v → P u v

/-- What holds of a place still holds of it as a place of a longer text. -/
def Lasting (P : List Char → List Char → Prop) : Prop :=
  ∀ w w' u v, P u v → P (w ++ u) (v ++ w')

namespace Everywhere

variable {c : Char} {P : List Char → List Char → Prop}

theorem of_not_mem {cs : List Char} (h : c ∉ cs) : Everywhere c P cs := by
  rintro u v rfl
  exact absurd (List.mem_append_right u List.mem_cons_self) h

theorem mono {Q : List Char → List Char → Prop} (hPQ : ∀ u v, P u v → Q u v) {cs : List Char}
    (h : Everywhere c P cs) : Everywhere c Q cs :=
  fun u v huv => hPQ u v (h u v huv)

theorem append (hP : Lasting P) {a b : List Char} (ha : Everywhere c P a) (hb : Everywhere c P b) :
    Everywhere c P (a ++ b) := by
  intro u v h
  rcases List.append_eq_append_iff.1 h with ⟨w, rfl, hw⟩ | ⟨w, rfl, hw⟩
  · simpa using hP a [] _ _ (hb w v hw)
  · cases w with
    | nil => simpa using hP u [] _ _ (hb [] v hw.symm)
    | cons d w =>
        obtain ⟨rfl, rfl⟩ := List.cons.inj hw
        exact hP [] b _ _ (ha u w rfl)

/-- A character that stands nowhere but at the start of a text. -/
theorem of_start {w : List Char} (hw : c ∉ w) (h : P [] w) : Everywhere c P (c :: w) := by
  intro u v huv
  cases u with
  | nil =>
      obtain ⟨-, rfl⟩ := List.cons.inj huv
      exact h
  | cons d u =>
      obtain ⟨-, rfl⟩ := List.cons.inj huv
      exact absurd (List.mem_append_right u List.mem_cons_self) hw

/-- One more place, at the end of a text. -/
theorem concat (hP : Lasting P) {w : List Char} (hw : Everywhere c P w) (h : P w []) :
    Everywhere c P (w ++ [c]) := by
  intro u v huv
  rcases List.append_eq_append_iff.1 huv with ⟨w', rfl, hw'⟩ | ⟨w', rfl, hw'⟩
  · cases w' with
    | nil =>
        obtain ⟨-, rfl⟩ := List.cons.inj hw'
        simpa using h
    | cons d w' =>
        obtain ⟨-, hnil⟩ := List.cons.inj hw'
        simp at hnil
  · cases w' with
    | nil =>
        obtain ⟨-, rfl⟩ := List.cons.inj hw'
        simpa using h
    | cons d w' =>
        obtain ⟨rfl, rfl⟩ := List.cons.inj hw'
        exact hP [] [c] _ _ (hw u w' rfl)

theorem composed (hP : Lasting P) (hplain : ¬ Literal c)
    (htoken : ∀ t ∈ proseTokens, Everywhere c P t.toList) {cs : List Char} (h : Composed cs) :
    Everywhere c P cs := by
  induction h with
  | nil => exact of_not_mem List.not_mem_nil
  | @char d cs hd _ ih =>
      have hdc : c ∉ [d] := fun hmem => hplain (List.mem_singleton.1 hmem ▸ hd)
      exact append hP (of_not_mem hdc) ih
  | block hb _ ih =>
      obtain ⟨t, ht, rfl⟩ := hb
      exact append hP (htoken t ht) ih

theorem illustrated (hP : Lasting P) (hcomposed : ∀ {cs}, Composed cs → Everywhere c P cs)
    {images : List (List Char × List Char)} (himage : ∀ image ∈ images, Composed image.1 →
      Composed image.2 → Everywhere c P (imageElement image)) {cs : List Char}
    (h : Illustrated images cs) : Everywhere c P cs := by
  induction h with
  | text hu => exact hcomposed hu
  | image hu halt hsource _ ih =>
      rw [List.forall_mem_cons] at himage
      exact append hP (hcomposed hu) (append hP (himage.1 halt hsource) (ih himage.2))

end Everywhere

/-! ## Brackets and ampersands -/

/-- What opens a tag of prose: a tag without attributes, or the start of an image. -/
def proseStarts : List String :=
  elementTags ++ ["<img alt='"]

/-- What closes with a bracket: a tag without attributes, or an image. -/
inductive Closes : List Char → Prop where
  | tag {t : String} (ht : t ∈ elementTags) : Closes t.toList
  | image {alt source : List Char} (halt : Composed alt) (hsource : Composed source) :
      Closes (imageElement (alt, source))

/-- A text whose tags and entities are in one piece: an opening bracket starts a tag, a
closing bracket ends one, and an ampersand starts an entity. -/
structure Unbroken (cs : List Char) : Prop where
  opens : Everywhere '<' (fun _ v => ∃ t ∈ proseStarts, t.toList <+: '<' :: v) cs
  closes : Everywhere '>' (fun u _ => ∃ b, Closes b ∧ b <:+ u ++ ['>']) cs
  refers : Everywhere '&' (fun _ v => ∃ t ∈ entities, t.toList <+: '&' :: v) cs

theorem lasting_after (c : Char) (texts : List String) :
    Lasting fun _ v => ∃ t ∈ texts, t.toList <+: c :: v := by
  rintro w w' u v ⟨t, ht, hprefix⟩
  exact ⟨t, ht, hprefix.trans ⟨w', rfl⟩⟩

theorem lasting_before (c : Char) (Q : List Char → Prop) :
    Lasting fun u _ => ∃ b, Q b ∧ b <:+ u ++ [c] := by
  rintro w w' u v ⟨b, hb, hsuffix⟩
  refine ⟨b, hb, hsuffix.trans ⟨w, ?_⟩⟩
  rw [List.append_assoc]

/-! ### Tokens -/

theorem everywhere_start {c : Char} {texts : List String} {t : String}
    (h : c ∉ t.toList ∨ t ∈ texts ∧ t.toList.head? = some c ∧ c ∉ t.toList.tail) :
    Everywhere c (fun _ v => ∃ t ∈ texts, t.toList <+: c :: v) t.toList := by
  rcases h with hplain | ⟨ht, hhead, htail⟩
  · exact .of_not_mem hplain
  · obtain ⟨w, hw⟩ : ∃ w, t.toList = c :: w := List.head?_eq_some_iff.1 hhead
    rw [hw] at htail ⊢
    exact .of_start htail ⟨t, ht, hw ▸ List.prefix_refl _⟩

theorem everywhere_end {c : Char} {texts : List String} {t : String}
    (h : c ∉ t.toList ∨ t ∈ texts ∧ t.toList.getLast? = some c ∧ c ∉ t.toList.dropLast) :
    Everywhere c (fun u _ => ∃ b, OneOf texts b ∧ b <:+ u ++ [c]) t.toList := by
  rcases h with hplain | ⟨ht, hlast, hfront⟩
  · exact .of_not_mem hplain
  · have hw : t.toList.dropLast ++ [c] = t.toList := List.dropLast_append_getLast? c hlast
    have hplace := Everywhere.concat (lasting_before c (OneOf texts)) (.of_not_mem hfront)
      ⟨t.toList, ⟨t, ht, rfl⟩, [], hw.symm⟩
    rwa [hw] at hplace

section

variable {cs : List Char} (h : Composed cs)

include h

theorem composed_opens :
    Everywhere '<' (fun _ v => ∃ t ∈ elementTags, t.toList <+: '<' :: v) cs := by
  have htoken : ∀ t ∈ proseTokens, '<' ∉ t.toList ∨
      t ∈ elementTags ∧ t.toList.head? = some '<' ∧ '<' ∉ t.toList.tail := by decide
  exact .composed (lasting_after '<' _) (by decide) (fun t ht => everywhere_start (htoken t ht)) h

theorem composed_closes :
    Everywhere '>' (fun u _ => ∃ b, OneOf elementTags b ∧ b <:+ u ++ ['>']) cs := by
  have htoken : ∀ t ∈ proseTokens, '>' ∉ t.toList ∨
      t ∈ elementTags ∧ t.toList.getLast? = some '>' ∧ '>' ∉ t.toList.dropLast := by decide
  exact .composed (lasting_before '>' _) (by decide) (fun t ht => everywhere_end (htoken t ht)) h

theorem composed_refers :
    Everywhere '&' (fun _ v => ∃ t ∈ entities, t.toList <+: '&' :: v) cs := by
  have htoken : ∀ t ∈ proseTokens, '&' ∉ t.toList ∨
      t ∈ entities ∧ t.toList.head? = some '&' ∧ '&' ∉ t.toList.tail := by decide
  exact .composed (lasting_after '&' _) (by decide) (fun t ht => everywhere_start (htoken t ht)) h

theorem unbroken_composed : Unbroken cs where
  opens := (composed_opens h).mono fun _ _ ⟨t, ht, hprefix⟩ =>
    ⟨t, List.mem_append_left _ ht, hprefix⟩
  closes := (composed_closes h).mono fun _ _ ⟨b, ⟨_, ht, hb⟩, hsuffix⟩ =>
    ⟨b, hb ▸ .tag ht, hsuffix⟩
  refers := composed_refers h

end

/-! ### Images -/

/-- An image ends with its only bracket that is not one of its texts. -/
theorem imageElement_eq_concat (image : List Char × List Char) :
    imageElement image = ("<img alt='".toList ++ (image.1 ++ ("' src='".toList ++
      (image.2 ++ "'/".toList)))) ++ ['>'] := by
  have hassoc (a b c d e f : List Char) :
      a ++ (b ++ (c ++ (d ++ (e ++ f)))) = (a ++ (b ++ (c ++ (d ++ e)))) ++ f := by
    simp only [List.append_assoc]
  exact hassoc _ _ _ _ "'/".toList ['>']

theorem Everywhere.framed {c : Char} {P : List Char → List Char → Prop} (hP : Lasting P)
    {a alt b source z : List Char} (ha : Everywhere c P a) (halt : Everywhere c P alt)
    (hb : c ∉ b) (hsource : Everywhere c P source) (hz : c ∉ z) :
    Everywhere c P (a ++ (alt ++ (b ++ (source ++ z)))) :=
  ha.append hP (halt.append hP ((of_not_mem hb).append hP (hsource.append hP (of_not_mem hz))))

theorem unbroken_imageElement {alt source : List Char} (halt : Composed alt)
    (hsource : Composed source) : Unbroken (imageElement (alt, source)) where
  opens := .framed (lasting_after '<' _) (everywhere_start (t := "<img alt='") (by decide))
    (unbroken_composed halt).opens (by decide) (unbroken_composed hsource).opens (by decide)
  closes := by
    have hend := imageElement_eq_concat (alt, source)
    rw [hend]
    refine .concat (lasting_before '>' _) ?_ ⟨_, .image halt hsource, hend ▸ List.suffix_rfl⟩
    exact .framed (lasting_before '>' _) (.of_not_mem (by decide)) (unbroken_composed halt).closes
      (by decide) (unbroken_composed hsource).closes (by decide)
  refers := .framed (lasting_after '&' _) (.of_not_mem (by decide))
    (unbroken_composed halt).refers (by decide) (unbroken_composed hsource).refers (by decide)

/-- Prose has its tags and entities in one piece. -/
theorem Illustrated.unbroken {images : List (List Char × List Char)} {cs : List Char}
    (h : Illustrated images cs) : Unbroken cs where
  opens := .illustrated (lasting_after '<' _) (fun hu => (unbroken_composed hu).opens)
    (fun _ _ halt hsource => (unbroken_imageElement halt hsource).opens) h
  closes := .illustrated (lasting_before '>' _) (fun hu => (unbroken_composed hu).closes)
    (fun _ _ halt hsource => (unbroken_imageElement halt hsource).closes) h
  refers := .illustrated (lasting_after '&' _) (fun hu => (unbroken_composed hu).refers)
    (fun _ _ halt hsource => (unbroken_imageElement halt hsource).refers) h

/-! ## What the text brings -/

/-- A character, with a question mark in the place of an angle bracket or an ampersand. -/
def mask (c : Char) : Char :=
  if Literal c then c else '?'

/-- A text without angle brackets and ampersands. -/
def maskText (s : String) : String :=
  s.map mask

/-- The entity of an escaped character, and a question mark. -/
def Masked (b b' : List Char) : Prop :=
  OneOf ["&amp;", "&lt;", "&gt;"] b ∧ b' = ['?']

theorem unnoticed_masked : Unnoticed Masked := by
  refine .of_oneOf ["&amp;", "&lt;", "&gt;", "?"] ?_ (by decide) (by decide) (by decide +kernel)
  rintro b ⟨b', ⟨⟨t, ht, rfl⟩, -⟩ | ⟨-, rfl⟩⟩
  · exact ⟨t, List.mem_append_left ["?"] ht, rfl⟩
  · exact ⟨"?", by decide, rfl⟩

theorem alike_escapeContent (c : Char) :
    Alike Masked (escapeContent c) (escapeContent (mask c)) := by
  by_cases hc : Literal c
  · rw [mask, if_pos hc]
    exact .refl _
  · have hentity : OneOf ["&amp;", "&lt;", "&gt;"] (escapeContent c) := by
      unfold escapeContent
      split
      · exact ⟨"&amp;", by decide, rfl⟩
      · next hamp =>
          split
          · exact ⟨"&lt;", by decide, rfl⟩
          · next hlt =>
              split
              · exact ⟨"&gt;", by decide, rfl⟩
              · next hgt => exact absurd ⟨hlt, hgt, hamp⟩ hc
    rw [mask, if_neg hc]
    exact .single ⟨hentity, rfl⟩

theorem alike_escapeChars (cs : List Char) :
    Alike Masked (escapeChars cs) (escapeChars (cs.map mask)) := by
  induction cs with
  | nil => exact .nil
  | cons c cs ih => exact (alike_escapeContent c).append ih

/-- In the prose of a text every angle bracket and every ampersand is one of a tag or an
entity, and none of them comes from the text: with question marks in their place the text
has the same prose, but for question marks in the place of the entities that stand for
them. -/
theorem prose_unbroken {s out : String} (h : prose s = .ok out) :
    Unbroken out.toList ∧
      ∃ out', prose (maskText s) = .ok out' ∧ Alike Masked out.toList out'.toList := by
  obtain ⟨cs, hcs, hout⟩ := ok_of_bind h
  obtain rfl : String.ofList cs = out := Except.ok.inj hout
  obtain ⟨cs', hcs', halike⟩ := alike_prose unnoticed_masked (alike_escapeChars s.toList) hcs
  rw [String.toList_ofList]
  refine ⟨(illustrated_prose hcs).unbroken, String.ofList cs', ?_, ?_⟩
  · rw [prose, maskText, String.toList_map, hcs']
    rfl
  · rw [String.toList_ofList]
    exact halike

/-- Code, strong text and an image with a bracket, an ampersand and a quote. -/
theorem prose_unbroken_sample :
    prose "\x60<\x60 & *a* ![it's](>)" = .ok
        "<code>&lt;</code> &amp; <strong>a</strong> <img alt='it&#x27;s' src='&gt;'/>" ∧
      Unbroken
        "<code>&lt;</code> &amp; <strong>a</strong> <img alt='it&#x27;s' src='&gt;'/>".toList ∧
      ∃ out', prose "\x60?\x60 ? *a* ![it's](?)" = .ok out' ∧ Alike Masked
        "<code>&lt;</code> &amp; <strong>a</strong> <img alt='it&#x27;s' src='&gt;'/>".toList
        out'.toList := by
  have hprose : prose "\x60<\x60 & *a* ![it's](>)" = .ok
      "<code>&lt;</code> &amp; <strong>a</strong> <img alt='it&#x27;s' src='&gt;'/>" := by
    decide +kernel
  have hmask : maskText "\x60<\x60 & *a* ![it's](>)" = "\x60?\x60 ? *a* ![it's](?)" := by
    decide +kernel
  exact ⟨hprose, hmask ▸ prose_unbroken hprose⟩

end DocComment.Html
