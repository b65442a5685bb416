import DocComment.Proofs.Blocks

/-!
# What prose is made of

Prose is escaped and then marked up step by step, and each step works on the text that the
last one left, with its escapes, its tags and what stands for the shelf. What comes out
has a grammar all the same. It is made of tokens, which are the tags of elements and the
entities of escaped characters, each in one piece, and of characters that mean nothing in
a page (`Composed`); and in between it has images, whose texts are made in the same way
(`Illustrated`).

No token holds a character of a mark or a NUL character, so the steps never cut a token.
Images are different, as they take in pieces of the text with placeholders and all. But an
image is written with characters that stand in no placeholder, so what is brought back
into it stays in it (`broughtBack_append`).
-/

namespace DocComment.Html

open Text

/-! ## Tokens -/

/-- The tags of emphasis. -/
def emphasisTags : List String :=
  ["<strong>", "</strong>", "<em>", "</em>"]

/-- The tags of elements without attributes. -/
def elementTags : List String :=
  emphasisTags ++ ["<code>", "</code>"]

/-- What is written for a character that means something in a page. -/
def entities : List String :=
  ["&amp;", "&lt;", "&gt;", "&#x27;"]

/-- The tags and entities of prose. -/
def proseTokens : List String :=
  elementTags ++ entities

/-- A character that means nothing in a page but itself. -/
def Literal (c : Char) : Prop :=
  c ≠ '<' ∧ c ≠ '>' ∧ c ≠ '&'

instance : DecidablePred Literal :=
  fun _ => inferInstanceAs (Decidable (_ ∧ _ ∧ _))

/-- Texts of the tokens of prose and of characters that mean nothing but themselves. -/
abbrev Composed : List Char → Prop :=
  Blocks Literal (OneOf proseTokens)

theorem composed_token {t : String} (ht : t ∈ proseTokens) : Composed t.toList :=
  .single ⟨t, ht, rfl⟩

theorem composed_element {tag : String} (ho : "<" ++ tag ++ ">" ∈ proseTokens)
    (hc : "</" ++ tag ++ ">" ∈ proseTokens) {cs : List Char} (h : Composed cs) :
    Composed (element tag cs) :=
  ((composed_token ho).append h).append (composed_token hc)

theorem firm_proseTokens : Firm Literal (OneOf proseTokens) where
  start := fun _ => ne_nil_of_oneOf (by decide)
  apart := Outside.apart (by decide)
  space := by decide
  tags := fun tag ht => by
    have htags : ∀ tag ∈ ["strong", "em"], "<" ++ tag ++ ">" ∈ proseTokens ∧
        "</" ++ tag ++ ">" ∈ proseTokens := by decide
    exact ⟨composed_token (htags tag ht).1, composed_token (htags tag ht).2⟩

/-! ## Escapes and the shelf -/

theorem composed_escapeChars (cs : List Char) : Composed (escapeChars cs) := by
  induction cs with
  | nil => exact .nil
  | cons c cs ih =>
      rw [escapeChars, List.flatMap_cons]
      refine Blocks.append ?_ ih
      unfold escapeContent
      split
      · exact composed_token (t := "&amp;") (by decide)
      · next hamp =>
          split
          · exact composed_token (t := "&lt;") (by decide)
          · next hlt =>
              split
              · exact composed_token (t := "&gt;") (by decide)
              · next hgt => exact .char ⟨hlt, hgt, hamp⟩ .nil

theorem toList_toString (k : Nat) : (toString k).toList = Nat.toDigits 10 k := by
  rw [Nat.toString_eq_ofList_toDigits, String.toList_ofList]

theorem isDigit_of_mem {k : Nat} {c : Char} (h : c ∈ (toString k).toList) : c.isDigit := by
  rw [toList_toString] at h
  exact Nat.isDigit_of_mem_toDigits (by decide) (by decide) h

/-- A placeholder is made of NUL characters and digits. -/
theorem mem_placeholder {n : Nat} {c : Char} (h : c ∈ placeholder n) : c = '\x00' ∨ c.isDigit := by
  rw [placeholder, List.cons_append, List.mem_cons, List.mem_append, List.mem_singleton] at h
  rcases h with h | h | h
  · exact Or.inl h
  · exact Or.inr (isDigit_of_mem h)
  · exact Or.inl h

theorem composed_placeholder (n : Nat) : Composed (placeholder n) := by
  refine .of_plain fun c hc => ?_
  rcases mem_placeholder hc with rfl | hdigit
  · decide
  · refine ⟨?_, ?_, ?_⟩
    all_goals
      rintro rfl
      cases hdigit

/-- What goes on the shelf is wrapped, and what is left of the text has placeholders. -/
theorem blocks_shelve {plain : Char → Prop} {block block' mark : List Char → Prop}
    {wrap : List Char → List Char} (hplaceholder : ∀ n, Blocks plain block (placeholder n))
    (hwrap : ∀ body, mark body → block' (wrap body)) {ps : List (Piece (List Char))}
    (h : Pieced plain block mark ps) {shelf : Shelf} (hshelf : ∀ item ∈ shelf, block' item) :
    Blocks plain block (shelve wrap shelf ps).1 ∧
      ∀ item ∈ (shelve wrap shelf ps).2, block' item := by
  induction h generalizing shelf with
  | nil => exact ⟨.nil, hshelf⟩
  | char hc _ ih => exact ⟨.char hc (ih hshelf).1, (ih hshelf).2⟩
  | block hb _ ih =>
      rw [shelve_block]
      exact ⟨.block hb (ih hshelf).1, (ih hshelf).2⟩
  | @marked body ps hbody _ ih =>
      have hshelf' : ∀ item ∈ shelf ++ [wrap body], block' item := by
        intro item hi
        rw [List.mem_append, List.mem_singleton] at hi
        rcases hi with hi | rfl
        · exact hshelf item hi
        · exact hwrap body hbody
      exact ⟨(hplaceholder _).append (ih hshelf').1, (ih hshelf').2⟩

theorem composed_mathChars {mode : MathMode} {cs : List Char} (h : Composed cs) :
    Composed (mathChars mode cs) := by
  unfold mathChars
  split
  · exact .nil
  · cases mode with
    | inline => exact ((Blocks.of_plain (by decide)).append h).append (.of_plain (by decide))
    | block => exact ((Blocks.of_plain (by decide)).append h).append (.of_plain (by decide))

theorem composed_shelveMath {cs : List Char} (h : Composed cs) :
    Composed (shelveMath cs).1 ∧ ∀ item ∈ (shelveMath cs).2, Composed item :=
  blocks_shelve composed_placeholder (fun _ => composed_mathChars)
    (pieced_between firm_proseTokens.start (ClearOf.clear (by decide)) (ClearOf.clear (by decide))
      (by decide) (by decide) h) (by simp)

theorem composed_shelveCode {cs : List Char} (h : Composed cs) {shelf : Shelf}
    (hshelf : ∀ item ∈ shelf, Composed item) :
    Composed (shelveCode shelf cs).1 ∧ ∀ item ∈ (shelveCode shelf cs).2, Composed item :=
  blocks_shelve composed_placeholder (fun _ => composed_element (by decide) (by decide))
    (pieced_between firm_proseTokens.start (ClearOf.clear (by decide)) (ClearOf.clear (by decide))
      (by decide) (by decide) h) hshelf

theorem composed_shelved (cs : List Char) :
    Composed (shelved cs).1 ∧ ∀ item ∈ (shelved cs).2, Composed item :=
  have hmath := composed_shelveMath (composed_escapeChars cs)
  composed_shelveCode hmath.1 hmath.2

/-! ## Bringing back what is on the shelf -/

/-- What stands for a number, if anything is on the shelf under it. -/
def fetched (shelf : Shelf) (digits : List Char) : List Char :=
  match fetch shelf digits with
  | .ok cs => cs
  | .error _ => []

theorem fetched_cases (shelf : Shelf) (digits : List Char) :
    fetched shelf digits = [] ∨ fetched shelf digits ∈ shelf := by
  unfold fetched
  split
  · next cs h =>
      rw [fetch] at h
      split at h
      · cases h
      · split at h
        · cases h
        · split at h
          · next hs =>
              cases h
              exact Or.inr (List.mem_of_getElem? hs)
          · cases h
  · exact Or.inl rfl

theorem eq_replaceMarked_of_restore {shelf : Shelf} {ps : List (Piece (List Char))}
    {out : List Char} (h : restore shelf ps = .ok out) :
    out = replaceMarked (fetched shelf) ps := by
  induction ps generalizing out with
  | nil =>
      cases h
      rfl
  | cons p ps ih =>
      cases p with
      | plain c =>
          rw [restore] at h
          obtain ⟨cs, hcs, h⟩ := ok_of_bind h
          rw [replaceMarked_plain, ← ih hcs]
          exact (Except.ok.inj h).symm
      | marked digits =>
          rw [restore] at h
          obtain ⟨item, hitem, h⟩ := ok_of_bind h
          obtain ⟨cs, hcs, h⟩ := ok_of_bind h
          rw [replaceMarked_marked, ← ih hcs, fetched, hitem]
          exact (Except.ok.inj h).symm

/-- A text with what is on the shelf put back. With nothing on the shelf nothing is looked
for. -/
def broughtBack (shelf : Shelf) (cs : List Char) : List Char :=
  if shelf.isEmpty then cs else replaceMarked (fetched shelf) (pieces readPlaceholder cs)

theorem eq_broughtBack {cs out : List Char} (h : proseChars cs = .ok out) :
    out = broughtBack (shelved cs).2 (markedUp (shelved cs).1) := by
  rw [proseChars_eq] at h
  rw [broughtBack]
  split at h
  · next he => rw [if_pos he, Except.ok.inj h]
  · next he => rw [if_neg he, eq_replaceMarked_of_restore h]

theorem blocks_broughtBack {plain : Char → Prop} {block : List Char → Prop}
    (hstart : ∀ b, block b → b ≠ []) (hnul : Apart block ['\x00']) {shelf : Shelf}
    (hshelf : ∀ item ∈ shelf, Blocks plain block item) {cs : List Char}
    (h : Blocks plain block cs) : Blocks plain block (broughtBack shelf cs) := by
  rw [broughtBack]
  split
  · exact h
  · have hmem : '\x00' ∈ ['\x00'] := List.mem_cons_self
    have hps : Pieced plain block (fun _ => True) (pieces readPlaceholder cs) := by
      refine h.pieced movesOn_readPlaceholder hstart
        (passes_blocks (hnul _ hmem) readPlaceholder_none) ?_
      intro cs' digits rest hcs hr
      rw [(readPlaceholder_eq_some hr).1] at hcs
      exact ⟨trivial, ((hcs.tail (hnul.clear.unled _ hmem)).split (hnul _ hmem)).2⟩
    refine blocks_replaceMarked (fun digits _ => ?_) hps
    rcases fetched_cases shelf digits with hnil | hitem
    · exact hnil ▸ .nil
    · exact hshelf _ hitem

/-! ### Characters between which nothing is brought back -/

/-- A character that stands in no placeholder. -/
def separates (c : Char) : Bool :=
  c != '\x00' && !isDecimal c

section

variable {c : Char} {shelf : Shelf}

theorem readPlaceholder_append (hc : separates c) {u : List Char} (hu : u ≠ []) (v : List Char) :
    readPlaceholder (u ++ c :: v) =
      (readPlaceholder u).map fun (digits, rest) => (digits, rest ++ c :: v) := by
  obtain ⟨hnul, hdigit⟩ : c ≠ '\x00' ∧ isDecimal c = false := by simpa [separates] using hc
  cases u with
  | nil => exact absurd rfl hu
  | cons x u =>
      by_cases hx : x = '\x00'
      · subst hx
        have htake : (u ++ c :: v).takeWhile isDecimal = u.takeWhile isDecimal := by
          simp only [List.takeWhile_append, List.takeWhile_cons, hdigit]
          split
          · next hlen => simp [(List.takeWhile_prefix isDecimal).eq_of_length hlen]
          · rfl
        have hdrop : (u ++ c :: v).dropWhile isDecimal = u.dropWhile isDecimal ++ c :: v := by
          simp only [List.dropWhile_append, List.dropWhile_cons, hdigit]
          split
          · next hempty => simp [List.isEmpty_iff.1 hempty]
          · rfl
        rw [List.cons_append, readPlaceholder, readPlaceholder]
        simp only [htake, hdrop]
        cases u.takeWhile isDecimal with
        | nil => rfl
        | cons d ds =>
            cases u.dropWhile isDecimal with
            | nil =>
                rw [List.nil_append]
                split
                · next h =>
                    injection h with h _
                    exact absurd h hnul
                · rfl
            | cons y ys =>
                by_cases hy : y = '\x00'
                · subst hy
                  rfl
                · split
                  · next h =>
                      injection h with h _
                      exact absurd h hy
                  · split
                    · next h =>
                        injection h with h _
                        exact absurd h hy
                    · rfl
      · rw [List.cons_append, readPlaceholder_none x _ hx, readPlaceholder_none x _ hx]
        rfl

theorem pieces_readPlaceholder_append (hc : separates c) (u v : List Char) :
    pieces readPlaceholder (u ++ c :: v) =
      pieces readPlaceholder u ++ .plain c :: pieces readPlaceholder v := by
  have hnul : c ≠ '\x00' := by
    rintro rfl
    cases hc
  refine pieces_induction (P := fun u ps => pieces readPlaceholder (u ++ c :: v) =
    ps ++ .plain c :: pieces readPlaceholder v) movesOn_readPlaceholder ?_ ?_ ?_ u
  · exact pieces_of_none (readPlaceholder_none c v hnul)
  · intro x u hnone ih
    have hread := readPlaceholder_append hc (List.cons_ne_nil x u) v
    rw [hnone, List.cons_append] at hread
    rw [List.cons_append, pieces_of_none hread, ih]
    rfl
  · intro u digits rest hsome ih
    obtain ⟨x, w, hu⟩ := movesOn_readPlaceholder hsome
    have hread := readPlaceholder_append hc (hu ▸ List.cons_ne_nil x (w ++ rest)) v
    rw [hsome] at hread
    rw [pieces_of_some movesOn_readPlaceholder hread, ih]
    rfl

theorem broughtBack_separated (hc : separates c) (u v : List Char) :
    broughtBack shelf (u ++ c :: v) = broughtBack shelf u ++ c :: broughtBack shelf v := by
  simp only [broughtBack]
  split
  · rfl
  · rw [pieces_readPlaceholder_append hc, replaceMarked, List.flatMap_append]
    rfl

@[simp] theorem broughtBack_nil : broughtBack shelf [] = [] := by
  rw [broughtBack]
  split <;> rfl

theorem broughtBack_written {w : List Char} (hw : w.all separates) (v : List Char) :
    broughtBack shelf (w ++ v) = w ++ broughtBack shelf v := by
  induction w with
  | nil => rfl
  | cons c w ih =>
      rw [List.all_cons, Bool.and_eq_true] at hw
      have h : broughtBack shelf ([] ++ c :: (w ++ v)) =
          broughtBack shelf [] ++ c :: broughtBack shelf (w ++ v) :=
        broughtBack_separated hw.1 [] (w ++ v)
      rw [broughtBack_nil, List.nil_append, List.nil_append] at h
      rw [List.cons_append, h, ih hw.2, List.cons_append]

/-- Nothing that is brought back reaches over what stands in no placeholder. -/
theorem broughtBack_append {w : List Char} (hne : w ≠ []) (hw : w.all separates)
    (u v : List Char) :
    broughtBack shelf (u ++ (w ++ v)) = broughtBack shelf u ++ (w ++ broughtBack shelf v) := by
  cases w with
  | nil => exact absurd rfl hne
  | cons c w =>
      rw [List.all_cons, Bool.and_eq_true] at hw
      rw [List.cons_append, broughtBack_separated hw.1, broughtBack_written hw.2, List.cons_append]

end

/-! ## The grammar of prose -/

/-- The element of an image with the values of its attributes. -/
def imageElement (image : List Char × List Char) : List Char :=
  "<img alt='".toList ++ (image.1 ++ ("' src='".toList ++ (image.2 ++ "'/>".toList)))

theorem imageTag_eq (image : List Char × List Char) :
    imageTag image = imageElement (quoteChars image.1, quoteChars image.2) := by
  have hassoc (a b c d e : List Char) : a ++ b ++ c ++ d ++ e = a ++ (b ++ (c ++ (d ++ e))) := by
    simp only [List.append_assoc]
  exact hassoc _ _ _ _ _

/-- Texts of tokens and characters with the given images in between. -/
inductive Illustrated : List (List Char × List Char) → List Char → Prop where
  | text {u : List Char} (hu : Composed u) : Illustrated [] u
  | image {u alt source v : List Char} {images : List (List Char × List Char)} (hu : Composed u)
      (halt : Composed alt) (hsource : Composed source) (h : Illustrated images v) :
      Illustrated ((alt, source) :: images) (u ++ (imageElement (alt, source) ++ v))

/-- The images that are found in a text, as their two texts stand there. -/
def imagesIn (cs : List Char) : List (List Char × List Char) :=
  marksOf (pieces readImage (emphasized (shelved cs).1))

/-- The values of the attributes of an image. -/
def shownImage (shelf : Shelf) (image : List Char × List Char) : List Char × List Char :=
  (broughtBack shelf (quoteChars image.1), broughtBack shelf (quoteChars image.2))

/-- What is brought back into the two texts of an image stays there. -/
theorem broughtBack_framed {shelf : Shelf} {a b c : List Char} (hane : a ≠ []) (hbne : b ≠ [])
    (hcne : c ≠ []) (ha : a.all separates) (hb : b.all separates) (hc : c.all separates)
    (u alt source v : List Char) :
    broughtBack shelf (u ++ ((a ++ (alt ++ (b ++ (source ++ c)))) ++ v)) =
      broughtBack shelf u ++
        ((a ++ (broughtBack shelf alt ++ (b ++ (broughtBack shelf source ++ c)))) ++
          broughtBack shelf v) := by
  simp only [List.append_assoc]
  rw [broughtBack_append hane ha, broughtBack_append hbne hb, broughtBack_append hcne hc]

theorem broughtBack_imageTag {shelf : Shelf} (image : List Char × List Char) (u v : List Char) :
    broughtBack shelf (u ++ (imageTag image ++ v)) =
      broughtBack shelf u ++ (imageElement (shownImage shelf image) ++ broughtBack shelf v) := by
  rw [imageTag_eq]
  exact broughtBack_framed (by decide) (by decide) (by decide) (by decide +kernel)
    (by decide +kernel) (by decide +kernel) u _ _ v

theorem composed_broughtBack {shelf : Shelf} (hshelf : ∀ item ∈ shelf, Composed item)
    {cs : List Char} (h : Composed cs) : Composed (broughtBack shelf cs) :=
  blocks_broughtBack firm_proseTokens.start (Outside.apart (by decide)) hshelf h

theorem composed_quoteChars {cs : List Char} (h : Composed cs) : Composed (quoteChars cs) :=
  blocks_quoteChars (firm_proseTokens.apart '\x27' (by decide))
    (composed_token (t := "&#x27;") (by decide)) h

/-- The text before the first image is taken along, as a placeholder may stand anywhere in
it. -/
theorem illustrated_pieces {shelf : Shelf} (hshelf : ∀ item ∈ shelf, Composed item)
    {ps : List (Piece (List Char × List Char))}
    (h : Pieced Literal (OneOf proseTokens)
      (fun image => Composed image.1 ∧ Composed image.2) ps) {u : List Char} (hu : Composed u) :
    Illustrated ((marksOf ps).map (shownImage shelf))
      (broughtBack shelf (u ++ replaceMarked imageTag ps)) := by
  induction h generalizing u with
  | nil =>
      refine .text (composed_broughtBack hshelf ?_)
      simpa [replaceMarked] using hu
  | @char c ps hc _ ih =>
      have happend := ih (hu.append (.char hc .nil))
      rwa [List.append_assoc] at happend
  | @block b ps hb _ ih =>
      have happend := ih (hu.append (.single hb))
      rwa [List.append_assoc, ← replaceMarked_block, ← marksOf_block b] at happend
  | @marked image ps hi _ ih =>
      rw [replaceMarked_marked, broughtBack_imageTag]
      have hvalue {value : List Char} (hv : Composed value) :
          Composed (broughtBack shelf (quoteChars value)) :=
        composed_broughtBack hshelf (composed_quoteChars hv)
      exact .image (composed_broughtBack hshelf hu) (hvalue hi.1) (hvalue hi.2) (ih .nil)

/-- Prose is made of its tokens, of characters and of the images that are found in its
text. -/
theorem illustrated_prose {cs out : List Char} (h : proseChars cs = .ok out) :
    Illustrated ((imagesIn cs).map (shownImage (shelved cs).2)) out := by
  obtain ⟨htext, hshelf⟩ := composed_shelved cs
  have hprose := illustrated_pieces hshelf
    (firm_proseTokens.pieced_readImage (firm_proseTokens.emphasized htext)) .nil
  rw [List.nil_append] at hprose
  exact eq_broughtBack h ▸ hprose

end DocComment.Html
