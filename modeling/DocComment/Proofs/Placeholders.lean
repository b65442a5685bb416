import DocComment.Proofs.ProseTags
import Mathlib.Data.List.Basic

/-!
# Placeholders

What is on the shelf comes back by its number, and the number is read off the text:
between two NUL characters, where the shelf has put it. Nothing keeps a text from having
NUL characters of its own. Then numbers may be read that no shelf has given out, and such
a text cannot be shown. `Restorable` says of a text that every number that is read off it
finds something, which is just what its markup needs (`proseChars_isOk_iff`).

Without NUL characters of its own a text is always restorable (`restorable_of_not_mem`).
The placeholders are then blocks of the text that the shelf has left (`IsPlaceholder`),
the markup leaves them in one piece, and the numbers that are read are those that were
given out. They are never too large to be read, as each stands for a bracket or a backtick
of the text.
-/

namespace DocComment.Html

open Text

/-! ## What is read off a text -/

/-- What a number has to be like to find something on the shelf. -/
def OnShelf (shelf : Shelf) (digits : List Char) : Prop :=
  digits.length ≤ maxDigits ∧ readDecimal digits ≤ maxIndex ∧ readDecimal digits < shelf.length

instance (shelf : Shelf) (digits : List Char) : Decidable (OnShelf shelf digits) :=
  inferInstanceAs (Decidable (_ ∧ _ ∧ _))

/-- The numbers that are read off a text, as they are spelled. -/
def numbers (cs : List Char) : List (List Char) :=
  marksOf (pieces readPlaceholder cs)

/-- The numbers that are read off a text once it is marked up. -/
def asked (cs : List Char) : List (List Char) :=
  numbers (markedUp (shelved cs).1)

/-- A text of which everything that is asked for can be brought back. If nothing was put
on the shelf then nothing is looked for. -/
def Restorable (cs : List Char) : Prop :=
  (shelved cs).2 = [] ∨ ∀ digits ∈ asked cs, OnShelf (shelved cs).2 digits

instance (cs : List Char) : Decidable (Restorable cs) :=
  inferInstanceAs (Decidable (_ ∨ ∀ digits ∈ asked cs, OnShelf (shelved cs).2 digits))

theorem fetch_isOk_iff {shelf : Shelf} {digits : List Char} :
    (∃ cs, fetch shelf digits = .ok cs) ↔ OnShelf shelf digits := by
  rw [fetch, OnShelf]
  by_cases hdigits : maxDigits < digits.length
  · simp only [if_pos hdigits]
    refine ⟨fun h => by simp at h, fun h => by omega⟩
  · by_cases hindex : maxIndex < readDecimal digits
    · simp only [if_neg hdigits, if_pos hindex]
      refine ⟨fun h => by simp at h, fun h => by omega⟩
    · simp only [if_neg hdigits, if_neg hindex]
      by_cases hshelf : readDecimal digits < shelf.length
      · rw [List.getElem?_eq_getElem hshelf]
        exact ⟨fun _ => ⟨by omega, by omega, hshelf⟩, fun _ => ⟨_, rfl⟩⟩
      · rw [List.getElem?_eq_none (by omega)]
        refine ⟨fun h => by simp at h, fun h => absurd h.2.2 hshelf⟩

theorem restore_isOk_iff {shelf : Shelf} {ps : List (Piece (List Char))} :
    (∃ cs, restore shelf ps = .ok cs) ↔ ∀ digits ∈ marksOf ps, OnShelf shelf digits := by
  induction ps with
  | nil => exact ⟨fun _ _ h => absurd h List.not_mem_nil, fun _ => ⟨[], rfl⟩⟩
  | cons p ps ih =>
      cases p with
      | plain c =>
          refine Iff.trans ⟨?_, ?_⟩ ih
          · rintro ⟨cs, h⟩
            obtain ⟨cs', hcs, -⟩ := ok_of_bind h
            exact ⟨cs', hcs⟩
          · rintro ⟨cs, h⟩
            exact ⟨c :: cs, by rw [restore, h]; rfl⟩
      | marked digits =>
          show _ ↔ ∀ digits' ∈ digits :: marksOf ps, OnShelf shelf digits'
          rw [List.forall_mem_cons, ← ih, ← fetch_isOk_iff]
          constructor
          · rintro ⟨cs, h⟩
            obtain ⟨item, hitem, h⟩ := ok_of_bind h
            obtain ⟨cs', hcs, -⟩ := ok_of_bind h
            exact ⟨⟨item, hitem⟩, cs', hcs⟩
          · rintro ⟨⟨item, hitem⟩, cs, h⟩
            exact ⟨item ++ cs, by rw [restore, hitem, h]; rfl⟩

/-- The markup of a text succeeds if and only if everything can be brought back. -/
theorem proseChars_isOk_iff {cs : List Char} :
    (∃ out, proseChars cs = .ok out) ↔ Restorable cs := by
  rw [proseChars_eq, Restorable]
  by_cases hempty : (shelved cs).2 = []
  · rw [if_pos (List.isEmpty_iff.2 hempty)]
    exact ⟨fun _ => Or.inl hempty, fun _ => ⟨_, rfl⟩⟩
  · rw [if_neg (mt List.isEmpty_iff.1 hempty), restore_isOk_iff, or_iff_right hempty]
    rfl

/-! ## Numbers that were given out -/

/-- A placeholder with a number below a given one. -/
def IsPlaceholder (n : Nat) (b : List Char) : Prop :=
  ∃ k < n, b = placeholder k

/-- Texts that hold the placeholders of numbers below a given one, and no other NUL
characters. -/
abbrev Numbered (n : Nat) (cs : List Char) : Prop :=
  Blocks (· ≠ '\x00') (IsPlaceholder n) cs

theorem digitValue?_of_isDigit {c : Char} (h : c.isDigit) :
    digitValue? c = some (c.toNat - '0'.toNat) := by
  rw [digitValue?, if_pos h]

theorem apart_placeholder {n : Nat} {w : List Char} (h : w.all separates) :
    Apart (IsPlaceholder n) w := by
  rintro x hx b ⟨k, -, rfl⟩ hmem
  have hx : x ≠ '\x00' ∧ isDecimal x = false := by
    simpa [separates] using List.all_eq_true.1 h x hx
  rcases mem_placeholder hmem with hnul | hdigit
  · exact hx.1 hnul
  · rw [isDecimal, digitValue?_of_isDigit hdigit] at hx
    cases hx.2

theorem not_mem_nul_tags : ∀ tag ∈ ["strong", "em"], '\x00' ∉ ("<" ++ tag ++ ">").toList ∧
    '\x00' ∉ ("</" ++ tag ++ ">").toList := by
  decide

theorem firm_placeholder (n : Nat) : Firm (· ≠ '\x00') (IsPlaceholder n) where
  start := by
    rintro b ⟨k, -, rfl⟩
    exact List.cons_ne_nil _ _
  apart := apart_placeholder (by decide +kernel)
  space := by decide
  tags := fun tag ht =>
    ⟨.of_plain (List.forall_mem_ne'.2 (not_mem_nul_tags tag ht).1),
      .of_plain (List.forall_mem_ne'.2 (not_mem_nul_tags tag ht).2)⟩

/-! ## Numbers that are read -/

theorem readDecimal_toString (k : Nat) : readDecimal (toString k).toList = k := by
  have hvalue : ∀ c ∈ (toString k).toList, (digitValue? c).getD 0 = c.toNat - '0'.toNat := by
    intro c hc
    rw [digitValue?_of_isDigit (isDigit_of_mem hc)]
    rfl
  have hfold : readDecimal (toString k).toList = Nat.ofDigitChars 10 (toString k).toList 0 := by
    rw [readDecimal, Nat.ofDigitChars_eq_foldl]
    exact List.foldl_ext _ _ _ fun n c hc => by rw [hvalue c hc]
  rw [hfold, toList_toString]
  exact Nat.ofDigitChars_toDigits (by decide) (by decide)

/-- A placeholder is read as its number. -/
theorem readPlaceholder_placeholder (k : Nat) (cs : List Char) :
    readPlaceholder (placeholder k ++ cs) = some ((toString k).toList, cs) := by
  have hdecimal : ∀ c ∈ (toString k).toList, isDecimal c = true := by
    intro c hc
    rw [isDecimal, digitValue?_of_isDigit (isDigit_of_mem hc)]
    rfl
  have hnul : isDecimal '\x00' = false := by decide +kernel
  have htake : ((toString k).toList ++ '\x00' :: cs).takeWhile isDecimal = (toString k).toList := by
    rw [List.takeWhile_append_of_pos hdecimal, List.takeWhile_cons_of_neg (by simp [hnul]),
      List.append_nil]
  have hdrop : ((toString k).toList ++ '\x00' :: cs).dropWhile isDecimal = '\x00' :: cs := by
    rw [List.dropWhile_append_of_pos hdecimal, List.dropWhile_cons_of_neg (by simp [hnul])]
  have hform : placeholder k ++ cs = '\x00' :: ((toString k).toList ++ '\x00' :: cs) := by
    simp [placeholder]
  rw [hform, readPlaceholder]
  simp only [htake, hdrop]
  cases hk : (toString k).toList with
  | nil =>
      rw [toList_toString] at hk
      exact absurd hk Nat.toDigits_ne_nil
  | cons d ds => rfl

theorem numbers_cons {c : Char} (hc : c ≠ '\x00') (cs : List Char) :
    numbers (c :: cs) = numbers cs := by
  rw [numbers, pieces_of_none (readPlaceholder_none c cs hc)]
  rfl

theorem numbers_placeholder (k : Nat) (cs : List Char) :
    numbers (placeholder k ++ cs) = (toString k).toList :: numbers cs := by
  rw [numbers, pieces_of_some movesOn_readPlaceholder (readPlaceholder_placeholder k cs)]
  rfl

/-- A text with placeholders ends with none that goes on in what follows. -/
theorem numbers_append {n : Nat} {u : List Char} (hu : Numbered n u) (v : List Char) :
    numbers (u ++ v) = numbers u ++ numbers v := by
  induction hu with
  | nil => rfl
  | char hc _ ih => rw [List.cons_append, numbers_cons hc, numbers_cons hc, ih]
  | block hb _ ih =>
      obtain ⟨k, -, rfl⟩ := hb
      rw [List.append_assoc, numbers_placeholder, numbers_placeholder, ih, List.cons_append]

theorem numbers_of_not_mem {cs : List Char} (h : '\x00' ∉ cs) : numbers cs = [] := by
  induction cs with
  | nil => rfl
  | cons c cs ih =>
      rw [List.mem_cons, not_or] at h
      rw [numbers_cons (Ne.symm h.1), ih h.2]

/-- All that is read off a text with placeholders is their numbers. -/
theorem mem_numbers {n : Nat} {cs : List Char} (h : Numbered n cs) :
    ∀ digits ∈ numbers cs, ∃ k < n, digits = (toString k).toList := by
  induction h with
  | nil => exact fun _ h => absurd h List.not_mem_nil
  | char hc _ ih =>
      rw [numbers_cons hc]
      exact ih
  | block hb _ ih =>
      obtain ⟨k, hk, rfl⟩ := hb
      rw [numbers_placeholder, List.forall_mem_cons]
      exact ⟨⟨k, hk, rfl⟩, ih⟩

/-- A number that was given out finds what it was given for. -/
theorem onShelf_toString {shelf : Shelf} {k : Nat} (hk : k < shelf.length) (hmax : k ≤ maxIndex) :
    OnShelf shelf (toString k).toList := by
  have hlength : (toString k).toList.length ≤ 19 := by
    rw [toList_toString, Nat.length_toDigits_le_iff (by decide) (by decide)]
    have hbound : maxIndex < 10 ^ 19 := by decide
    omega
  have hdigits : 19 ≤ maxDigits := by decide
  rw [OnShelf, readDecimal_toString]
  exact ⟨by omega, hmax, hk⟩

/-! ## Numbers of a text that is marked up -/

/-- Two texts with the same placeholders in the same order. -/
structure SameNumbers (n : Nat) (u v : List Char) : Prop where
  left : Numbered n u
  right : Numbered n v
  eq : numbers u = numbers v

namespace SameNumbers

variable {n : Nat} {u v w : List Char}

theorem refl (h : Numbered n u) : SameNumbers n u u :=
  ⟨h, h, rfl⟩

theorem trans (h : SameNumbers n u v) (h' : SameNumbers n v w) : SameNumbers n u w :=
  ⟨h.left, h'.right, h.eq.trans h'.eq⟩

theorem append {u' v' : List Char} (h : SameNumbers n u v) (h' : SameNumbers n u' v') :
    SameNumbers n (u ++ u') (v ++ v') where
  left := h.left.append h'.left
  right := h.right.append h'.right
  eq := by rw [numbers_append h.left, numbers_append h.right, h.eq, h'.eq]

theorem of_not_mem (hu : '\x00' ∉ u) (hv : '\x00' ∉ v) : SameNumbers n u v where
  left := .of_plain (List.forall_mem_ne'.2 hu)
  right := .of_plain (List.forall_mem_ne'.2 hv)
  eq := by rw [numbers_of_not_mem hu, numbers_of_not_mem hv]

theorem quoteChars (h : Numbered n u) : SameNumbers n (quoteChars u) u := by
  induction h with
  | nil => exact refl .nil
  | @char c cs hc _ ih =>
      have hone : '\x00' ∉ [c] := fun hmem => hc (List.mem_singleton.1 hmem).symm
      rw [Html.quoteChars, List.flatMap_cons]
      refine append (v := [c]) (of_not_mem ?_ hone) ih
      split
      · decide
      · exact hone
  | block hb _ ih =>
      have hquote := (firm_placeholder n).apart '\x27' (by decide) _ hb
      rw [quoteChars_append, quoteChars_of_not_mem hquote]
      exact (refl (.single hb)).append ih

end SameNumbers

section

variable {n : Nat} {cs : List Char}

theorem sameNumbers_replaceMarked {α : Type} {mark : α → Prop} {wrap raw : α → List Char}
    (hwrap : ∀ a, mark a → SameNumbers n (wrap a) (raw a)) {ps : List (Piece α)}
    (h : Pieced (· ≠ '\x00') (IsPlaceholder n) mark ps) :
    SameNumbers n (replaceMarked wrap ps) (replaceMarked raw ps) := by
  induction h with
  | nil => exact .refl .nil
  | @char c ps hc _ ih =>
      have hone : '\x00' ∉ [c] := fun hmem => hc (List.mem_singleton.1 hmem).symm
      exact (SameNumbers.of_not_mem hone hone).append ih
  | block hb _ ih =>
      rw [replaceMarked_block, replaceMarked_block]
      exact (SameNumbers.refl (.single hb)).append ih
  | marked ha _ ih => exact (hwrap _ ha).append ih

/-- What is put in the place of a mark has the placeholders that stood there. -/
theorem sameNumbers_replaced {α : Type} {mark : α → Prop}
    {read : List Char → Option (α × List Char)} (hread : MovesOn read) (raw : α → List Char)
    (hraw : ∀ {cs a rest}, read cs = some (a, rest) → cs = raw a ++ rest)
    (h : Pieced (· ≠ '\x00') (IsPlaceholder n) mark (pieces read cs)) {wrap : α → List Char}
    (hwrap : ∀ a, mark a → SameNumbers n (wrap a) (raw a)) :
    SameNumbers n (replaceMarked wrap (pieces read cs)) cs := by
  have hps := sameNumbers_replaceMarked hwrap h
  rwa [replaceMarked_read hread hraw] at hps

theorem sameNumbers_between {opening closing : String} (ho : opening.toList ⊆ marks)
    (hc : closing.toList ⊆ marks) (hne : opening ≠ "") (hne' : closing ≠ "")
    {wrap : List Char → List Char} (hwrap : ∀ body, Numbered n body →
      SameNumbers n (wrap body) (opening.toList ++ body ++ closing.toList)) (h : Numbered n cs) :
    SameNumbers n (replaceMarked wrap (pieces (between opening closing) cs)) cs := by
  have hps := (firm_placeholder n).pieced_between ho hc hne hne' h
  cases hw : opening.toList with
  | nil => exact absurd (String.toList_eq_nil_iff.1 hw) hne
  | cons x w =>
      refine sameNumbers_replaced (movesOn_between hw) _ (fun hr => ?_) hps hwrap
      rw [between_eq_some hr]
      simp only [List.append_assoc]

/-- An element has the placeholders that stood between the marks of its text. -/
theorem sameNumbers_element {tag : String} (ht : tag ∈ ["strong", "em"]) {u v : List Char}
    (hu : '\x00' ∉ u) (hv : '\x00' ∉ v) (h : Numbered n cs) :
    SameNumbers n (element tag cs) (u ++ cs ++ v) :=
  ((SameNumbers.of_not_mem (not_mem_nul_tags tag ht).1 hu).append (.refl h)).append
    (.of_not_mem (not_mem_nul_tags tag ht).2 hv)

theorem sameNumbers_strong (h : Numbered n cs) : SameNumbers n (strong cs) cs :=
  sameNumbers_between (by decide) (by decide) (by decide) (by decide)
    (fun _ => sameNumbers_element (by decide) (by decide) (by decide)) h

theorem sameNumbers_emphasisWithin (h : Numbered n cs) : SameNumbers n (emphasisWithin cs) cs := by
  refine sameNumbers_between (by decide) (by decide) (by decide) (by decide) (fun body hb => ?_) h
  have hem : SameNumbers n (element "em" body) ([] ++ body ++ []) :=
    sameNumbers_element (by decide) List.not_mem_nil List.not_mem_nil hb
  rw [List.nil_append, List.append_nil] at hem
  exact ((SameNumbers.of_not_mem (u := [' ']) (by decide) (by decide)).append hem).append
    (.of_not_mem (by decide) (by decide))

theorem sameNumbers_emphasisAtStart (h : Numbered n cs) :
    SameNumbers n (emphasisAtStart cs) cs := by
  rw [emphasisAtStart]
  split
  · next body rest hr =>
      obtain ⟨hbody, hrest⟩ :=
        (firm_placeholder n).between (by decide) (by decide) (by decide) h hr
      rw [between_eq_some hr, ← List.append_assoc, ← List.append_assoc]
      exact (sameNumbers_element (by decide) (by decide) (by decide) hbody).append (.refl hrest)
  · exact .refl h

theorem sameNumbers_emphasisAtEnd (h : Numbered n cs) : SameNumbers n (emphasisAtEnd cs) cs := by
  refine sameNumbers_replaced movesOn_finalEmphasis (fun body => ['_'] ++ body ++ ['_'])
    (fun hr => ?_) ((firm_placeholder n).pieced_finalEmphasis h)
    (fun _ => sameNumbers_element (by decide) (by decide) (by decide))
  rw [finalEmphasis_eq_some hr]
  simp

theorem sameNumbers_images (h : Numbered n cs) : SameNumbers n (images cs) cs := by
  refine sameNumbers_replaced movesOn_readImage
    (fun image => ['!', '['] ++ image.1 ++ [']', '('] ++ image.2 ++ [')'])
    (fun {cs image rest} hr => ?_) ((firm_placeholder n).pieced_readImage h) (fun image hi => ?_)
  · obtain ⟨alt, source⟩ := image
    rw [readImage_eq_some hr]
    simp
  · have hplain {u v : List Char} (hu : '\x00' ∉ u) (hv : '\x00' ∉ v) : SameNumbers n u v :=
      .of_not_mem hu hv
    exact ((((hplain (by decide) (by decide)).append (.quoteChars hi.1)).append
      (hplain (by decide) (by decide))).append (.quoteChars hi.2)).append
        (hplain (by decide) (by decide))

/-- The markup leaves the placeholders of a text as they are. -/
theorem sameNumbers_markedUp (h : Numbered n cs) : SameNumbers n (markedUp cs) cs := by
  have hstrong := sameNumbers_strong h
  have hwithin := sameNumbers_emphasisWithin hstrong.left
  have hstart := sameNumbers_emphasisAtStart hwithin.left
  have hend := sameNumbers_emphasisAtEnd hstart.left
  exact (sameNumbers_images hend.left).trans
    (hend.trans (hstart.trans (hwithin.trans hstrong)))

end

/-! ## The shelf -/

/-- What the shelf leaves of a text has placeholders for what is on the shelf now. -/
theorem numbered_shelve (wrap : List Char → List Char) {n : Nat} {shelf : Shelf}
    {mark : List Char → Prop} {ps : List (Piece (List Char))}
    (h : Pieced (· ≠ '\x00') (IsPlaceholder n) mark ps) (hn : n ≤ shelf.length) :
    shelf.length ≤ (shelve wrap shelf ps).2.length ∧
      Numbered (shelve wrap shelf ps).2.length (shelve wrap shelf ps).1 := by
  induction h generalizing shelf with
  | nil => exact ⟨Nat.le_refl _, .nil⟩
  | char hc _ ih =>
      obtain ⟨hle, htext⟩ := ih hn
      exact ⟨hle, .char hc htext⟩
  | block hb _ ih =>
      obtain ⟨hle, htext⟩ := ih hn
      obtain ⟨k, hk, rfl⟩ := hb
      rw [shelve_block]
      exact ⟨hle, .block ⟨k, Nat.lt_of_lt_of_le hk (Nat.le_trans hn hle), rfl⟩ htext⟩
  | @marked body ps _ _ ih =>
      have hn' : n ≤ (shelf ++ [wrap body]).length := by
        rw [List.length_append]
        omega
      obtain ⟨hle, htext⟩ := ih hn'
      rw [List.length_append, List.length_singleton] at hle
      rw [shelve]
      exact ⟨Nat.le_of_succ_le hle, .block ⟨shelf.length, hle, rfl⟩ htext⟩

/-- A character that marks what goes on the shelf. -/
def shelves (c : Char) : Bool :=
  c = '[' || c = '\x60'

/-- For every thing that is put on the shelf one of its marks goes from the text. -/
theorem count_shelve {read : List Char → Option (List Char × List Char)} (hread : MovesOn read)
    (hmark : ∀ cs body rest, read cs = some (body, rest) →
      rest.countP shelves < cs.countP shelves)
    (wrap : List Char → List Char) (shelf : Shelf) (cs : List Char) :
    (shelve wrap shelf (pieces read cs)).2.length +
        (shelve wrap shelf (pieces read cs)).1.countP shelves ≤
      shelf.length + cs.countP shelves := by
  revert shelf
  refine pieces_induction (P := fun cs ps => ∀ shelf : Shelf, (shelve wrap shelf ps).2.length +
    (shelve wrap shelf ps).1.countP shelves ≤ shelf.length + cs.countP shelves) hread ?_ ?_ ?_ cs
  · exact fun shelf => Nat.le_refl _
  · intro c cs _ ih shelf
    have hrest := ih shelf
    rw [shelve]
    simp only [List.countP_cons]
    omega
  · intro cs body rest hr ih shelf
    have hrest := ih (shelf ++ [wrap body])
    have hless := hmark cs body rest hr
    have hplaceholder : (placeholder shelf.length).countP shelves = 0 := by
      refine List.countP_eq_zero.2 fun c hc hs => ?_
      have hseparates : [c].all separates := by
        rw [shelves, Bool.or_eq_true, decide_eq_true_eq, decide_eq_true_eq] at hs
        rcases hs with rfl | rfl <;> decide
      exact apart_placeholder (n := shelf.length + 1) hseparates c List.mem_cons_self _
        ⟨shelf.length, Nat.lt_succ_self _, rfl⟩ hc
    rw [List.length_append, List.length_singleton] at hrest
    rw [shelve]
    simp only [List.countP_append, hplaceholder]
    omega

theorem countP_between {opening closing : String} {cs body rest : List Char}
    (ho : 0 < opening.toList.countP shelves) (h : between opening closing cs = some (body, rest)) :
    rest.countP shelves < cs.countP shelves := by
  rw [between_eq_some h]
  simp only [List.countP_append]
  omega

theorem countP_escapeChars (cs : List Char) :
    (escapeChars cs).countP shelves = cs.countP shelves := by
  have hchar (c : Char) : (escapeContent c).countP shelves = [c].countP shelves := by
    unfold escapeContent
    split
    · next h => rw [h]; decide
    · split
      · next h => rw [h]; decide
      · split
        · next h => rw [h]; decide
        · rfl
  induction cs with
  | nil => rfl
  | cons c cs ih =>
      rw [escapeChars, List.flatMap_cons, List.countP_append, hchar]
      rw [escapeChars] at ih
      rw [ih, ← List.countP_append, List.singleton_append]

/-- No text puts more on the shelf than it has characters. -/
theorem length_shelved_le (cs : List Char) : (shelved cs).2.length ≤ cs.length := by
  have hmath : (shelveMath (escapeChars cs)).2.length +
      (shelveMath (escapeChars cs)).1.countP shelves ≤ 0 + (escapeChars cs).countP shelves :=
    count_shelve (movesOn_between rfl) (fun _ _ _ => countP_between (by decide)) _ _ _
  have hcode : (shelved cs).2.length + (shelved cs).1.countP shelves ≤
      (shelveMath (escapeChars cs)).2.length + (shelveMath (escapeChars cs)).1.countP shelves :=
    count_shelve (movesOn_between rfl) (fun _ _ _ => countP_between (by decide)) _ _ _
  have hcount : cs.countP shelves ≤ cs.length := List.countP_le_length
  rw [countP_escapeChars] at hmath
  omega

/-! ## Texts without NUL characters -/

theorem not_mem_nul_escapeChars {cs : List Char} (h : '\x00' ∉ cs) : '\x00' ∉ escapeChars cs := by
  intro hmem
  obtain ⟨c, hc, hmem⟩ := List.mem_flatMap.1 hmem
  unfold escapeContent at hmem
  split at hmem
  · exact absurd hmem (by decide)
  · split at hmem
    · exact absurd hmem (by decide)
    · split at hmem
      · exact absurd hmem (by decide)
      · exact h (List.mem_singleton.1 hmem ▸ hc)

/-- Formulas and code are found between the placeholders of a text, and leave them in one
piece. -/
theorem pieced_numbered {opening closing : String} (ho : opening ≠ "") (hc : closing ≠ "")
    (hopening : opening.toList.all separates) (hclosing : closing.toList.all separates) {n : Nat}
    {cs : List Char} (h : Numbered n cs) :
    Pieced (· ≠ '\x00') (IsPlaceholder n) (Numbered n) (pieces (between opening closing) cs) :=
  pieced_between (firm_placeholder n).start (apart_placeholder hopening).clear
    (apart_placeholder hclosing).clear ho hc h

theorem pieced_formulas {cs : List Char} (h : '\x00' ∉ cs) :
    Pieced (· ≠ '\x00') (IsPlaceholder 0) (Numbered 0)
      (pieces (between "[math]" "[/math]") (escapeChars cs)) :=
  pieced_numbered (by decide) (by decide) (by decide +kernel) (by decide +kernel)
    (.of_plain (List.forall_mem_ne'.2 (not_mem_nul_escapeChars h)))

theorem pieced_code {cs : List Char} (h : '\x00' ∉ cs) :
    Pieced (· ≠ '\x00') (IsPlaceholder (shelveMath (escapeChars cs)).2.length)
      (Numbered (shelveMath (escapeChars cs)).2.length)
      (pieces (between "\x60" "\x60") (shelveMath (escapeChars cs)).1) :=
  pieced_numbered (by decide) (by decide) (by decide +kernel) (by decide +kernel)
    (numbered_shelve _ (pieced_formulas h) (Nat.zero_le _)).2

theorem numbered_shelved {cs : List Char} (h : '\x00' ∉ cs) :
    Numbered (shelved cs).2.length (shelved cs).1 :=
  (numbered_shelve _ (pieced_code h) (Nat.le_refl _)).2

/-- A text without NUL characters can be shown, if it is not longer than a list can be. -/
theorem restorable_of_not_mem {cs : List Char} (h : '\x00' ∉ cs) (hmax : cs.length ≤ maxIndex) :
    Restorable cs := by
  right
  have hnumbers := sameNumbers_markedUp (numbered_shelved h)
  intro digits hdigits
  obtain ⟨k, hk, rfl⟩ := mem_numbers hnumbers.left digits hdigits
  have hle := length_shelved_le cs
  exact onShelf_toString hk (by omega)

end DocComment.Html
