import DocComment.Proofs.Placeholders

/-!
# Formulas in code

Formulas and code are kept from the markup: they go on a shelf, and a number stands for
each of them until all else is done. Here it is shown what becomes of them (`BringsBack`).
With what the numbers stand for in their places the text is the one that was written, the
markup leaves the numbers where they are, and in the prose each number is replaced by what
is on the shelf under it.

Formulas go on the shelf before code does, so the number of a formula may stand in a piece
of code. Then it goes on the shelf with the code. What comes back from the shelf is not
looked at again, so the number stays there, and two NUL characters with it are shown
instead of the formula. That is the only time that anything kept is not shown: the prose
of a text without NUL characters has one just if there is a formula in its code
(`prose_nul_iff_formulaInCode`).
-/

namespace DocComment.Html

open Text

/-- The formulas of a text. -/
def formulasIn (cs : List Char) : List (List Char) :=
  marksOf (pieces (between "[math]" "[/math]") (escapeChars cs))

/-- The code of a text, with its formulas on the shelf. -/
def codeIn (cs : List Char) : List (List Char) :=
  marksOf (pieces (between "\x60" "\x60") (shelveMath (escapeChars cs)).1)

/-- There is a formula in a piece of code, or what stands for one. -/
def FormulaInCode (cs : List Char) : Prop :=
  ∃ code ∈ codeIn cs, '\x00' ∈ code

instance (cs : List Char) : Decidable (FormulaInCode cs) :=
  inferInstanceAs (Decidable (∃ code ∈ codeIn cs, '\x00' ∈ code))

/-- What is kept from the markup of a text, as it is shown, in the order of its
numbers. -/
def keptIn (cs : List Char) : Shelf :=
  (formulasIn cs).map (mathChars .inline) ++ (codeIn cs).map (element "code")

/-- A text with something else in the place of each number that is read off it. -/
def putIn (f : Nat → List Char) (cs : List Char) : List Char :=
  replaceMarked (fun digits => f (readDecimal digits)) (pieces readPlaceholder cs)

/-- A formula of a text as it was written. -/
def formulaSource (cs : List Char) (k : Nat) : List Char :=
  "[math]".toList ++ (formulasIn cs)[k]?.getD [] ++ "[/math]".toList

/-- What is kept from the markup, as it was written. Code may have formulas in it. -/
def keptSource (cs : List Char) (k : Nat) : List Char :=
  if k < (formulasIn cs).length then formulaSource cs k
  else
    "\x60".toList ++
      putIn (formulaSource cs) ((codeIn cs)[k - (formulasIn cs).length]?.getD []) ++ "\x60".toList

/-- What is kept from the markup of a text comes back: the prose is the text as it is
marked up, with everything in the place of its number. -/
structure BringsBack (cs out : List Char) : Prop where
  /-- Before the markup, each number stands where that was which it stands for. -/
  source : putIn (keptSource cs) (shelved cs).1 = escapeChars cs
  known : ∀ digits ∈ numbers (shelved cs).1, readDecimal digits < (keptIn cs).length
  /-- The markup neither loses a number nor makes one. -/
  sameNumbers : numbers (markedUp (shelved cs).1) = numbers (shelved cs).1
  result : out = putIn (fun k => (keptIn cs)[k]?.getD []) (markedUp (shelved cs).1)

/-! ## What is on the shelf -/

theorem shelve_snd (wrap : List Char → List Char) (shelf : Shelf) (ps : List (Piece (List Char))) :
    (shelve wrap shelf ps).2 = shelf ++ (marksOf ps).map wrap := by
  induction ps generalizing shelf with
  | nil => exact (List.append_nil shelf).symm
  | cons p ps ih =>
      cases p with
      | plain c => exact ih shelf
      | marked body =>
          rw [shelve, ih, List.append_assoc]
          rfl

/-- The formulas are on the shelf, and then the code. -/
theorem shelved_snd (cs : List Char) : (shelved cs).2 = keptIn cs := by
  rw [shelved, shelveCode, shelve_snd, shelveMath, shelve_snd]
  rfl

theorem length_shelveMath (cs : List Char) :
    (shelveMath (escapeChars cs)).2.length = (formulasIn cs).length := by
  rw [shelveMath, shelve_snd, List.nil_append, List.length_map]
  rfl

/-- All numbers that are given out stand in the text. -/
theorem mem_numbers_shelve (wrap : List Char → List Char) {n : Nat} {mark : List Char → Prop}
    {ps : List (Piece (List Char))} (h : Pieced (· ≠ '\x00') (IsPlaceholder n) mark ps)
    (shelf : Shelf) {i : Nat} (hi : i < (marksOf ps).length) :
    (toString (shelf.length + i)).toList ∈ numbers (shelve wrap shelf ps).1 := by
  induction h generalizing shelf i with
  | nil => exact absurd hi (Nat.not_lt_zero i)
  | char hc _ ih =>
      rw [shelve, numbers_cons hc]
      exact ih shelf hi
  | block hb _ ih =>
      obtain ⟨k, -, rfl⟩ := hb
      rw [marksOf_block] at hi
      rw [shelve_block, numbers_placeholder]
      exact List.mem_cons_of_mem _ (ih shelf hi)
  | @marked body ps _ _ ih =>
      rw [shelve, numbers_placeholder]
      cases i with
      | zero => exact List.mem_cons_self
      | succ i =>
          have hrest := ih (shelf ++ [wrap body]) (Nat.lt_of_succ_lt_succ hi)
          rw [List.length_append, List.length_singleton, Nat.add_assoc, Nat.add_comm 1] at hrest
          exact List.mem_cons_of_mem _ hrest

theorem not_mem_of_numbered_zero {cs : List Char} (h : Numbered 0 cs) : '\x00' ∉ cs := by
  induction h with
  | nil => exact List.not_mem_nil
  | char hc _ ih => exact List.not_mem_cons_of_ne_of_not_mem (Ne.symm hc) ih
  | block hb _ _ =>
      obtain ⟨k, hk, -⟩ := hb
      exact absurd hk (Nat.not_lt_zero k)

theorem not_mem_nul_formula {cs body : List Char} (h : '\x00' ∉ cs) (hbody : body ∈ formulasIn cs) :
    '\x00' ∉ mathChars .inline body := by
  have hnul := not_mem_of_numbered_zero ((pieced_formulas h).of_mem_marksOf body hbody)
  unfold mathChars
  split
  · exact List.not_mem_nil
  · exact List.not_mem_append (List.not_mem_append (by decide) hnul) (by decide)

/-! ## Numbers and what they stand for -/

section

variable {f g : Nat → List Char} {n : Nat} {cs : List Char}

theorem putIn_cons (f : Nat → List Char) {c : Char} (hc : c ≠ '\x00') (cs : List Char) :
    putIn f (c :: cs) = c :: putIn f cs := by
  rw [putIn, pieces_of_none (readPlaceholder_none c cs hc), replaceMarked_plain]
  rfl

theorem putIn_placeholder (f : Nat → List Char) (k : Nat) (cs : List Char) :
    putIn f (placeholder k ++ cs) = f k ++ putIn f cs := by
  rw [putIn, pieces_of_some movesOn_readPlaceholder (readPlaceholder_placeholder k cs),
    replaceMarked_marked, readDecimal_toString]
  rfl

theorem putIn_append (f : Nat → List Char) (h : Numbered n cs) (v : List Char) :
    putIn f (cs ++ v) = putIn f cs ++ putIn f v := by
  induction h with
  | nil => rfl
  | char hc _ ih => rw [List.cons_append, putIn_cons f hc, putIn_cons f hc, ih, List.cons_append]
  | block hb _ ih =>
      obtain ⟨k, -, rfl⟩ := hb
      rw [List.append_assoc, putIn_placeholder, putIn_placeholder, ih, List.append_assoc]

theorem putIn_of_not_mem (f : Nat → List Char) (h : '\x00' ∉ cs) : putIn f cs = cs := by
  induction cs with
  | nil => rfl
  | cons c cs ih =>
      rw [List.mem_cons, not_or] at h
      rw [putIn_cons f (Ne.symm h.1), ih h.2]

/-- Only the numbers of a text count. -/
theorem putIn_congr (h : Numbered n cs) (hfg : ∀ k < n, f k = g k) : putIn f cs = putIn g cs := by
  induction h with
  | nil => rfl
  | char hc _ ih => rw [putIn_cons f hc, putIn_cons g hc, ih]
  | block hb _ ih =>
      obtain ⟨k, hk, rfl⟩ := hb
      rw [putIn_placeholder, putIn_placeholder, ih, hfg k hk]

/-- A text has NUL characters just if one of those things has that are put into it. -/
theorem nul_mem_putIn (h : Numbered n cs) :
    '\x00' ∈ putIn f cs ↔ ∃ digits ∈ numbers cs, '\x00' ∈ f (readDecimal digits) := by
  induction h with
  | nil => simp [putIn, numbers, pieces, piecesAfter, marksOf, replaceMarked]
  | char hc _ ih =>
      rw [numbers_cons hc, putIn_cons f hc, List.mem_cons, ih, or_iff_right (Ne.symm hc)]
  | block hb _ ih =>
      obtain ⟨k, -, rfl⟩ := hb
      rw [numbers_placeholder, putIn_placeholder, List.mem_append, ih]
      simp only [List.mem_cons, exists_eq_or_imp, readDecimal_toString]

/-- With what was put on the shelf in the place of its number, a text is as it was
before. -/
theorem putIn_shelve {wrap raw : List Char → List Char}
    (hraw : ∀ body, Numbered n body → Numbered n (raw body)) {ps : List (Piece (List Char))}
    (h : Pieced (· ≠ '\x00') (IsPlaceholder n) (Numbered n) ps) (shelf : Shelf)
    (hf : ∀ i body, (marksOf ps)[i]? = some body → f (shelf.length + i) = putIn f (raw body)) :
    putIn f (shelve wrap shelf ps).1 = putIn f (replaceMarked raw ps) := by
  induction h generalizing shelf with
  | nil => rfl
  | char hc _ ih =>
      rw [shelve, replaceMarked_plain, putIn_cons f hc, putIn_cons f hc, ih shelf hf]
  | block hb _ ih =>
      rw [marksOf_block] at hf
      obtain ⟨k, -, rfl⟩ := hb
      rw [shelve_block, replaceMarked_block, putIn_placeholder, putIn_placeholder, ih shelf hf]
  | @marked body ps hbody _ ih =>
      have hrest : ∀ i a, (marksOf ps)[i]? = some a →
          f ((shelf ++ [wrap body]).length + i) = putIn f (raw a) := by
        intro i a ha
        rw [List.length_append, List.length_singleton, Nat.add_assoc, Nat.add_comm 1]
        exact hf (i + 1) a ha
      rw [shelve, replaceMarked_marked, putIn_placeholder, putIn_append f (hraw body hbody),
        ih _ hrest, ← hf 0 body rfl, Nat.add_zero]

end

/-! ## What comes back -/

theorem fetched_toString {shelf : Shelf} {k : Nat} (hk : k < shelf.length) (hmax : k ≤ maxIndex) :
    fetched shelf (toString k).toList = shelf[k]?.getD [] := by
  obtain ⟨hlength, hindex, -⟩ := onShelf_toString hk hmax
  rw [fetched, fetch, if_neg (Nat.not_lt.2 hlength), if_neg (Nat.not_lt.2 hindex),
    readDecimal_toString, List.getElem?_eq_getElem hk]
  rfl

/-- Each number is replaced by what is on the shelf under it. -/
theorem broughtBack_eq_putIn {shelf : Shelf} {cs : List Char} (h : Numbered shelf.length cs)
    (hmax : shelf.length ≤ maxIndex) :
    broughtBack shelf cs = putIn (fun k => shelf[k]?.getD []) cs := by
  rw [broughtBack]
  split
  · next hempty =>
      rw [List.isEmpty_iff.1 hempty] at h ⊢
      exact (putIn_of_not_mem _ (not_mem_of_numbered_zero h)).symm
  · rw [putIn]
    refine List.flatMap_congr fun p hp => ?_
    cases p with
    | plain c => rfl
    | marked digits =>
        obtain ⟨k, hk, rfl⟩ :=
          mem_numbers h digits (List.mem_filterMap.2 ⟨.marked digits, hp, rfl⟩)
        show fetched shelf _ = shelf[readDecimal _]?.getD []
        rw [fetched_toString hk (by omega), readDecimal_toString]

/-- Marked pieces that are written as they were read give the text again. -/
theorem replaceMarked_between {opening closing : String} {c : Char} {w : List Char}
    (ho : opening.toList = c :: w) (cs : List Char) :
    replaceMarked (fun body => opening.toList ++ body ++ closing.toList)
      (pieces (between opening closing) cs) = cs := by
  refine replaceMarked_read (movesOn_between ho) (fun hr => ?_) cs
  rw [between_eq_some hr]
  simp only [List.append_assoc]

theorem keptSource_formula {cs body : List Char} {i : Nat}
    (hi : (formulasIn cs)[i]? = some body) :
    keptSource cs i = "[math]".toList ++ body ++ "[/math]".toList := by
  have hlt : i < (formulasIn cs).length := (List.getElem?_eq_some_iff.1 hi).1
  have hread : formulaSource cs i =
      "[math]".toList ++ (formulasIn cs)[i]?.getD [] ++ "[/math]".toList := rfl
  rw [keptSource, if_pos hlt, hread, hi, Option.getD_some]

theorem keptSource_code {cs body : List Char} {i : Nat} (hi : (codeIn cs)[i]? = some body) :
    keptSource cs ((formulasIn cs).length + i) =
      "\x60".toList ++ putIn (formulaSource cs) body ++ "\x60".toList := by
  have hno : ¬ (formulasIn cs).length + i < (formulasIn cs).length := by omega
  rw [keptSource, if_neg hno, Nat.add_sub_cancel_left, hi, Option.getD_some]

/-- What stood in the place of the number of a formula before. -/
theorem putIn_shelveMath {cs : List Char} (h : '\x00' ∉ cs) :
    putIn (keptSource cs) (shelveMath (escapeChars cs)).1 = escapeChars cs := by
  have hwritten {body : List Char} (hbody : Numbered 0 body) :
      Numbered 0 ("[math]".toList ++ body ++ "[/math]".toList) :=
    ((Blocks.of_plain (by decide)).append hbody).append (.of_plain (by decide))
  have hshelved : putIn (keptSource cs) (shelveMath (escapeChars cs)).1 =
      putIn (keptSource cs) (replaceMarked
        (fun body => "[math]".toList ++ body ++ "[/math]".toList)
        (pieces (between "[math]" "[/math]") (escapeChars cs))) := by
    refine putIn_shelve (fun _ => hwritten) (pieced_formulas h) [] fun i body hi => ?_
    have hbody := (pieced_formulas h).of_mem_marksOf body (List.mem_of_getElem? hi)
    rw [putIn_of_not_mem _ (not_mem_of_numbered_zero (hwritten hbody)), List.length_nil,
      Nat.zero_add]
    exact keptSource_formula hi
  have hopens : "[math]".toList = '[' :: "math]".toList := rfl
  rw [hshelved, replaceMarked_between hopens, putIn_of_not_mem _ (not_mem_nul_escapeChars h)]

/-- What stood in the place of a number before: a formula, or code that may have formulas
in it. -/
theorem putIn_shelved {cs : List Char} (h : '\x00' ∉ cs) :
    putIn (keptSource cs) (shelved cs).1 = escapeChars cs := by
  have hmark (n : Nat) : Numbered n "\x60".toList := .of_plain (by decide)
  have hplain : putIn (keptSource cs) "\x60".toList = "\x60".toList :=
    putIn_of_not_mem _ (by decide)
  have hshelved : putIn (keptSource cs) (shelved cs).1 =
      putIn (keptSource cs) (replaceMarked (fun body => "\x60".toList ++ body ++ "\x60".toList)
        (pieces (between "\x60" "\x60") (shelveMath (escapeChars cs)).1)) := by
    refine putIn_shelve (fun _ hbody => ((hmark _).append hbody).append (hmark _))
      (pieced_code h) _ fun i body hi => ?_
    have hbody := (pieced_code h).of_mem_marksOf body (List.mem_of_getElem? hi)
    have hformulas : putIn (keptSource cs) body = putIn (formulaSource cs) body :=
      putIn_congr hbody fun k hk => if_pos (length_shelveMath cs ▸ hk)
    rw [putIn_append _ ((hmark _).append hbody), putIn_append _ (hmark 0), hformulas, hplain,
      length_shelveMath]
    exact keptSource_code hi
  have hopens : "\x60".toList = ['\x60'] := rfl
  rw [hshelved, replaceMarked_between hopens, putIn_shelveMath h]

/-- All that is kept from the markup of a text without NUL characters comes back. -/
theorem bringsBack_of_not_mem {cs out : List Char} (h : '\x00' ∉ cs) (hmax : cs.length ≤ maxIndex)
    (hout : proseChars cs = .ok out) : BringsBack cs out where
  source := putIn_shelved h
  known := by
    intro digits hdigits
    obtain ⟨k, hk, rfl⟩ := mem_numbers (numbered_shelved h) digits hdigits
    rwa [readDecimal_toString, ← shelved_snd]
  sameNumbers := (sameNumbers_markedUp (numbered_shelved h)).eq
  result := by
    have hle := Nat.le_trans (length_shelved_le cs) hmax
    have hnumbered := (sameNumbers_markedUp (numbered_shelved h)).left
    rw [eq_broughtBack hout, broughtBack_eq_putIn hnumbered hle, shelved_snd]

theorem nul_mem_code {cs : List Char} : '\x00' ∈ element "code" cs ↔ '\x00' ∈ cs := by
  rw [element, List.mem_append, List.mem_append, or_iff_left (by decide), or_iff_right (by decide)]

/-- The number of a piece of code stands in the text, and it finds the code. -/
theorem exists_number_of_code {cs code : List Char} (h : '\x00' ∉ cs) (hcode : code ∈ codeIn cs) :
    ∃ k : Nat, (toString k).toList ∈ numbers (shelved cs).1 ∧
      (keptIn cs)[k]? = some (element "code" code) := by
  obtain ⟨i, hi, hget⟩ := List.getElem_of_mem hcode
  refine ⟨_, length_shelveMath cs ▸ mem_numbers_shelve _ (pieced_code h) _ hi, ?_⟩
  rw [keptIn, List.getElem?_append_right (by rw [List.length_map]; omega), List.length_map,
    Nat.add_sub_cancel_left, List.getElem?_map, List.getElem?_eq_getElem hi, hget, Option.map_some]

/-- Prose of a text without NUL characters has one just if there is a formula in its
code. -/
theorem BringsBack.nul_mem_iff {cs out : List Char} (h : BringsBack cs out) (hnul : '\x00' ∉ cs) :
    '\x00' ∈ out ↔ FormulaInCode cs := by
  have hnumbered := (sameNumbers_markedUp (numbered_shelved hnul)).left
  rw [h.result, nul_mem_putIn hnumbered, h.sameNumbers]
  constructor
  · rintro ⟨digits, hdigits, hmem⟩
    obtain ⟨item, hitem⟩ : ∃ item, (keptIn cs)[readDecimal digits]? = some item :=
      ⟨_, List.getElem?_eq_getElem (h.known digits hdigits)⟩
    rw [hitem, Option.getD_some] at hmem
    have hkept := List.mem_of_getElem? hitem
    rw [keptIn, List.mem_append, List.mem_map, List.mem_map] at hkept
    rcases hkept with ⟨body, hbody, he⟩ | ⟨code, hcode, he⟩
    · exact absurd (he ▸ hmem) (not_mem_nul_formula hnul hbody)
    · exact ⟨code, hcode, nul_mem_code.1 (he ▸ hmem)⟩
  · rintro ⟨code, hcode, hmem⟩
    obtain ⟨k, hnumber, hget⟩ := exists_number_of_code hnul hcode
    refine ⟨_, hnumber, ?_⟩
    rw [readDecimal_toString, hget, Option.getD_some]
    exact nul_mem_code.2 hmem

/-- A text without NUL characters is shown, and all that is kept from its markup comes
back. What comes back is not looked at again, so NUL characters are shown if and only if
there is a formula in the code of the text: its number, instead of the formula. -/
theorem prose_nul_iff_formulaInCode {s : String} (h : '\x00' ∉ s.toList)
    (hmax : s.toList.length ≤ maxIndex) :
    ∃ out, prose s = .ok out ∧ BringsBack s.toList out.toList ∧
      ('\x00' ∈ out.toList ↔ FormulaInCode s.toList) := by
  obtain ⟨cs, hcs⟩ := proseChars_isOk_iff.2 (restorable_of_not_mem h hmax)
  have hback := bringsBack_of_not_mem h hmax hcs
  refine ⟨String.ofList cs, ?_, ?_, ?_⟩
  · rw [prose, hcs]
    rfl
  · rwa [String.toList_ofList]
  · rw [String.toList_ofList]
    exact hback.nul_mem_iff h

/-- A formula beside a piece of code, with marks and digits around the two. -/
theorem prose_nul_iff_formulaInCode_beside :
    '\x00' ∉ "*1[math]x[/math]2_\x60y\x60_*".toList ∧
      ∃ out, prose "*1[math]x[/math]2_\x60y\x60_*" = .ok out ∧
        BringsBack "*1[math]x[/math]2_\x60y\x60_*".toList out.toList ∧ '\x00' ∉ out.toList := by
  have hnul : '\x00' ∉ "*1[math]x[/math]2_\x60y\x60_*".toList := by decide
  obtain ⟨out, hout, hback, hiff⟩ := prose_nul_iff_formulaInCode hnul (by decide)
  exact ⟨hnul, out, hout, hback, mt hiff.1 (by decide +kernel)⟩

/-- A formula in code: what stands for it is shown. -/
theorem formula_in_code_lost :
    '\x00' ∉ "\x60[math]x[/math]\x60".toList ∧
      prose "\x60[math]x[/math]\x60" = .ok "<code>\x000\x00</code>" ∧
      '\x00' ∈ "<code>\x000\x00</code>".toList := by
  decide +kernel

end DocComment.Html
