import DocComment.Text.Ranges

/-!
# Blanks at the ends of a text

Which characters count as blank, and texts without the blanks, or other characters, at
their ends. Every text function of the library has its definition on lists of characters,
where a proof can follow it, and a form on strings beside it.
-/

namespace DocComment.Text

/-- A function on characters, applied to a string. -/
def onChars (f : List Char → List Char) (s : String) : String :=
  String.ofList (f s.toList)

@[simp] theorem toList_onChars (f : List Char → List Char) (s : String) :
    (onChars f s).toList = f s.toList := by
  simp [onChars]

/-- The spaces, tabs and line ends of all scripts. -/
def blankRanges : List (Nat × Nat) :=
  [(0x9, 0xd), (0x1c, 0x20), (0x85, 0x85), (0xa0, 0xa0), (0x1680, 0x1680), (0x2000, 0x200a),
   (0x2028, 0x2029), (0x202f, 0x202f), (0x205f, 0x205f), (0x3000, 0x3000)]

/-- Whether a character shows nothing and separates words. -/
def isBlank (c : Char) : Bool :=
  inRanges blankRanges c.toNat

theorem isBlank_of_isWhitespace {c : Char} (h : c.isWhitespace) : isBlank c := by
  simp only [Char.isWhitespace, Bool.or_eq_true, decide_eq_true_eq] at h
  rcases h with ((rfl | rfl) | rfl) | rfl <;> decide

/-- A space or a tab, the only characters that count as indentation. -/
def isIndent (c : Char) : Bool :=
  c = ' ' || c = '\t'

/-- The list without the longest run at its end whose members all pass the test. -/
def dropEndWhile (p : Char → Bool) : List Char → List Char
  | [] => []
  | c :: cs =>
    match dropEndWhile p cs with
    | [] => if p c then [] else [c]
    | d :: ds => c :: d :: ds

/-- A text without the blanks at both ends. -/
def trimChars (cs : List Char) : List Char :=
  dropEndWhile isBlank (cs.dropWhile isBlank)

@[inherit_doc trimChars] def trim (s : String) : String :=
  onChars trimChars s

/-- Whether a text shows nothing. -/
def isBlankText (s : String) : Bool :=
  s.toList.all isBlank

/-- A text without the line feeds at its end. -/
def dropFinalNewlines (s : String) : String :=
  onChars (dropEndWhile (· = '\n')) s

theorem dropEndWhile_append_of_all {p : Char → Bool} {cs ds : List Char} (h : ds.all p) :
    dropEndWhile p (cs ++ ds) = dropEndWhile p cs := by
  induction cs with
  | nil =>
    induction ds with
    | nil => rfl
    | cons d ds ih =>
      simp only [List.all_cons, Bool.and_eq_true] at h
      simp only [List.nil_append] at ih ⊢
      simp [dropEndWhile, ih h.2, h.1]
  | cons c cs ih => simp [dropEndWhile, ih]

/-- The last character left is one that does not pass the test. -/
theorem getLast?_dropEndWhile {p : Char → Bool} {cs : List Char} {c : Char}
    (h : (dropEndWhile p cs).getLast? = some c) : p c = false := by
  induction cs with
  | nil => simp [dropEndWhile] at h
  | cons d ds ih =>
    unfold dropEndWhile at h
    split at h
    · split at h
      · simp at h
      · simp_all
    · next e es heq =>
      rw [heq] at ih
      exact ih (by simpa using h)

end DocComment.Text
