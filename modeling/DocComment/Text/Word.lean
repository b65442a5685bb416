import DocComment.Text.WordTable
import DocComment.Text.Ranges

/-!
# Word characters

Letters, numbers and the underscore: the characters that names are written with.
-/

namespace DocComment.Text

/-- A letter, a number or the underscore, of any script. -/
def isWord (c : Char) : Bool :=
  c.isAlphanum || c = '_' || (128 ≤ c.toNat && inRanges wordRanges c.toNat)

theorem isWord_of_isAlphanum {c : Char} (h : c.isAlphanum) : isWord c := by
  simp [isWord, h]

end DocComment.Text
