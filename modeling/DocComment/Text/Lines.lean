import DocComment.Text.Blank

/-!
# Lines of a text

A text falls into lines at its line breaks. A carriage return followed by a line feed is
one break, and what stands after the last break is a line only if it is not empty.
-/

namespace DocComment.Text

/-- The line breaks of plain text files. -/
def isNewline (c : Char) : Bool :=
  c = '\n' || c = '\r'

/-- A line without the line breaks at its end. -/
def dropLineEnd (s : String) : String :=
  onChars (dropEndWhile isNewline) s

/-- Every character that starts a new line, the separators of old terminals and of Unicode
included. -/
def isLineBreak (c : Char) : Bool :=
  isNewline c || c = '\x0b' || c = '\x0c' || c = '\x1c' || c = '\x1d' || c = '\x1e' || c = '\x85' ||
    c = '\u2028' || c = '\u2029'

/-- The lines of a text without their breaks. -/
def breakLines (isBreak : Char → Bool) : List Char → List (List Char)
  | [] => []
  | '\r' :: '\n' :: cs => [] :: breakLines isBreak cs
  | c :: cs =>
    if isBreak c then [] :: breakLines isBreak cs
    else
      match breakLines isBreak cs with
      | [] => [[c]]
      | line :: lines => (c :: line) :: lines

/-- The lines of a text held in memory. -/
def lines (s : String) : List String :=
  (breakLines isLineBreak s.toList).map String.ofList

/-- The lines of a text file. -/
def fileLines (cs : List Char) : List String :=
  (breakLines isNewline cs).map String.ofList

end DocComment.Text
