import DocComment.Source.Encoding
import DocComment.Text.Lines

/-!
# Text files

A file is read in blocks, and its lines are handed on while it is being read. If a block
cannot be decoded, the lines that were complete before it have been handed on already, and
the fault comes after them.
-/

namespace DocComment.Source

open Text

/-- The size of a block in bytes. -/
def blockSize : Nat := 8192

/-- The lines of a file that could be read, and whether that was all of it. -/
structure FileLines where
  lines : List String
  complete : Bool
  deriving DecidableEq, Repr

/-- The part of a text that is made of complete lines. A carriage return at the end does
not complete one, as a line feed may follow it. -/
def completeLines (cs : List Char) : List Char :=
  let cs := if cs.getLast? = some '\r' then cs.dropLast else cs
  dropEndWhile (!isNewline ·) cs

/-- Reads a file. -/
def readFile (e : Encoding) (bytes : List UInt8) : FileLines :=
  let (cs, ending) := e.decode bytes
  match ending with
  | .complete => ⟨fileLines (cs.map (·.1)), true⟩
  | .truncated => ⟨fileLines (completeLines (cs.map (·.1))), false⟩
  | .malformed place =>
    let before := cs.filter (·.2 < place / blockSize * blockSize)
    ⟨fileLines (completeLines (before.map (·.1))), false⟩

end DocComment.Source
