/-!
# Texts made of parts

A text that grows part by part. Empty parts are not kept.
-/

namespace DocComment.Text

/-- The parts of a text, in order. -/
structure Parts where
  parts : List String := []

namespace Parts

/-- Adds a part, unless it is empty. -/
def append (p : Parts) (s : String) : Parts :=
  if s.isEmpty then p else ⟨p.parts ++ [s]⟩

/-- Adds a part, unless it is empty, and a line feed. -/
def appendLine (p : Parts) (s : String) : Parts :=
  (p.append s).append "\n"

/-- The whole text. -/
def text (p : Parts) : String :=
  String.join p.parts

/-- The number of parts, line feeds included. -/
def size (p : Parts) : Nat :=
  p.parts.length

end Parts

end DocComment.Text
