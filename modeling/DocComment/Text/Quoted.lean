import DocComment.Text.Digit
import DocComment.Text.PrintableTable
import DocComment.Text.Ranges

/-!
# Texts in quotes

A text as it is shown in a message: between quotes, on one line, with everything that has
no picture of its own written as an escape.
-/

namespace DocComment.Text

/-- Whether a character is shown as itself. -/
def isPrintable (c : Char) : Bool :=
  !inRanges unprintableRanges c.toNat

/-- The quotes around a text: single ones, unless the text holds such and no double
ones. -/
def quoteFor (cs : List Char) : Char :=
  if cs.contains '\x27' && !cs.contains '"' then '"' else '\x27'

/-- The escape of a character by its number, which has two, four or eight hexadecimal
digits. -/
def numberEscape (c : Char) : List Char :=
  if c.toNat < 0x100 then '\\' :: 'x' :: hex 2 c.toNat
  else if c.toNat < 0x10000 then '\\' :: 'u' :: hex 4 c.toNat
  else '\\' :: 'U' :: hex 8 c.toNat

/-- One character between the given quotes, where `shown` says which are shown as
themselves. -/
def quotedChar (shown : Char → Bool) (quote c : Char) : List Char :=
  if c = quote || c = '\\' then ['\\', c]
  else if c = '\n' then ['\\', 'n']
  else if c = '\r' then ['\\', 'r']
  else if c = '\t' then ['\\', 't']
  else if shown c then [c]
  else numberEscape c

/-- A text between quotes, where `shown` says which characters are shown as themselves. -/
def quotedWith (shown : Char → Bool) (cs : List Char) : List Char :=
  quoteFor cs :: cs.flatMap (quotedChar shown (quoteFor cs)) ++ [quoteFor cs]

/-- A text between quotes. -/
def quotedChars (cs : List Char) : List Char :=
  quotedWith isPrintable cs

@[inherit_doc quotedChars] def quoted (s : String) : String :=
  String.ofList (quotedChars s.toList)

/-- A text between quotes in ASCII alone: every character beyond it is escaped. -/
def quotedAscii (cs : List Char) : List Char :=
  quotedWith (fun c => c.toNat < 0x80 && isPrintable c) cs

end DocComment.Text
