import DocComment.Json.Basic
import DocComment.Text.Digit

/-!
# Printing JSON

Values as text in ASCII, on one line or with one item on each line. A character beyond
ASCII is written as an escape, and one beyond the first 65536 as a surrogate pair.
-/

namespace DocComment.Json

open Text

/-- How the items of arrays and objects are set apart. -/
inductive Layout where
  /-- All on one line, with a space after each comma. -/
  | oneLine
  /-- Each on its own line, indented by a number of spaces for each level. -/
  | indented (width : Nat)
  deriving DecidableEq, Repr

/-- An escape for a code unit. -/
def unitEscape (n : Nat) : List Char :=
  '\\' :: 'u' :: hex 4 n

/-- A character within a text. -/
def escapeChar (c : Char) : List Char :=
  if c = '"' then ['\\', '"']
  else if c = '\\' then ['\\', '\\']
  else if c = '\n' then ['\\', 'n']
  else if c = '\r' then ['\\', 'r']
  else if c = '\t' then ['\\', 't']
  else if c = '\x08' then ['\\', 'b']
  else if c = '\x0c' then ['\\', 'f']
  else if ' ' ≤ c && c ≤ '~' then [c]
  else if c.toNat < 0x10000 then unitEscape c.toNat
  else
    unitEscape (0xd800 + (c.toNat - 0x10000) / 0x400)
      ++ unitEscape (0xdc00 + (c.toNat - 0x10000) % 0x400)

/-- A text in quotes. -/
def printString (s : String) : List Char :=
  '"' :: s.toList.flatMap escapeChar ++ ['"']

/-- The start of a line at a level, or nothing on one line. -/
def Layout.newline : Layout → Nat → List Char
  | oneLine, _ => []
  | indented width, level => '\n' :: List.replicate (width * level) ' '

/-- What stands between two items at a level. -/
def Layout.comma : Layout → Nat → List Char
  | oneLine, _ => [',', ' ']
  | indented width, level => ',' :: (indented width).newline level

mutual

/-- A value at a level. -/
def print (layout : Layout) (level : Nat) : Json → List Char
  | null => "null".toList
  | bool true => "true".toList
  | bool false => "false".toList
  | int n => (toString n).toList
  | str s => printString s
  | arr [] => ['[', ']']
  | arr (j :: js) =>
    '[' :: layout.newline (level + 1) ++ j.print layout (level + 1) ++ printItems layout level js
      ++ layout.newline level ++ [']']
  | obj [] => ['\x7b', '\x7d']
  | obj ((k, j) :: ms) =>
    '\x7b' :: layout.newline (level + 1) ++ printString k ++ [':', ' ']
      ++ j.print layout (level + 1) ++ printMembers layout level ms ++ layout.newline level
      ++ ['\x7d']

/-- The items of an array after the first, each with the comma before it. -/
def printItems (layout : Layout) (level : Nat) : List Json → List Char
  | [] => []
  | j :: js =>
    layout.comma (level + 1) ++ j.print layout (level + 1) ++ printItems layout level js

/-- The members of an object after the first, each with the comma before it. -/
def printMembers (layout : Layout) (level : Nat) : List (String × Json) → List Char
  | [] => []
  | (k, j) :: ms =>
    layout.comma (level + 1) ++ printString k ++ [':', ' '] ++ j.print layout (level + 1)
      ++ printMembers layout level ms

end

/-- A value as text. -/
def text (layout : Layout) (j : Json) : String :=
  String.ofList (j.print layout 0)

/-- The layout for an optional width of indentation; a negative width counts as none. -/
def Layout.ofIndent : Option Int → Layout
  | none => oneLine
  | some width => indented width.toNat

end DocComment.Json
