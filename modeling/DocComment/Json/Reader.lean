import DocComment.Json.Basic
import DocComment.Text.Digit

/-!
# Reading JSON

The inverse of printing, for any layout. Numbers are whole numbers, and an escape for one
half of a surrogate pair alone is refused, as it stands for no character.

The functions on values call one another; each call has less text before it, so the length
of the text bounds their number.
-/

namespace DocComment.Json

open Text

/-- Blanks between tokens. -/
def isSpace (c : Char) : Bool :=
  c = ' ' || c = '\n' || c = '\r' || c = '\t'

/-- The rest of a text after the blanks at its start. -/
def skipSpace (cs : List Char) : List Char :=
  cs.dropWhile isSpace

/-- The rest of a text after a fixed start. -/
def expect : List Char → List Char → Option (List Char)
  | [], cs => some cs
  | t :: ts, c :: cs => if t = c then expect ts cs else none
  | _ :: _, [] => none

/-- The value of a hexadecimal digit. -/
def hexValue? (c : Char) : Option Nat :=
  if c.isDigit then some (c.toNat - '0'.toNat)
  else if 'a' ≤ c && c ≤ 'f' then some (c.toNat - 'a'.toNat + 10)
  else if 'A' ≤ c && c ≤ 'F' then some (c.toNat - 'A'.toNat + 10)
  else none

/-- The code unit of four hexadecimal digits. -/
def unitValue? (a b c d : Char) : Option Nat := do
  let a ← hexValue? a
  let b ← hexValue? b
  let c ← hexValue? c
  let d ← hexValue? d
  return ((a * 16 + b) * 16 + c) * 16 + d

/-- The character that a backslash and a letter stand for. -/
def plainEscape? (c : Char) : Option Char :=
  match c with
  | '"' => some '"'
  | '\\' => some '\\'
  | '/' => some '/'
  | 'n' => some '\n'
  | 'r' => some '\r'
  | 't' => some '\t'
  | 'b' => some '\x08'
  | 'f' => some '\x0c'
  | _ => none

/-- The first half of a surrogate pair. -/
def isHighUnit (n : Nat) : Bool :=
  0xd800 ≤ n && n < 0xdc00

/-- The second half of a surrogate pair. -/
def isLowUnit (n : Nat) : Bool :=
  0xdc00 ≤ n && n < 0xe000

/-- The characters of a text up to its closing quote, and what follows the quote. -/
def readString : List Char → Option (List Char × List Char)
  | [] => none
  | '"' :: cs => some ([], cs)
  | '\\' :: 'u' :: a :: b :: c :: d :: '\\' :: 'u' :: a' :: b' :: c' :: d' :: cs =>
    match unitValue? a b c d, unitValue? a' b' c' d' with
    | some high, some low =>
      if isHighUnit high then
        if isLowUnit low then
          (readString cs).map fun (s, rest) =>
            (Char.ofNat (0x10000 + (high - 0xd800) * 0x400 + (low - 0xdc00)) :: s, rest)
        else none
      else if isLowUnit high then none
      else
        (readString ('\\' :: 'u' :: a' :: b' :: c' :: d' :: cs)).map fun (s, rest) =>
          (Char.ofNat high :: s, rest)
    | _, _ => none
  | '\\' :: 'u' :: a :: b :: c :: d :: cs =>
    match unitValue? a b c d with
    | some unit =>
      if isHighUnit unit || isLowUnit unit then none
      else (readString cs).map fun (s, rest) => (Char.ofNat unit :: s, rest)
    | none => none
  | '\\' :: e :: cs =>
    match plainEscape? e with
    | some c => (readString cs).map fun (s, rest) => (c :: s, rest)
    | none => none
  | c :: cs =>
    if c.toNat < 0x20 || c = '\\' then none
    else (readString cs).map fun (s, rest) => (c :: s, rest)

/-- A whole number and what follows it. Only the number zero starts with a zero. -/
def readNatural (cs : List Char) : Option (Nat × List Char) :=
  let digits := cs.takeWhile Char.isDigit
  match digits with
  | [] => none
  | ['0'] => some (0, cs.drop 1)
  | '0' :: _ => none
  | ds => some (readDecimal ds, cs.dropWhile Char.isDigit)

mutual

/-- A value at the start of a text, and what follows it. -/
def readValue : Nat → List Char → Option (Json × List Char)
  | 0, _ => none
  | fuel + 1, cs =>
    match skipSpace cs with
    | '"' :: cs => (readString cs).map fun (s, rest) => (str (String.ofList s), rest)
    | '[' :: cs =>
      match skipSpace cs with
      | ']' :: rest => some (arr [], rest)
      | cs => (readItems fuel cs).map fun (js, rest) => (arr js, rest)
    | '\x7b' :: cs =>
      match skipSpace cs with
      | '\x7d' :: rest => some (obj [], rest)
      | cs => (readMembers fuel cs).map fun (ms, rest) => (obj ms, rest)
    | '-' :: cs => (readNatural cs).map fun (n, rest) => (int (-n), rest)
    | 'n' :: cs => (expect "ull".toList cs).map fun rest => (null, rest)
    | 't' :: cs => (expect "rue".toList cs).map fun rest => (bool true, rest)
    | 'f' :: cs => (expect "alse".toList cs).map fun rest => (bool false, rest)
    | cs => (readNatural cs).map fun (n, rest) => (int n, rest)

/-- The items of an array up to its end. -/
def readItems : Nat → List Char → Option (List Json × List Char)
  | 0, _ => none
  | fuel + 1, cs => do
    let (j, cs) ← readValue fuel cs
    match skipSpace cs with
    | ',' :: cs => (readItems fuel cs).map fun (js, rest) => (j :: js, rest)
    | ']' :: rest => some ([j], rest)
    | _ => none

/-- The members of an object up to its end. -/
def readMembers : Nat → List Char → Option (List (String × Json) × List Char)
  | 0, _ => none
  | fuel + 1, cs => do
    let '"' :: cs := skipSpace cs | none
    let (k, cs) ← readString cs
    let ':' :: cs := skipSpace cs | none
    let (j, cs) ← readValue fuel cs
    let m := (String.ofList k, j)
    match skipSpace cs with
    | ',' :: cs => (readMembers fuel cs).map fun (ms, rest) => (m :: ms, rest)
    | '\x7d' :: rest => some ([m], rest)
    | _ => none

end

/-- The value that a text spells, if it spells one. -/
def ofText? (s : String) : Option Json :=
  match readValue (s.toList.length + 1) s.toList with
  | some (j, rest) => if (skipSpace rest).isEmpty then some j else none
  | none => none

end DocComment.Json
