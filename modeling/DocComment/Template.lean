import DocComment.Fault
import DocComment.Text.Digit
import DocComment.Text.Quoted

/-!
# Templates

A template is a message with one slot, the place where a text is shown. It is written as a
text in which the slot starts with a percent sign and ends with a letter:

- `s` shows the text as it is, `r` in quotes, `a` in quotes and in ASCII alone, and `c`
  takes a text of one character;
- before the letter may stand flags, a width, a point with a limit, and one of the letters
  `h`, `l` and `L`, which says nothing. A text beyond the limit is cut, one short of the
  width is filled up with blanks, on the right if `-` is among the flags. The other flags
  matter to numbers only.

Two percent signs outside the slot stand for one.
-/

namespace DocComment

open Text

/-- How a slot shows a text. -/
inductive Showing where
  | plain
  | quoted
  | ascii
  deriving DecidableEq, Repr

/-- The place of a text in a template. -/
structure Slot where
  showing : Showing := .plain
  /-- The most characters that are shown. -/
  limit : Option Nat := none
  /-- The fewest characters that the slot takes. -/
  width : Nat := 0
  /-- Whether the text stands at the left end of a slot that is wider. -/
  left : Bool := false
  deriving DecidableEq, Repr

/-- A message with a slot between two texts. -/
structure Template where
  before : String
  slot : Slot := {}
  after : String
  deriving DecidableEq, Repr

/-- A text as it is shown, before it is cut and filled up. -/
def Showing.apply : Showing → List Char → List Char
  | plain, cs => cs
  | quoted, cs => quotedChars cs
  | ascii, cs => quotedAscii cs

namespace Slot

/-- What the limit leaves of a text. -/
def cut (s : Slot) (cs : List Char) : List Char :=
  match s.limit with
  | none => cs
  | some n => cs.take n

/-- A text with the blanks that fill up the slot. -/
def pad (s : Slot) (cs : List Char) : List Char :=
  let blanks := List.replicate (s.width - cs.length) ' '
  if s.left then cs ++ blanks else blanks ++ cs

/-- What the slot shows of a text. Quotes count as characters of the text. -/
def fill (s : Slot) (cs : List Char) : List Char :=
  s.pad (s.cut (s.showing.apply cs))

theorem length_pad (s : Slot) (cs : List Char) : (s.pad cs).length = max s.width cs.length := by
  unfold pad
  split <;> simp <;> omega

/-- A slot takes its width at least. -/
theorem width_le_length_fill (s : Slot) (cs : List Char) : s.width ≤ (s.fill cs).length := by
  rw [fill, length_pad]
  exact Nat.le_max_left ..

/-- A slot that asks for nothing shows the text as it is. -/
@[simp] theorem fill_default (cs : List Char) : ({} : Slot).fill cs = cs := by
  simp [fill, pad, cut, Showing.apply]

end Slot

namespace Template

/-- The message with the text in its slot. -/
def fill (t : Template) (text : String) : String :=
  t.before ++ String.ofList (t.slot.fill text.toList) ++ t.after

/-- What stands before the first slot, with two percent signs as one, and what follows the
percent sign of the slot, if there is a slot. -/
def upToSlot : List Char → List Char × Option (List Char)
  | [] => ([], none)
  | '%' :: '%' :: cs => let (before, rest) := upToSlot cs; ('%' :: before, rest)
  | '%' :: cs => ([], some cs)
  | c :: cs => let (before, rest) := upToSlot cs; (c :: before, rest)

/-- The flags of a slot. -/
def flags : List Char := ['-', '+', ' ', '#', '0']

/-- The greatest limit that a slot may have. -/
def maxLimit : Nat := 0x7fffffff

/-- A number of at most `most`, or zero where no digit stands, and what follows it. -/
def readNumber (most : Nat) (tooLarge : TemplateCause) (cs : List Char) :
    Except TemplateCause (Nat × List Char) :=
  if cs.head? = some '*' then .error .starred
  else
    let n := readDecimal (cs.takeWhile Char.isDigit)
    if n ≤ most then .ok (n, cs.dropWhile Char.isDigit) else .error tooLarge

/-- A limit, which starts with a point, and what follows it. -/
def readLimit : List Char → Except TemplateCause (Option Nat × List Char)
  | '.' :: cs => do
    let (n, rest) ← readNumber maxLimit .limitTooLarge cs
    return (some n, rest)
  | cs => .ok (none, cs)

/-- Leaves out a letter that says nothing. -/
def skipSize : List Char → List Char
  | 'h' :: cs | 'l' :: cs | 'L' :: cs => cs
  | cs => cs

/-- The slot after whose percent sign a text stands, its letter, and what follows it. How
the slot shows a text is left to the letter. -/
def readSlot (cs : List Char) : Except TemplateCause (Slot × Char × List Char) := do
  if cs.head? = some '(' then throw .named
  let left := (cs.takeWhile flags.contains).contains '-'
  let (width, rest) ← readNumber maxIndex .widthTooLarge (cs.dropWhile flags.contains)
  let (limit, rest) ← readLimit rest
  match skipSize rest with
  | [] => throw .unfinished
  | letter :: rest => return ({ limit, width, left }, letter, rest)

/-- The slot that shows the given text as its letter says. The letter stands at
`index`. -/
def applyLetter (slot : Slot) (letter : Char) (index : Nat) (text : List Char) :
    Except TemplateCause Slot :=
  match letter with
  | 's' => .ok slot
  | 'r' => .ok { slot with showing := .quoted }
  | 'a' => .ok { slot with showing := .ascii }
  | 'c' => if text.length = 1 then .ok { slot with limit := none } else .error .notSingle
  | _ =>
    if "diuoxXeEfFgG".toList.contains letter then .error (.notNumber letter)
    else .error (.unknownLetter letter index)

/-- What is wrong with a second slot: that it is there, unless its own fault comes
first. -/
def secondSlot (cs : List Char) : TemplateCause :=
  match readSlot cs with
  | .error .starred | .ok _ => .manySlots
  | .error cause => cause

/-- Reads a template that is to show the given text. Of several faults the leftmost one
counts. -/
def readChars (template text : List Char) : Except TemplateCause Template := do
  let (before, some inSlot) := upToSlot template | throw .noSlot
  let (slot, letter, rest) ← readSlot inSlot
  let slot ← applyLetter slot letter (template.length - rest.length - 1) text
  match upToSlot rest with
  | (after, none) =>
    return { before := String.ofList before, slot, after := String.ofList after }
  | (_, some inSecond) => throw (secondSlot inSecond)

@[inherit_doc readChars] def read (template text : String) : Except Fault Template :=
  (readChars template.toList text.toList).mapError .template

end Template

end DocComment
