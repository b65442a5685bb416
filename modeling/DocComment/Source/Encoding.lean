/-!
# Bytes as characters

Two encodings: one byte for each character, and UTF-8. Malformed UTF-8 is never passed
over: decoding stops at the first byte that cannot stand where it stands. Every character
comes with the place of its last byte, so that one can tell how much of a text was there
before a given byte was read.
-/

namespace DocComment.Source

inductive Encoding where
  | utf8
  /-- Every byte is the character of that number. -/
  | latin1
  deriving DecidableEq, Repr

/-- How decoding ended. -/
inductive Ending where
  | complete
  /-- Within a character. -/
  | truncated
  /-- At a byte that cannot stand at its place. -/
  | malformed (place : Nat)
  deriving DecidableEq, Repr

/-- A character of which some bytes have been read: how many are missing, between which
bounds the next one lies, and the number that the bytes so far stand for. -/
structure Partial where
  missing : Nat
  low : Nat
  high : Nat
  code : Nat

/-- What a first byte starts: a character of its own, or one of several bytes. The bounds
keep out characters that have a shorter form and numbers that are no characters. -/
def firstByte (b : Nat) : Option (Char ⊕ Partial) :=
  if b < 0x80 then some (.inl (Char.ofNat b))
  else if b < 0xc2 then none
  else if b < 0xe0 then some (.inr ⟨1, 0x80, 0xbf, b % 0x20⟩)
  else if b < 0xf0 then
    some (.inr ⟨2, if b = 0xe0 then 0xa0 else 0x80, 0xbf, b % 0x10⟩)
  else if b < 0xf5 then
    some (.inr ⟨3, if b = 0xf0 then 0x90 else 0x80, if b = 0xf4 then 0x8f else 0xbf, b % 0x08⟩)
  else none

/-- Whether two bytes of three start half of a surrogate pair, which is no character. -/
def isHalfPair (code : Nat) : Bool :=
  0xd800 / 0x40 ≤ code && code < 0xe000 / 0x40

/-- What a further byte makes of a character that has been started. Half of a surrogate
pair is refused at its last byte: no byte lies between the bounds that are set for it. -/
def nextByte (p : Partial) (b : Nat) : Option (Char ⊕ Partial) :=
  if p.low ≤ b && b ≤ p.high then
    let code := p.code * 0x40 + b % 0x40
    if p.missing ≤ 1 then some (.inl (Char.ofNat code))
    else some (.inr ⟨p.missing - 1, if isHalfPair code then 0xc0 else 0x80, 0xbf, code⟩)
  else none

/-- Characters with the places of their last bytes, and how the decoding of UTF-8
ended. -/
def decodeUtf8 (place : Nat) (started : Option Partial) : List UInt8 → List (Char × Nat) × Ending
  | [] => ([], if started.isSome then .truncated else .complete)
  | b :: bs =>
    let step := match started with
      | none => firstByte b.toNat
      | some p => nextByte p b.toNat
    match step with
    | none => ([], .malformed place)
    | some (.inr p) => decodeUtf8 (place + 1) (some p) bs
    | some (.inl c) =>
      let (cs, ending) := decodeUtf8 (place + 1) none bs
      ((c, place) :: cs, ending)

/-- Characters with the places of their last bytes, and how the decoding ended. -/
def Encoding.decode (e : Encoding) (bytes : List UInt8) : List (Char × Nat) × Ending :=
  match e with
  | utf8 => decodeUtf8 0 none bytes
  | latin1 => (bytes.map (Char.ofNat ·.toNat)).zipIdx |> (·, .complete)

end DocComment.Source
