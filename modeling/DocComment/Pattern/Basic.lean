import DocComment.Text.Word

/-!
# Line patterns

What the rules of a grammar match lines with. A pattern is read from the start of a line.
A run of characters takes as many as it can, a lazy run as few as it can, and where the
rest of the pattern then fails, the reading comes back and tries the next length; the
first reading found is the one that counts.

`Pattern.follow` is that search. It is told what to do after the pattern has been read, so
a sequence hands the reading of its second part to the first, and going back is no more
than the second arm of `<|>`. It recurses on the pattern and, for a run, on the line, so
it ends on every input.
-/

namespace DocComment

open Text

/-- A place in a line: the character just before it and all that follows. -/
structure Spot where
  before : Option Char
  rest : List Char

/-- What a capture spans: the line from its start on and the line from its end on. -/
structure Mark where
  start : List Char
  stop : List Char

/-- The captured characters. -/
def Mark.text (m : Mark) : String :=
  String.ofList (m.start.take (m.start.length - m.stop.length))

/-- The captures set so far by number, the latest first. -/
abbrev Marks := List (Nat × Mark)

/-- The captures of a line by number; one that took no part in the reading is absent. -/
abbrev Captures := List (Option String)

namespace Captures

/-- Whether a capture took part and holds at least one character. -/
def filled (captures : Captures) (i : Nat) : Bool :=
  match captures[i]? with
  | some (some s) => !s.isEmpty
  | _ => false

/-- The text of a capture, empty if it took no part. -/
def text (captures : Captures) (i : Nat) : String :=
  (captures[i]?.getD none).getD ""

end Captures

/-- A pattern for the start of a line. -/
inductive Pattern where
  /-- Nothing at all; it matches everywhere. -/
  | empty
  /-- One character of a class. -/
  | one (p : Char → Bool)
  /-- A fixed text. -/
  | lit (text : String)
  /-- At least `least` characters of a class, as many as possible. -/
  | run (p : Char → Bool) (least : Nat)
  /-- Characters of a class, as few as possible. -/
  | lazyRun (p : Char → Bool)
  /-- One pattern after the other. -/
  | seq (first second : Pattern)
  /-- The first pattern or, failing that, the second. -/
  | either (first second : Pattern)
  /-- A pattern whose text is remembered under a number. -/
  | capture (index : Nat) (inner : Pattern)
  /-- A place where the pattern does not match. -/
  | notAhead (inner : Pattern)
  /-- A place between a word character and another one, or an end of the line. -/
  | edge
  /-- The end of the line, or the place before a line feed that ends it. -/
  | stop

namespace Pattern

instance : Append Pattern := ⟨Pattern.seq⟩

instance : Coe String Pattern := ⟨Pattern.lit⟩

/-- A pattern that may be missing. -/
def optional (p : Pattern) : Pattern :=
  either p empty

/-- How many captures a pattern numbers, from zero on. -/
def captureCount : Pattern → Nat
  | seq p q => max p.captureCount q.captureCount
  | either p q => max p.captureCount q.captureCount
  | capture i p => max (i + 1) p.captureCount
  | _ => 0

/-- Whether the pattern is the one that matches everywhere. -/
def isEmpty : Pattern → Bool
  | empty => true
  | _ => false

/-- The place after a fixed text, if the line goes on with it. -/
def afterText : List Char → Spot → Option Spot
  | [], s => some s
  | t :: ts, ⟨_, c :: cs⟩ => if t = c then afterText ts ⟨some c, cs⟩ else none
  | _ :: _, ⟨_, []⟩ => none

/-- Whether a word starts or ends at a place. -/
def atEdge (s : Spot) : Bool :=
  s.before.any isWord != s.rest.head?.any isWord

/-- Whether a place is the end of a line or stands before its final line feed. -/
def atStop (s : Spot) : Bool :=
  s.rest = [] || s.rest = ['\n']

/-- Follows a run of at least `least` characters, the longest first. -/
def followRun (p : Char → Bool) (next : Spot → Option Marks) :
    (least : Nat) → (before : Option Char) → (rest : List Char) → Option Marks
  | least, before, [] => if least = 0 then next ⟨before, []⟩ else none
  | least, before, c :: cs =>
    (if p c then followRun p next (least - 1) (some c) cs else none) <|>
      (if least = 0 then next ⟨before, c :: cs⟩ else none)

/-- Follows a run of any length, the shortest first. -/
def followLazyRun (p : Char → Bool) (next : Spot → Option Marks) :
    (before : Option Char) → (rest : List Char) → Option Marks
  | before, [] => next ⟨before, []⟩
  | before, c :: cs =>
    next ⟨before, c :: cs⟩ <|> (if p c then followLazyRun p next (some c) cs else none)

/-- Reads a pattern at a place and goes on with `next`; the first reading on which `next`
succeeds gives the answer, which is what has been captured on the way. -/
def follow : Pattern → (Spot → Marks → Option Marks) → Spot → Marks → Option Marks
  | empty, next, s, ms => next s ms
  | one p, next, s, ms =>
    match s.rest with
    | [] => none
    | c :: cs => if p c then next ⟨some c, cs⟩ ms else none
  | lit text, next, s, ms =>
    match afterText text.toList s with
    | none => none
    | some s => next s ms
  | run p least, next, s, ms => followRun p (next · ms) least s.before s.rest
  | lazyRun p, next, s, ms => followLazyRun p (next · ms) s.before s.rest
  | seq p q, next, s, ms => p.follow (fun s ms => q.follow next s ms) s ms
  | either p q, next, s, ms => p.follow next s ms <|> q.follow next s ms
  | capture i p, next, s, ms =>
    p.follow (fun s' ms' => next s' ((i, ⟨s.rest, s'.rest⟩) :: ms')) s ms
  | notAhead p, next, s, ms =>
    if (p.follow (fun _ ms => some ms) s ms).isSome then none else next s ms
  | edge, next, s, ms => if atEdge s then next s ms else none
  | stop, next, s, ms => if atStop s then next s ms else none

/-- The captures of the first reading of a line, if the line starts with the pattern. -/
def read? (p : Pattern) (line : String) : Option Captures :=
  (p.follow (fun _ ms => some ms) ⟨none, line.toList⟩ []).map fun ms =>
    (List.range p.captureCount).map fun i => (ms.lookup i).map Mark.text

/-- Whether a line starts with the pattern. -/
def accepts (p : Pattern) (line : String) : Bool :=
  (p.read? line).isSome

end Pattern

end DocComment
