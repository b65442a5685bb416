import DocComment.Text.Blank

/-!
# Faults

Everything that can go wrong, by cause, and the one function that words it. A fault in a
source says where it was met; a fault in a grammar says in which state.
-/

namespace DocComment

open Text

/-- Where in a source a fault was met. -/
structure Place where
  line : Option Int := none
  file : Option String := none
  deriving DecidableEq, Repr

/-- What can be wrong with a source. -/
inductive SourceCause where
  /-- A directive asks for an option that does not exist or is not allowed. -/
  | badOption (option : String)
  | other (text : String)
  deriving DecidableEq, Repr

/-- What can be wrong with a grammar, or with the order in which it drives a draft. -/
inductive GrammarCause where
  | unknownHook (name : String)
  | unknownAction (name : String)
  | unknownTarget (state : String)
  | unknownResolver (name : String)
  | unknownInitial (state : String)
  /-- A transition was taken to a state that the grammar does not have. -/
  | lostTarget (state : String)
  /-- A line was evaluated again more often than the bound allows. -/
  | replayed (bound : Int)
  /-- An entry of a table was declared while no table was open. -/
  | noTable (kind : String)
  /-- Text came up for an entry that takes none. -/
  | noText (kind : String)
  | other (text : String)
  deriving DecidableEq, Repr

/-- What can be wrong with a template that is to show one text. -/
inductive TemplateCause where
  | noSlot
  | manySlots
  /-- A slot asks for a text by its name. -/
  | named
  /-- A slot takes its width or its limit from a further value. -/
  | starred
  | widthTooLarge
  | limitTooLarge
  /-- The template ends within a slot. -/
  | unfinished
  | unknownLetter (letter : Char) (index : Nat)
  /-- A slot for a number, whose letter says of which kind. -/
  | notNumber (letter : Char)
  /-- A slot for one character, and the text has none or more than one. -/
  | notSingle
  deriving DecidableEq, Repr

/-- What can be wrong with a page. -/
inductive PageCause where
  /-- An entry of this kind has no place on a page. -/
  | unknownEntry (kind : String)
  | other (text : String)
  deriving DecidableEq, Repr

inductive Fault where
  | source (cause : SourceCause) (place : Place)
  | grammar (cause : GrammarCause) (state : Option String) (line : Option Int)
  | page (cause : PageCause)
  | template (cause : TemplateCause)
  | other (text : String)
  /-- A source has neither a name nor a path. -/
  | noName
  /-- A path has no name or no extension to derive a document name from. -/
  | namelessPath (path : String)
  /-- A rule that matches every line has rules after it. -/
  | earlyCatchAll (state : String)
  /-- A number is spelled with too many digits. -/
  | tooManyDigits (count : Nat)
  | outOfRange
  /-- A place in a list is given by a number that no list reaches. -/
  | indexTooLarge
  | noKey (key : String)
  | noFile
  | undecodable
  deriving DecidableEq, Repr

/-- The most digits a number may be spelled with. -/
def maxDigits : Nat := 4300

/-- The greatest number that can be a place in a list. -/
def maxIndex : Nat := 0x7fffffffffffffff

/-- What stands before a message: file and line, each only if known, and a space. -/
def Place.text (p : Place) : String :=
  let file := match p.file with
    | some f => if f.isEmpty then "" else f ++ ":"
    | none => ""
  let line := match p.line with
    | some n => toString n ++ ":"
    | none => ""
  let both := file ++ line
  if both.isEmpty then "" else onChars (dropEndWhile (· = ':')) both ++ " "

def SourceCause.text : SourceCause → String
  | badOption option => "Invalid option '" ++ option ++ "' in doc directive"
  | other text => text

def GrammarCause.text : GrammarCause → String
  | unknownHook name => "unknown hook '" ++ name ++ "'"
  | unknownAction name => "unknown action '" ++ name ++ "'"
  | unknownTarget state => "unknown target state '" ++ state ++ "'"
  | unknownResolver name => "unknown resolver '" ++ name ++ "'"
  | unknownInitial state => "unknown initial state '" ++ state ++ "'"
  | lostTarget state => "transition to unknown state '" ++ state ++ "'"
  | replayed bound => "line replayed more than " ++ toString bound ++ " times"
  | noTable kind => "'" ++ kind ++ "' entry outside of a parameter table"
  | noText kind => "cannot append text to " ++ kind
  | other text => text

/-- The wording for a text where a number is due. -/
def numberDue (letter : Char) : String :=
  if "eEfFgG".toList.contains letter then "must be real number, not str"
  else
    let kind := if "oxX".toList.contains letter then "an integer" else "a real number"
    "%" ++ letter.toString ++ " format: " ++ kind ++ " is required, not str"

def TemplateCause.text : TemplateCause → String
  | noSlot => "not all arguments converted during string formatting"
  | manySlots => "not enough arguments for format string"
  | named => "format requires a mapping"
  | starred => "* wants int"
  | widthTooLarge => "width too big"
  | limitTooLarge => "precision too big"
  | unfinished => "incomplete format"
  | unknownLetter letter index =>
    let shown := if 31 ≤ letter.toNat && letter.toNat ≤ 126 then letter else '?'
    "unsupported format character '" ++ shown.toString ++ "' (0x"
      ++ String.ofList (Nat.toDigits 16 letter.toNat) ++ ") at index " ++ toString index
  | notNumber letter => numberDue letter
  | notSingle => "%c requires int or char"

def PageCause.text : PageCause → String
  | unknownEntry kind => "Cannot render entry of type " ++ kind
  | other text => text

/-- The state and line that a fault in a grammar was met in. A line alone is not told. -/
def stateText (state : Option String) (line : Option Int) : String :=
  match state, line with
  | none, _ => ""
  | some s, none => " (state '" ++ s ++ "')"
  | some s, some n => " (state '" ++ s ++ "', line " ++ toString n ++ ")"

/-- The wording of a fault. -/
def Fault.message : Fault → String
  | source cause place => place.text ++ cause.text
  | grammar cause state line => cause.text ++ stateText state line
  | page cause => cause.text
  | template cause => cause.text
  | other text => text
  | noName => "parse() needs a name or a source_file"
  | namelessPath path => "Cannot derive a document name from '" ++ path ++ "'"
  | earlyCatchAll state => "catch-all rule must be last in state '" ++ state ++ "'"
  | tooManyDigits count =>
    "Exceeds the limit (" ++ toString maxDigits
      ++ " digits) for integer string conversion: value has " ++ toString count
      ++ " digits; use sys.set_int_max_str_digits() to increase the limit"
  | outOfRange => "list index out of range"
  | indexTooLarge => "cannot fit 'int' into an index-sized integer"
  | noKey key => key
  | noFile => "the file does not exist"
  | undecodable => "the file is not written in the expected encoding"

/-- Whether a fault lies in the source that was read. -/
def Fault.inSource : Fault → Bool
  | source .. => true
  | _ => false

/-- A computation that succeeds did so at its first step. -/
theorem ok_of_bind {ε α β : Type} {x : Except ε α} {f : α → Except ε β} {b : β}
    (h : x >>= f = .ok b) : ∃ a, x = .ok a ∧ f a = .ok b := by
  cases x with
  | error e => cases h
  | ok a => exact ⟨a, rfl, h⟩

/-- A computation whose result has a property succeeds. -/
theorem exists_ok_of_any {ε α : Type} {x : Except ε α} {p : α → Bool} (h : x.toOption.any p) :
    ∃ a, x = .ok a ∧ p a := by
  cases x with
  | error e => cases h
  | ok a => exact ⟨a, rfl, h⟩

end DocComment
