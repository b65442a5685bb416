import DocComment.Document.Entry
import DocComment.Fault
import DocComment.Html.Escape
import DocComment.Text.Digit
import DocComment.Text.Split

/-!
# Inline markup

Prose as HTML: formulas between `[math]` and `[/math]`, code between backticks, strong
text between stars, emphasis between underscores, and images. The text is escaped first
and then marked up for one kind after the other.

Nothing is marked up within formulas and code. They are put on a shelf, with their number
between two NUL characters in their place, and come back when all else is done.
-/

namespace DocComment.Html

open Text

/-- Formulas and code that are kept from further markup, in the order in which they were
found. -/
abbrev Shelf := List (List Char)

/-- What stands in a text for a thing on the shelf. -/
def placeholder (index : Nat) : List Char :=
  '\x00' :: (toString index).toList ++ ['\x00']

/-- Markup does not go beyond the end of a line. -/
def onLine (c : Char) : Bool :=
  c != '\n'

/-- Reads a text between two marks, as short as possible and on one line. -/
def between (opening closing : String) (cs : List Char) : Option (List Char × List Char) :=
  match after? opening.toList cs with
  | some cs => upTo? onLine closing.toList cs
  | none => none

/-- A formula for the display in a page; nothing, if it shows nothing. -/
def mathChars (mode : MathMode) (cs : List Char) : List Char :=
  if cs.all isBlank then []
  else
    match mode with
    | .inline => "\\(".toList ++ cs ++ "\\)".toList
    | .block => "$$".toList ++ cs ++ "$$".toList

@[inherit_doc mathChars] def mathTag (mode : MathMode) (s : Option String) : String :=
  String.ofList (mathChars mode (s.getD "").toList)

/-- A text in an element without attributes. -/
def element (tag : String) (content : List Char) : List Char :=
  ("<" ++ tag ++ ">").toList ++ content ++ ("</" ++ tag ++ ">").toList

/-- Puts the marked pieces on the shelf. -/
def shelve (wrap : List Char → List Char) : Shelf → List (Piece (List Char)) → List Char × Shelf
  | shelf, [] => ([], shelf)
  | shelf, .plain c :: ps =>
    let (cs, shelf) := shelve wrap shelf ps
    (c :: cs, shelf)
  | shelf, .marked body :: ps =>
    let (cs, shelf') := shelve wrap (shelf ++ [wrap body]) ps
    (placeholder shelf.length ++ cs, shelf')

/-- Puts the formulas of a text on a shelf. -/
def shelveMath (cs : List Char) : List Char × Shelf :=
  shelve (mathChars .inline) [] (pieces (between "[math]" "[/math]") cs)

/-- Puts the code of a text on the shelf. -/
def shelveCode (shelf : Shelf) (cs : List Char) : List Char × Shelf :=
  shelve (element "code") shelf (pieces (between "\x60" "\x60") cs)

/-- Replaces the marked pieces where they stand. -/
def replaceMarked {α : Type} (wrap : α → List Char) (ps : List (Piece α)) : List Char :=
  ps.flatMap fun
    | .plain c => [c]
    | .marked a => wrap a

/-- Strong text. -/
def strong (cs : List Char) : List Char :=
  replaceMarked (element "strong") (pieces (between "*" "*") cs)

/-- Emphasis between spaces. -/
def emphasisWithin (cs : List Char) : List Char :=
  replaceMarked (fun body => ' ' :: element "em" body ++ [' ']) (pieces (between " _" "_ ") cs)

/-- Emphasis at the start of a text. -/
def emphasisAtStart (cs : List Char) : List Char :=
  match between "_" "_" cs with
  | some (body, rest) => element "em" body ++ rest
  | none => cs

/-- Reads a text up to an underscore at the end, or before the line feed at the end. -/
def upToFinalMark : List Char → Option (List Char × List Char)
  | [] => none
  | c :: cs =>
    if c = '_' && (cs = [] || cs = ['\n']) then some ([], cs)
    else if onLine c then (upToFinalMark cs).map fun (body, rest) => (c :: body, rest)
    else none

/-- Reads emphasis at the end of a text. -/
def finalEmphasis : List Char → Option (List Char × List Char)
  | '_' :: cs => upToFinalMark cs
  | _ => none

/-- Emphasis at the end of a text. -/
def emphasisAtEnd (cs : List Char) : List Char :=
  replaceMarked (element "em") (pieces finalEmphasis cs)

/-- Reads an image: what is shown in its place, and where it is. -/
def readImage (cs : List Char) : Option ((List Char × List Char) × List Char) := do
  let (alt, cs) ← between "![" "](" cs
  let (source, cs) ← upTo? onLine ")".toList cs
  return ((alt, source), cs)

/-- The value of an attribute whose text has been escaped as content. -/
def quoteChars (cs : List Char) : List Char :=
  cs.flatMap fun c => if c = '\x27' then "&#x27;".toList else [c]

/-- The element of an image. -/
def imageTag (image : List Char × List Char) : List Char :=
  "<img alt='".toList ++ quoteChars image.1 ++ "' src='".toList ++ quoteChars image.2
    ++ "'/>".toList

/-- Images. -/
def images (cs : List Char) : List Char :=
  replaceMarked imageTag (pieces readImage cs)

/-- Reads a placeholder: the digits of its number. -/
def readPlaceholder : List Char → Option (List Char × List Char)
  | '\x00' :: cs =>
    match cs.takeWhile isDecimal, cs.dropWhile isDecimal with
    | d :: ds, '\x00' :: rest => some (d :: ds, rest)
    | _, _ => none
  | _ => none

/-- What is on the shelf under a number. -/
def fetch (shelf : Shelf) (digits : List Char) : Except Fault (List Char) :=
  if maxDigits < digits.length then .error (.tooManyDigits digits.length)
  else if maxIndex < readDecimal digits then .error .indexTooLarge
  else
    match shelf[readDecimal digits]? with
    | some cs => .ok cs
    | none => .error .outOfRange

/-- Brings back what is on the shelf. What comes back is not looked at again. -/
def restore (shelf : Shelf) : List (Piece (List Char)) → Except Fault (List Char)
  | [] => .ok []
  | .plain c :: ps => do return c :: (← restore shelf ps)
  | .marked digits :: ps => do
    let cs ← fetch shelf digits
    return cs ++ (← restore shelf ps)

/-- Prose as HTML. Without anything on the shelf there is nothing to bring back, and NUL
characters of the text itself stay as they are. -/
def proseChars (cs : List Char) : Except Fault (List Char) :=
  let (cs, shelf) := shelveMath (escapeChars cs)
  let (cs, shelf) := shelveCode shelf cs
  let cs := images (emphasisAtEnd (emphasisAtStart (emphasisWithin (strong cs))))
  if shelf.isEmpty then .ok cs else restore shelf (pieces readPlaceholder cs)

@[inherit_doc proseChars] def prose (s : String) : Except Fault String := do
  return String.ofList (← proseChars s.toList)

end DocComment.Html
