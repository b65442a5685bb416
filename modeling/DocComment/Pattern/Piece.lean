import DocComment.Pattern.Class

/-!
# Pieces of the rules

Patterns that several states share. Where a piece captures, it numbers its captures from
`first` on.
-/

namespace DocComment.Pattern

open Text

/-- A name of the library. -/
def libName (first : Nat) : Pattern :=
  "lib." ++ capture first name

/-- A name of the library other than `prototype`. -/
def libKey (first : Nat) : Pattern :=
  "lib." ++ notAhead ("prototype" ++ edge) ++ capture first name

/-- A list of parameters in brackets. -/
def parameters (index : Nat) : Pattern :=
  capture index ("(" ++ run (· != ')') 0 ++ ")")

/-- The assignment of a function to the library: prototype, name, parameters. -/
def libFunction (first : Nat) : Pattern :=
  "lib." ++ optional (capture first "prototype.") ++ capture (first + 1) name ++ spaces ++ "="
    ++ spaces ++ "function" ++ edge ++ spaces ++ optional (name ++ spaces) ++ parameters (first + 2)

/-- What follows a keyword: a colon, if there is one, and the rest of the line. -/
def afterKeyword (index : Nat) : Pattern :=
  edge ++ optional ":" ++ spaces ++ capture index anything

/-- A line that starts with a word in capitals: the whole text, the word, the rest. -/
def capitals : Pattern :=
  capture 0 (capture 1 (run Char.isUpper 4) ++ afterKeyword 2) ++ stop

/-- The keyword of a declaration. -/
def declarationKeyword : Pattern :=
  either "const" (either "let" "var")

/-- The end of a block comment. -/
def blockEnd : Pattern :=
  spaces ++ "*/"

/-- The start of a line comment. -/
def lineStart : Pattern :=
  indent ++ "//"

/-- A blank line, as far as spaces are concerned. -/
def blankLine : Pattern :=
  spaces ++ stop

/-- The title of a section within a comment of which the start was read. -/
def sectionTitle : Pattern :=
  spaces ++ "# " ++ capture 0 something ++ stop

/-- A heading within a comment of which the start was read. -/
def heading : Pattern :=
  spaces ++ "## " ++ capture 0 something ++ stop

/-- An item of a list: marker, text. -/
def bulletItem : Pattern :=
  spaces ++ capture 0 (run (· = '*') 1) ++ gap ++ capture 1 something ++ stop

/-- An item of a list of definitions: marker, key, text. -/
def definitionItem : Pattern :=
  spaces ++ capture 0 "+" ++ gap ++ capture 1 little ++ ":" ++ spaces ++ capture 2 something ++ stop

/-- A formula on one line: formula, what follows. -/
def formulaLine : Pattern :=
  spaces ++ "[math]" ++ capture 0 anything ++ "[/math]" ++ spaces ++ capture 1 anything ++ stop

/-- The first line of a formula. -/
def formulaStart : Pattern :=
  spaces ++ "[math]" ++ capture 0 anything ++ stop

/-- The last line of a formula: formula, what follows. -/
def formulaEnd : Pattern :=
  capture 0 little ++ "[/math]" ++ spaces ++ capture 1 anything ++ stop

/-- The comment that announces a documented table. -/
def docMark : Pattern :=
  spaces ++ "//" ++ spaces ++ "doc" ++ spaces ++ stop

end DocComment.Pattern
