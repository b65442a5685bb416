import DocComment.Text.Blank
import DocComment.Pattern.Basic

/-!
# Character classes and pieces of line patterns

The classes that the rules are written with, and the pieces that many of them share.
-/

namespace DocComment.Pattern

open Text

/-- Any character but the line feed. -/
def isInline (c : Char) : Bool :=
  c != '\n'

/-- An ASCII letter, the underscore or the dollar sign: the start of a name. -/
def isNameStart (c : Char) : Bool :=
  c.isAlpha || c = '_' || c = '$'

/-- A word character or the dollar sign: the rest of a name. -/
def isNamePart (c : Char) : Bool :=
  isWord c || c = '$'

/-- An ASCII letter or digit, the underscore or the dollar sign: a key of a table. -/
def isKeyPart (c : Char) : Bool :=
  c.isAlphanum || c = '_' || c = '$'

/-- Spaces, possibly none. -/
def spaces : Pattern :=
  run (· = ' ') 0

/-- At least one space. -/
def gap : Pattern :=
  run (· = ' ') 1

/-- Spaces and tabs, possibly none. -/
def indent : Pattern :=
  run isIndent 0

/-- The rest of the line, possibly empty. -/
def anything : Pattern :=
  run isInline 0

/-- The rest of the line, not empty. -/
def something : Pattern :=
  run isInline 1

/-- As little as lets the rest of the pattern match, possibly nothing. -/
def little : Pattern :=
  lazyRun isInline

/-- At least one character, and then as little as lets the rest of the pattern match. -/
def someLittle : Pattern :=
  one isInline ++ lazyRun isInline

/-- Whether a character is not blank. -/
def isVisible (c : Char) : Bool :=
  !isBlank c

/-- A character that is not blank. -/
def visible : Pattern :=
  one isVisible

/-- A name of the source language. -/
def name : Pattern :=
  one isNameStart ++ run isNamePart 0

end DocComment.Pattern
