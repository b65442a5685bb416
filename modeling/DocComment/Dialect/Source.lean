import DocComment.Pattern.Piece
import DocComment.Dialect.Rule

/-!
# Source

The states outside of comments: the line after a comment, source lines, and the entries of
a documented table.
-/

namespace DocComment.Dialect

open Pattern Text

/-- An opening brace or bracket. -/
def isOpening (c : Char) : Bool :=
  c = '\x7b' || c = '['

/-- A closing brace or bracket. -/
def isClosing (c : Char) : Bool :=
  c = '\x7d' || c = ']'

/-- What may follow the end of a table on its line. -/
def isAfterTable (c : Char) : Bool :=
  isBlank c || c = ';' || c = ',' || c = ')'

/-- The keyword of a span. -/
def spanKeyword : Pattern :=
  either "TODO" (either "FIXME" (either "WARN" "NOTE"))

/-- The value that a key is set to. -/
def assigned (index : Nat) : Pattern :=
  spaces ++ "=" ++ spaces ++ capture index something ++ stop

/-- The line after a comment. -/
def endComment : State where
  name := "end_comment"
  rules := [
    { pattern := libFunction 0, action := some .documentedFunction, next := .goTo "lua" false },
    { pattern := optional (declarationKeyword ++ gap) ++ libKey 0 ++ assigned 1,
      action := some .documentedLibParam, next := .goTo "lua" false },
    { pattern := "function" ++ gap ++ capture 0 name ++ spaces ++ parameters 1,
      action := some .documentedGlobalFunction, next := .goTo "lua" false },
    { pattern := empty, next := .goTo "lua" true }]

/-- Source lines. -/
def lua : State where
  name := "lua"
  rules := [
    { pattern := capture 0 (libFunction 1 ++ anything) ++ stop,
      action := some .undocumentedFunction },
    { pattern := capture 0 (libKey 1 ++ spaces ++ "=" ++ spaces ++ capture 2 something) ++ stop,
      action := some .undocumentedParam },
    { pattern := capture 0 ("\x7d" ++ anything) ++ stop, action := some .endOfFunction },
    { pattern := lineStart ++ spaces ++ "doc:no" ++ capture 0 (run isVisible 1) ++ spaces ++ stop,
      action := some .disableOption },
    { pattern := lineStart ++ spaces ++ "doc:" ++ capture 0 (run isVisible 1) ++ spaces ++ stop,
      action := some .enableOption },
    { pattern := indent ++ capture 0 little ++ spaces ++ "=" ++ spaces ++ one isOpening ++ docMark,
      action := some .openTable, next := .goTo "params" false },
    { pattern := indent ++ capture 0 little ++ spaces ++ "=" ++ docMark,
      action := some .openTable, next := .goTo "params" false },
    { pattern := indent ++ capture 0 ("//" ++ spaces ++ capture 1 spanKeyword ++ afterKeyword 2)
        ++ stop,
      action := some .sourceTodo },
    { pattern := lineStart ++ spaces ++ visible, action := some .startComment,
      next := .goTo "group" true },
    { pattern := capture 0 ("/*" ++ anything ++ "*/" ++ spaces) ++ stop,
      action := some .sourceLine },
    { pattern := "/*", action := some .startComment, next := .goTo "mgroup" false },
    { pattern := capture 0 anything ++ stop, action := some .sourceLine }]
  enter := some .sourceEnter
  exit := some .sourceExit

/-- The entries of a documented table. -/
def params : State where
  name := "params"
  rules := [
    { pattern := lineStart ++ spaces ++ "##" ++ spaces ++ capture 0 anything ++ stop,
      action := some .paramsTitle },
    { pattern := lineStart ++ spaces ++ visible, action := some .paramsComment,
      next := .goTo "group" true },
    { pattern := blockOpening ++ capture 0 little ++ spaces ++ "*/" ++ spaces ++ stop,
      action := some .paramsInlineComment },
    { pattern := blockOpening ++ capture 0 anything ++ stop, action := some .paramsBlockComment,
      next := .goTo "mgroup" false },
    { pattern := indent ++ one isClosing ++ run isAfterTable 0 ++ stop, action := some .closeTable,
      next := .goTo "lua" false },
    { pattern := indent ++ one isLeading ++ spaces ++ capture 0 someLittle ++ spaces ++ "//"
        ++ spaces ++ capture 1 something ++ stop,
      action := some .sameLineParam },
    { pattern := indent ++ capture 0 (run isKeyPart 1) ++ spaces ++ one isAssigning ++ spaces
        ++ capture 1 little ++ entryEnd,
      action := some .tableParam },
    { pattern := indent ++ capture 0 (one isEntryStart ++ little) ++ entryEnd,
      action := some .listParam },
    { pattern := empty, action := some .paramsOther }]
where
  /-- The start of a block comment in a table. -/
  blockOpening : Pattern := indent ++ "/" ++ run (· = '*') 1 ++ spaces
  /-- The start of a list, or the comma before one of its members. -/
  isLeading (c : Char) : Bool := c = '[' || c = ','
  /-- What stands between a key and its value. -/
  isAssigning (c : Char) : Bool := c = '=' || c = ':'
  /-- The first character of a member of a list. -/
  isEntryStart (c : Char) : Bool := !isBlank c && c != '/'
  /-- The end of an entry: a comma, if there is one. -/
  entryEnd : Pattern := spaces ++ optional "," ++ spaces ++ stop

end DocComment.Dialect
