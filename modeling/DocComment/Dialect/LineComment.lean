import DocComment.Pattern.Piece
import DocComment.Dialect.Rule

/-!
# Line comments

The states within a run of line comments. Code is indented by three spaces after the
slashes and follows an empty comment line, or comes first.
-/

namespace DocComment.Dialect

open Pattern Text

/-- The start of a line of code. -/
def codeStart : Pattern :=
  lineStart ++ "   "

/-- A comment line without text. -/
def emptyComment : Pattern :=
  lineStart ++ blankLine

/-- In a run of line comments. -/
def group : State where
  name := "group"
  rules := [
    { pattern := codeStart, action := some .flush, next := .goTo "code" true, onEntry := true },
    { pattern := indent ++ notAhead "//" ++ visible, action := some .closeComment,
      next := .resolve .afterLineComment },
    { pattern := run isBlank 0 ++ stop, action := some .closeComment,
      next := .resolve .afterBlankLine },
    { pattern := lineStart ++ sectionTitle, action := some .newSection },
    { pattern := lineStart ++ heading, action := some .newTitle },
    { pattern := lineStart ++ spaces ++ libFunction 0, action := some .declareFunction },
    { pattern := lineStart ++ spaces ++ libName 0 ++ spaces ++ stop,
      action := some .declareConstant },
    { pattern := lineStart ++ spaces ++ "[math]", next := .goTo "math" true },
    { pattern := lineStart ++ spaces ++ capitals, action := some .todoFixme },
    { pattern := lineStart ++ bulletItem, action := some .bullet },
    { pattern := lineStart ++ definitionItem, action := some .definition },
    { pattern := emptyComment, action := some .flush, next := .goTo "group_blank" false },
    { pattern := lineStart ++ spaces ++ capture 0 something ++ stop, action := some .append }]
  eof := some .flush

/-- In a run of line comments, after an empty one. -/
def groupBlank : State where
  name := "group_blank"
  rules := [
    { pattern := codeStart, action := some .flush, next := .goTo "code" true },
    { pattern := empty, next := .goTo "group" true }]

/-- In a run of line comments, at the first line of code. -/
def code : State where
  name := "code"
  rules := [
    { pattern := codeStart ++ capture 0 anything ++ stop, action := some .startCode,
      next := .goTo "code_body" false },
    { pattern := empty, next := .goTo "group" true }]

/-- In a run of line comments, within code. -/
def codeBody : State where
  name := "code_body"
  rules := [
    { pattern := codeStart ++ capture 0 anything ++ stop, action := some .appendLine },
    { pattern := emptyComment, action := some .appendBlankLine },
    { pattern := empty, action := some .flush, next := .goTo "group" true }]
  eof := some .flush

/-- In a run of line comments, within a formula. -/
def math : State where
  name := "math"
  rules := [
    { pattern := lineStart ++ formulaLine, action := some .mathInline,
      next := .goTo "group" false },
    { pattern := lineStart ++ formulaStart, action := some .mathOpen },
    { pattern := lineStart ++ spaces ++ formulaEnd, action := some .mathClose,
      next := .goTo "group" false },
    { pattern := lineStart ++ spaces ++ capture 0 anything ++ stop, action := some .appendLine },
    { pattern := empty, action := some .flush, next := .goTo "group" true }]
  eof := some .flush

end DocComment.Dialect
