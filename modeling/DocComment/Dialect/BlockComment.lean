import DocComment.Pattern.Piece
import DocComment.Dialect.Rule

/-!
# Block comments

The states from the start of a source to its first title, and those within a block
comment. Code is indented by four spaces and follows an empty line.
-/

namespace DocComment.Dialect

open Pattern

/-- Before the first documentation comment. -/
def start : State where
  name := "start"
  rules := [
    { pattern := "/*" ++ anything ++ "*/" ++ spaces ++ stop },
    { pattern := "/*", next := .goTo "preamble" false },
    { pattern := lineStart ++ sectionTitle, action := some .preambleSection,
      next := .goTo "group" false }]
  eof := some .startEof

/-- In the first block comment, before its title. -/
def preamble : State where
  name := "preamble"
  rules := [
    { pattern := sectionTitle, action := some .preambleSection, next := .goTo "mgroup" false },
    { pattern := blockEnd, action := some .missingTitle, next := .goTo "lua" false },
    { pattern := blankLine },
    { pattern := empty, action := some .untitledPreamble, next := .goTo "mgroup" true }]
  eof := some .preambleEof

/-- In a block comment. -/
def mgroup : State where
  name := "mgroup"
  rules := [
    { pattern := blockEnd, action := some .closeComment, next := .resolve .afterBlockComment },
    { pattern := sectionTitle, action := some .newSection },
    { pattern := heading, action := some .newTitle },
    { pattern := spaces ++ libFunction 0, action := some .declareFunction },
    { pattern := spaces ++ libName 0 ++ spaces ++ stop, action := some .declareConstant },
    { pattern := spaces ++ capitals, action := some .todoFixme },
    { pattern := spaces ++ "[math]", next := .goTo "mmath" true },
    { pattern := bulletItem, action := some .bullet },
    { pattern := definitionItem, action := some .definition },
    { pattern := blankLine, action := some .flush, next := .goTo "mgroup_blank" false },
    { pattern := spaces ++ capture 0 something ++ stop, action := some .append }]
  eof := some .flush

/-- In a block comment, after an empty line. -/
def mgroupBlank : State where
  name := "mgroup_blank"
  rules := [
    { pattern := "    " ++ notAhead blockEnd, action := some .flush, next := .goTo "mcode" true },
    { pattern := empty, next := .goTo "mgroup" true }]

/-- In a block comment, at the first line of code. -/
def mcode : State where
  name := "mcode"
  rules := [
    { pattern := "    " ++ capture 0 anything ++ stop, action := some .startCode,
      next := .goTo "mcode_body" false },
    { pattern := empty, next := .goTo "mgroup" true }]

/-- In a block comment, within code. -/
def mcodeBody : State where
  name := "mcode_body"
  rules := [
    { pattern := blockEnd, action := some .flush, next := .goTo "mgroup" true },
    { pattern := "    " ++ capture 0 anything ++ stop, action := some .appendLine },
    { pattern := blankLine, action := some .appendBlankLine },
    { pattern := empty, action := some .flush, next := .goTo "mgroup" true }]
  eof := some .flush

/-- In a block comment, within a formula. -/
def mmath : State where
  name := "mmath"
  rules := [
    { pattern := blockEnd, action := some .flush, next := .goTo "mgroup" true },
    { pattern := formulaLine, action := some .mathInline, next := .goTo "mgroup" false },
    { pattern := formulaStart, action := some .mathOpen },
    { pattern := formulaEnd, action := some .mathClose, next := .goTo "mgroup" false },
    { pattern := spaces ++ capture 0 anything ++ stop, action := some .appendLine }]
  eof := some .flush

end DocComment.Dialect
