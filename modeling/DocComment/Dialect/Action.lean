import DocComment.Dialect.Transition
import DocComment.Draft.Directive

/-!
# Actions

What a rule does to the draft with the captures of its line. Captures are numbered from
zero in the order in which they are listed at each action. A few actions choose the
transition themselves, as it depends on what the line says.
-/

namespace DocComment

open Text Pattern

inductive Action where
  /-- Opens the first section: title. -/
  | preambleSection
  | missingTitle
  /-- Opens the first section under the name of the document and keeps the line. -/
  | untitledPreamble
  | flush
  | closeComment
  /-- Opens a section: title. -/
  | newSection
  /-- Adds a heading: title. -/
  | newTitle
  /-- Declares a function within a comment: prototype, name, parameters. -/
  | declareFunction
  /-- Declares a constant within a comment: name. -/
  | declareConstant
  /-- Starts a span: whole text, keyword, rest. -/
  | todoFixme
  /-- Adds text: text. -/
  | append
  /-- Adds a line of code or of a formula: text. -/
  | appendLine
  | appendBlankLine
  /-- Adds an item: marker, text. -/
  | bullet
  /-- Adds an item with a key: marker, key, text. -/
  | definition
  /-- Starts a code block: first line. -/
  | startCode
  /-- Adds a formula of one line: formula, what follows it. -/
  | mathInline
  /-- Starts a formula: first line. -/
  | mathOpen
  /-- Ends a formula: last line, what follows it. -/
  | mathClose
  /-- Declares a function after a comment: prototype, name, parameters. -/
  | documentedFunction
  /-- Declares a global function after a comment: name, parameters. -/
  | documentedGlobalFunction
  /-- Declares a parameter of the library, or opens a table, after a comment: key,
  value. -/
  | documentedLibParam
  /-- Declares a function without documentation: whole line, prototype, name,
  parameters. -/
  | undocumentedFunction
  /-- Declares a parameter of the library without documentation, or opens a table: whole
  line, key, value. -/
  | undocumentedParam
  /-- Ends the source of a function: whole line. -/
  | endOfFunction
  /-- Switches a mode on: option. -/
  | enableOption
  /-- Switches a mode off: option. -/
  | disableOption
  /-- Opens a table: key. -/
  | openTable
  /-- Adds a span from the source: whole text, keyword, rest. -/
  | sourceTodo
  | startComment
  /-- Captures a line of source: line. -/
  | sourceLine
  /-- Adds a heading to a table: title. -/
  | paramsTitle
  /-- Starts a line comment in a table. -/
  | paramsComment
  /-- Starts a block comment in a table: first line. -/
  | paramsBlockComment
  /-- Adds a comment of one line in a table: text. -/
  | paramsInlineComment
  /-- Declares an entry of a table: key, value. -/
  | tableParam
  /-- Declares a member of a list: value. -/
  | listParam
  /-- Declares a member of a list with the comment after it: value, text. -/
  | sameLineParam
  | closeTable
  | paramsOther
  deriving DecidableEq, Repr

/-- What an action leads to: the draft, a transition that takes the place of the rule's
own, and what was logged. -/
structure Effect where
  draft : Draft
  next : Option Transition := none
  log : Log := []

namespace Action

def name : Action → String
  | preambleSection => "preamble_section"
  | missingTitle => "missing_title"
  | untitledPreamble => "untitled_preamble"
  | flush => "flush"
  | closeComment => "close_comment"
  | newSection => "new_section"
  | newTitle => "new_title"
  | declareFunction => "declare_function"
  | declareConstant => "declare_constant"
  | todoFixme => "todo_fixme"
  | append => "append"
  | appendLine => "append_line"
  | appendBlankLine => "append_blank_line"
  | bullet => "bullet"
  | definition => "definition"
  | startCode => "start_code"
  | mathInline => "math_inline"
  | mathOpen => "math_open"
  | mathClose => "math_close"
  | documentedFunction => "documented_function"
  | documentedGlobalFunction => "documented_global_function"
  | documentedLibParam => "documented_lib_param"
  | undocumentedFunction => "undocumented_function"
  | undocumentedParam => "undocumented_param"
  | endOfFunction => "end_of_function"
  | enableOption => "enable_option"
  | disableOption => "disable_option"
  | openTable => "open_table"
  | sourceTodo => "source_todo"
  | startComment => "start_comment"
  | sourceLine => "source_line"
  | paramsTitle => "params_title"
  | paramsComment => "params_comment"
  | paramsBlockComment => "params_block_comment"
  | paramsInlineComment => "params_inline_comment"
  | tableParam => "table_param"
  | listParam => "list_param"
  | sameLineParam => "same_line_param"
  | closeTable => "close_table"
  | paramsOther => "params_other"

def all : List Action :=
  [preambleSection, missingTitle, untitledPreamble, flush, closeComment, newSection, newTitle,
   declareFunction, declareConstant, todoFixme, append, appendLine, appendBlankLine, bullet,
   definition, startCode, mathInline, mathOpen, mathClose, documentedFunction,
   documentedGlobalFunction, documentedLibParam, undocumentedFunction, undocumentedParam,
   endOfFunction, enableOption, disableOption, openTable, sourceTodo, startComment, sourceLine,
   paramsTitle, paramsComment, paramsBlockComment, paramsInlineComment, tableParam, listParam,
   sameLineParam, closeTable, paramsOther]

def ofName? (s : String) : Option Action :=
  all.find? (·.name = s)

theorem ofName?_name (a : Action) : ofName? a.name = some a := by
  cases a <;> rfl

/-! ## Pieces that several actions share -/

/-- A value that ends in the comment which announces a documented table. -/
def tableMarker : Pattern :=
  little ++ docMark

/-- The state that reads the entries of a table. -/
def tableState : String := "params"

/-- How a function of the library is called. -/
def bindingOf (captures : Captures) (prototype : Nat) : Binding :=
  if captures.filled prototype then .method else .classFunction

/-- Opens the first section under a title; the next paragraph is the summary. -/
def openPreamble (d : Draft) (title : String) : Draft :=
  { d.openSection title with nextStyle := some summaryStyle }

/-- Adds what follows a formula on its line, if that is anything. -/
def addTrailing (d : Draft) (text : String) : Except Fault Draft :=
  if isBlankText text then .ok d else d.appendText (trim text) false

/-- The comment that opens a section documents the section, not the item after it. -/
def splitFromSection (d : Draft) : Draft :=
  if d.opensSection then d.flagUndocumented else d

/-- A group of its own for what comes next, if the current one is part of the section
already. -/
def leavePlacedGroup (d : Draft) : Draft :=
  if d.inSection then d.freshGroup else d

/-- The group for the comment of a table entry. Text right after a heading stays with the
heading. -/
def entryGroup (d : Draft) : Draft :=
  if d.currentGroup.entries.getLast?.any Entry.isHeading then d else d.freshGroup

/-- Opens a table of the library and goes on to its entries. -/
def openLibTable (d : Draft) (key : String) : Effect :=
  ⟨d.openTable key (some "."), some (.goTo tableState false), []⟩

/-! ## The actions -/

/-- A formula of one line, and what follows it. An empty formula adds nothing. -/
def addFormula (d : Draft) (formula trailing : String) : Except Fault Draft :=
  let formula := trim formula
  let d := if formula.isEmpty then d else (d.openFormula .inline (some formula)).flush
  addTrailing d trailing

/-- The last line of a formula, and what follows it. -/
def closeFormula (d : Draft) (formula trailing : String) : Except Fault Draft := do
  let formula := trim formula
  let d ← if formula.isEmpty then .ok d else d.appendText formula true
  addTrailing d.flush trailing

/-- A parameter of the library after a comment. The comment may have declared its item
already; then it does not document the parameter, and neither does one that starts with a
heading. -/
def declareLibParam (d : Draft) (key value : String) : Except Fault Draft :=
  let g := d.currentGroup
  if (filled g.function).isSome || (filled g.constant).isSome then .ok d
  else
    let d :=
      if d.opensSection || g.entries.head?.any Entry.isHeading then d.flagUndocumented else d
    d.declareParam key (some value) .plain

/-- A declaration without documentation, or a line of captured source. -/
def captureOr (d : Draft) (line : String) (declare : Draft → Except Fault Draft) :
    Except Fault Draft :=
  if d.scratch.isSome then .ok (d.captureLine line) else declare d.flagUndocumented

/-- What an action does to the draft where it neither logs nor chooses the transition. -/
def apply (a : Action) (line : Nat) (c : Captures) (d : Draft) : Except Fault Draft :=
  match a with
  | preambleSection => .ok (openPreamble d (c.text 0))
  | flush => .ok d.flush
  | closeComment => .ok d.closeComment
  | newSection => .ok (d.openSection (c.text 0))
  | newTitle => .ok (d.addHeading (c.text 0) .title)
  | declareFunction => .ok (d.declareFunction (bindingOf c 0) (c.text 1) (some (c.text 2)))
  | declareConstant => .ok (d.declareConstant (c.text 0))
  | todoFixme => d.addKeyword (c.text 0) (c.text 1) (c.text 2)
  | append => d.appendText (c.text 0) false
  | appendLine => d.appendText (c.text 0) true
  | appendBlankLine => d.appendText "" true
  | bullet => .ok (d.appendItem (.marked (c.text 0) (c.text 1) none))
  | definition => .ok (d.appendItem (.marked (c.text 0) (c.text 1) (some (c.text 2))))
  | startCode => .ok (d.openCode (c.text 0))
  | mathInline => addFormula d (c.text 0) (c.text 1)
  | mathOpen => .ok (d.openFormula .block (some (trim (c.text 0))))
  | mathClose => closeFormula d (c.text 0) (c.text 1)
  | documentedFunction =>
    .ok ((splitFromSection d).declareFunction (bindingOf c 0) (c.text 1) (some (c.text 2)))
  | documentedGlobalFunction =>
    .ok ((splitFromSection d).declareFunction .globalFunction (c.text 0) (some (c.text 1)))
  | undocumentedFunction => captureOr d (c.text 0) fun d =>
    .ok (d.declareFunction (bindingOf c 1) (c.text 2) (some (c.text 3)))
  | endOfFunction => .ok ({ d with functionGroup := none }.captureLine (c.text 0))
  | enableOption => d.applyDirective (trim (c.text 0)) true (some line)
  | disableOption => d.applyDirective (trim (c.text 0)) false (some line)
  | openTable => .ok ((leavePlacedGroup d.finishCapture).openTable (c.text 0) none)
  | sourceTodo => do return (← d.addKeyword (c.text 0) (c.text 1) (c.text 2)).flush
  | startComment => .ok d.freshGroup
  | sourceLine => .ok (d.captureLine (c.text 0))
  | paramsTitle =>
    let d := d.flush
    let d := if d.currentGroup.entries.isEmpty then d else d.freshGroup
    .ok (d.addHeading (c.text 0) .param)
  | paramsComment => .ok { entryGroup d with back := some tableState }
  | paramsBlockComment => do
    return { ← addTrailing (entryGroup d) (c.text 0) with back := some tableState }
  | paramsInlineComment => do return (← (entryGroup d).appendText (trim (c.text 0)) false).flush
  | tableParam => d.flush.declareParam (c.text 0) (some (c.text 1)) .table
  | listParam => d.flush.declareParam (c.text 0) none .list
  | sameLineParam => do
    let d ← d.flush.freshGroup.appendText (trim (c.text 1)) false
    d.flush.declareParam (c.text 0) none .list
  | closeTable => .ok d.closeTable
  | paramsOther => .ok d.flush.freshGroup
  | missingTitle | untitledPreamble | documentedLibParam | undocumentedParam => .ok d

/-- Performs an action on a line with its number and its captures. -/
def run (a : Action) (line : Nat) (c : Captures) (d : Draft) : Except Fault Effect :=
  match a with
  | missingTitle =>
    let (d, log) := d.ensureSection (some
      { before := "Missing '# title' in preamble from '", after := "'." })
    .ok { draft := d, log }
  | untitledPreamble =>
    let message := "Missing '# title' in preamble from '" ++ d.doc.fullname ++ "' (line "
      ++ toString line ++ ")."
    .ok { draft := openPreamble d d.doc.fullname, log := [⟨.warning, .action, message⟩] }
  | documentedLibParam =>
    if tableMarker.accepts (c.text 1) then .ok (openLibTable (leavePlacedGroup d) (c.text 0))
    else do return { draft := ← declareLibParam d (c.text 0) (c.text 1) }
  | undocumentedParam =>
    if tableMarker.accepts (c.text 2) then
      .ok (openLibTable d.finishCapture.freshGroup (c.text 1))
    else do
      let d ← captureOr d (c.text 0) fun d => d.declareParam (c.text 1) (some (c.text 2)) .plain
      return { draft := d }
  | a => do return { draft := ← a.apply line c d }

end Action

end DocComment
