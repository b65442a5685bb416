import DocComment.Draft.Basic

/-!
# Text of a draft

Paragraphs, lists, code and formulas. Each is pending until it is flushed, so that the
lines after it can go on with it.
-/

namespace DocComment.Draft

/-- Adds a line to the pending entry, or starts a paragraph with it. Only an entry that
takes no text makes this fail. -/
def appendText (d : Draft) (text : String) (onNewLine : Bool) : Except Fault Draft :=
  match d.pending with
  | none =>
    .ok { d with pending := some (.paragraph ⟨some text, d.nextStyle⟩), nextStyle := none }
  | some e => do
    let e ← e.extend text onNewLine
    return { d with pending := some e }

/-- Adds an item to the pending list, or starts a list with it. -/
def appendItem (d : Draft) (item : ListItem) : Draft :=
  match d.pending with
  | some (.list l) => { d with pending := some (.list (l.push item)) }
  | _ => { d.flush with pending := some (.list { pending := some item }) }

/-- Starts a code block. A first line that is a language marker only names the
language. -/
def openCode (d : Draft) (firstLine : String) : Draft :=
  { d.flush with pending := some (.code (.ofFirstLine d.language firstLine)) }

/-- Starts a formula. -/
def openFormula (d : Draft) (mode : MathMode) (text : Option String) : Draft :=
  { d.flush with pending := some (.formula ⟨mode, filled text⟩) }

/-- Adds a heading to the current group. -/
def addHeading (d : Draft) (text : String) (level : HeadingLevel) : Draft :=
  (d.flush.addEntry (.heading ⟨text, level⟩)).place

/-- Adds the line that opens a parameter table to the current group. -/
def addTableStart (d : Draft) (name : String) (lead : Option String) : Draft :=
  (d.flush.addEntry (.edge { name, lead })).place

/-- What the closing line of a table is called. -/
def closingBrace : String := "\x7d"

/-- Adds the line that closes a parameter table to the current group. -/
def addTableEnd (d : Draft) : Draft :=
  (d.flush.addEntry (.edge { name := closingBrace, closing := true })).place

end DocComment.Draft
