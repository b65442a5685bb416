import DocComment.Draft.Text
import DocComment.Pattern.Piece

/-!
# Declarations

A declaration says what the current group documents. A group whose last paragraph is
`nodoc` is kept out: the paragraph goes away and the declaration is skipped.
-/

namespace DocComment.Draft

open Text Pattern

/-- Without the `nodoc` paragraph that ends the documentation, if there is one: it is
looked for in the pending entry first and then at the end of the current group. -/
def discardNodoc? (d : Draft) : Option Draft :=
  if d.pending.any Entry.isNodoc then some { d with pending := none }
  else if d.currentGroup.entries.getLast?.any Entry.isNodoc then
    some { d.updateGroup fun g => { g with entries := g.entries.dropLast } with pending := none }
  else none

/-- Lets the current group document a function. -/
def declareFunction (d : Draft) (binding : Binding) (name : String) (params : Option String) :
    Draft :=
  match d.discardNodoc? with
  | some d => d
  | none =>
    let d := d.updateGroup fun g =>
      { g with function := some (trim name), binding := some binding, params := params }
    { d.place with functionGroup := some d.group }

/-- Lets the current group document a constant. -/
def declareConstant (d : Draft) (name : String) : Draft :=
  match d.discardNodoc? with
  | some d => d
  | none =>
    let d := d.updateGroup fun g => { g with constant := some (trim name) }
    { d.place with functionGroup := some d.group }

/-- Changes the table of a key of the document. -/
def updateTable (d : Draft) (key : String) (f : ParamTable → ParamTable) : Draft :=
  let table := (d.doc.params.lookup key).getD {}
  { d with doc := { d.doc with params := putKey key (f table) d.doc.params } }

/-- Lists the current group under a key: among the parameters of the library, or in the
open table. -/
def register (d : Draft) (key : String) (kind : ParamKind) : Except Fault Draft :=
  match kind, d.table with
  | .plain, _ =>
    .ok { d with doc := { d.doc with libParams := d.doc.libParams.insert key d.group } }
  | _, some table => .ok (d.updateTable table (·.insert key d.group))
  | _, none => .error (.grammar (.noTable kind.name) none none)

/-- Lets the current group document a parameter and starts a new group for the next one.
Entries of tables and lists need an open table. -/
def declareParam (d : Draft) (key : String) (definition : Option String) (kind : ParamKind) :
    Except Fault Draft :=
  match d.discardNodoc? with
  | some d => .ok d
  | none => do
    let d := d.updateGroup fun g =>
      { g with param := some key, paramKind := some kind, params := definition }
    let d ← d.register key kind
    return d.place.freshGroup

/-- A key with the keyword of a declaration before it: key. -/
def declaredKey : Pattern :=
  declarationKeyword ++ gap ++ capture 0 (run (fun _ => true) 0)

/-- A key without blanks around it and without the keyword before it. -/
def stripDeclaration (key : String) : String :=
  match declaredKey.read? (trim key) with
  | some captures => captures.text 0
  | none => trim key

/-- Opens a new parameter table under a key, and adds the line that opens it. The entries
of the table go to groups of their own. -/
def openTable (d : Draft) (key : String) (lead : Option String) : Draft :=
  let key := stripDeclaration key
  let d := { d with doc := { d.doc with params := putKey key {} d.doc.params }, table := some key }
  (d.addTableStart key lead).freshGroup

/-- Closes the open table, and adds the line that closes it. -/
def closeTable (d : Draft) : Draft :=
  { d.addTableEnd with table := none, back := none }

end DocComment.Draft
