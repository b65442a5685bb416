import DocComment.Draft.Declaration
import DocComment.Draft.Span

/-!
# Directives, and the end of a draft

Directives switch the modes of a document. Loose mode is reported once, however often it
is switched on.
-/

namespace DocComment

/-- The modes that a directive may switch. -/
inductive Mode where
  | literate
  | loose
  deriving DecidableEq, Repr

def Mode.ofOption? : String → Option Mode
  | "lit" => some .literate
  | "loose" => some .loose
  | _ => none

/-- What is to do where an item has no documentation. -/
def missingDocumentation : String := "MISSING DOCUMENTATION"

/-- What is to do in a document in loose mode. -/
def incompleteDocumentation : String := "INCOMPLETE DOCUMENTATION"

namespace Draft

/-- Switches loose mode and reports it the first time that it is switched on. -/
def setLoose (d : Draft) (enabled : Bool) : Draft :=
  let d := { d with doc := { d.doc with loose := enabled } }
  if enabled && !d.looseReported then
    { d with looseReported := true }.addTodo incompleteDocumentation
  else d

/-- Switches literate mode, and with it the capture of source. -/
def setLiterate (d : Draft) (enabled : Bool) : Draft :=
  let d := { d with doc := { d.doc with literate := enabled } }
  if enabled then d.startCapture else d.finishCapture

/-- Applies a directive. Options that do not exist or are not allowed are faults of the
source. -/
def applyDirective (d : Draft) (option : String) (enabled : Bool) (line : Option Int) :
    Except Fault Draft :=
  match Mode.ofOption? option with
  | some mode =>
    if d.allowedOptions.contains option then
      match mode with
      | .literate => .ok (d.setLiterate enabled)
      | .loose => .ok (d.setLoose enabled)
    else .error (.source (.badOption option) ⟨line, some d.file⟩)
  | none => .error (.source (.badOption option) ⟨line, some d.file⟩)

/-- Starts a group for an item without documentation, which is reported unless in loose
mode. -/
def flagUndocumented (d : Draft) : Draft :=
  let d := d.freshGroup
  if d.doc.loose then d else d.addTodo missingDocumentation

/-- Ends the draft: the document has a section, and nothing is remembered any more. -/
def finish (d : Draft) : Draft × Log :=
  let (d, log) := d.ensureSection (some { before := "No documentation found in '", after := "'." })
  let d := d.freshGroup
  ({ d with
      doc := d.document, current := none, todos := [], fixmes := [], pending := none,
      nextStyle := none, functionGroup := none, table := none, back := none, scratch := none },
   log)

end Draft

end DocComment
