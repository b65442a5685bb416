import DocComment.Draft.Basic

/-!
# Literate source

In literate mode source lines are captured as code. The captured code joins its group when
the capture ends or is interrupted, and only if it shows anything.
-/

namespace DocComment.Draft

open Text

/-- Starts to capture source, unless that is being done already. -/
def startCapture (d : Draft) : Draft :=
  match d.scratch with
  | some _ => d
  | none =>
    let d := d.freshGroup
    { d with scratch := some ⟨{ lang := d.language }, d.group⟩ }

/-- Captures a line of source, if source is being captured. -/
def captureLine (d : Draft) (line : String) : Draft :=
  match d.scratch with
  | none => d
  | some s =>
    let code := { s.code with text := some (joinText s.code.text line true) }
    { d with scratch := some { s with code } }

/-- Whether code shows anything but blanks. -/
def showsCode (c : CodeBlock) : Bool :=
  c.text.any (!isBlankText ·)

/-- Adds the captured code to its group, if it shows anything. -/
def attachCode (d : Draft) (s : Scratch) : Draft :=
  if showsCode s.code then { d with doc := d.doc.addEntry s.group (Entry.code s.code).settled }
  else d

/-- Interrupts the capture: what was captured so far is complete, and further lines start
anew. -/
def splitCapture (d : Draft) : Draft :=
  match d.scratch with
  | none => d
  | some s =>
    if showsCode s.code then
      { d.attachCode s with scratch := some { s with code := { lang := d.language } } }
    else d

/-- Ends the capture. Its group goes into the open section if it holds anything. -/
def finishCapture (d : Draft) : Draft :=
  match d.scratch with
  | none => d
  | some s =>
    let d := { d with scratch := none }.attachCode s
    if (d.doc.store.get s.group).entries.isEmpty then d else d.placeGroup s.group

end DocComment.Draft
