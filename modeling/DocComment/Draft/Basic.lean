import DocComment.Document.Basic
import DocComment.Draft.Pending
import DocComment.Log
import DocComment.Template

/-!
# Drafts

A draft is a document that is being written: the document so far, the section that is
open, and all that is remembered between two lines, such as the group that new entries go
to and the entry that the next line may go on with.

The open section is held apart from the sections before it, so only it can take in groups.
The operations here concern sections, groups and entries; the other modules of this folder
add those on text, spans, declarations and literate source.
-/

namespace DocComment

/-- Source that is being captured as code, and the group that it will go to. -/
structure Scratch where
  code : CodeBlock
  group : GroupId
  deriving DecidableEq, Repr

structure Draft where
  /-- The document so far, without the open section and the lists at its end. -/
  doc : Document
  /-- The open section. -/
  current : Option Section := none
  /-- The group that new entries go to. It need not be in any section yet. -/
  group : GroupId
  /-- The entry that is still being written. -/
  pending : Option Entry := none
  /-- What is to do, as listed so far. -/
  todos : List Span := []
  /-- What is to mend, as listed so far. -/
  fixmes : List Span := []
  /-- The style that the next paragraph gets. -/
  nextStyle : Option String := none
  /-- The group of the function whose source is being read. -/
  functionGroup : Option GroupId := none
  /-- The key of the open parameter table. -/
  table : Option String := none
  /-- The state to go back to after a comment inside a table. -/
  back : Option String := none
  scratch : Option Scratch := none
  /-- Whether loose mode has already been reported. -/
  looseReported : Bool := false
  /-- The file that faults name. -/
  file : String
  /-- The language of code that names none. -/
  language : String
  /-- The options that directives may set. -/
  allowedOptions : List String

/-- The class of the first paragraph of a document. -/
def summaryStyle : String := "summary"

/-- The section with a group at its end, unless that is its last group already. -/
def Section.place (s : Section) (i : GroupId) : Section :=
  if s.groups.getLast? = some i then s else { s with groups := s.groups ++ [i] }

namespace Draft

/-- A draft of a document that has no sections yet. Without a file of its own it is called
by the full name of the document. -/
def start (doc : Document) (file : Option String) (language : String)
    (allowedOptions : List String) : Draft :=
  { doc := doc.insertGroup {}, group := doc.store.nextId,
    file := (filled file).getD doc.fullname, language, allowedOptions }

/-- The document that is being written, with the open section and the lists at its end. -/
def document (d : Draft) : Document :=
  let doc := { d.doc with sections := d.doc.sections ++ d.current.toList }
  (doc.withTodos d.todos).withFixmes d.fixmes

/-- Whether any section has been opened. -/
def hasSection (d : Draft) : Bool :=
  d.current.isSome || !d.doc.sections.isEmpty

/-- The current group. -/
def currentGroup (d : Draft) : Group :=
  d.doc.store.get d.group

/-- Whether the current group is the first one of the open section. -/
def opensSection (d : Draft) : Bool :=
  match d.current with
  | some s => s.groups.head? = some d.group
  | none => false

/-- Whether the current group is in the open section. -/
def inSection (d : Draft) : Bool :=
  match d.current with
  | some s => s.groups.contains d.group
  | none => false

/-- Makes a new group the current one. No section has it yet. -/
def freshGroup (d : Draft) : Draft :=
  { d with doc := d.doc.insertGroup {}, group := d.doc.store.nextId }

/-- Changes the current group. -/
def updateGroup (d : Draft) (f : Group → Group) : Draft :=
  { d with doc := d.doc.updateGroup d.group f }

/-- Adds an entry to the current group. -/
def addEntry (d : Draft) (e : Entry) : Draft :=
  { d with doc := d.doc.addEntry d.group e }

/-- Puts a group into the open section, unless it is its last group already. -/
def placeGroup (d : Draft) (i : GroupId) : Draft :=
  { d with current := d.current.map (·.place i) }

/-- Puts the current group into the open section. -/
def place (d : Draft) : Draft :=
  d.placeGroup d.group

/-- Puts the pending entry, if there is one, into the current group. The style that was
waiting for a paragraph is gone then, as only the first entry may have it. -/
def flush (d : Draft) : Draft :=
  match d.pending with
  | none => d
  | some e => { d.addEntry e.settled with pending := none, nextStyle := none }

/-- Opens a section with one new group. The first section is named for the document, the
others for their titles. -/
def openSection (d : Draft) (title : String) : Draft :=
  let d := d.flush.freshGroup
  let name := if d.hasSection then anchorOfTitle title else d.doc.name
  { d with
    doc := { d.doc with sections := d.doc.sections ++ d.current.toList }
    current := some { title, name, groups := [d.group] } }

/-- Opens a section in place of a missing one, under the full name of the document and
with an empty summary, and warns of it if a reason is given. The reason has a slot for the
full name. -/
def ensureSection (d : Draft) (reason : Option Template) : Draft × Log :=
  if d.hasSection then (d, [])
  else
    let log := match reason with
      | some r => [⟨.warning, .draft, r.fill d.doc.fullname⟩]
      | none => []
    ((d.openSection d.doc.fullname).addEntry (.paragraph ⟨some "", some summaryStyle⟩), log)

/-- Opens a section in place of a missing one for a reason that is still to be read. It is
read only if there is something to warn of, and an empty one is none. -/
def ensureSectionFor (d : Draft) (reason : Option String) : Except Fault (Draft × Log) :=
  match filled reason with
  | none => .ok (d.ensureSection none)
  | some r =>
    if d.hasSection then .ok (d, [])
    else do return d.ensureSection (some (← Template.read r d.doc.fullname))

/-- Ends a comment: what is pending is complete, and a style that no paragraph took is
gone. -/
def closeComment (d : Draft) : Draft :=
  { d.flush with nextStyle := none }

end Draft

end DocComment
