import DocComment.Document.ParamTable

/-!
# Documents

A document is a list of titled sections, each a list of groups, with the parameter tables
that it documents and the lists of everything still to do. The groups themselves are in
its store.
-/

namespace DocComment

/-- A titled part of a document; `name` is what links point to. -/
structure Section where
  title : String
  name : String
  groups : List GroupId := []
  deriving DecidableEq, Repr

/-- The name of a section that is not the first: its title with hyphens for spaces, so
that a link written by hand finds it. -/
def anchorOfTitle (title : String) : String :=
  title.map fun c => if c = ' ' then '-' else c

structure Document where
  name : String
  /-- The module that the documented source belongs to. -/
  parent : Option String := none
  fullname : String
  sections : List Section := []
  /-- The documented tables by key, in the order of their first declaration. -/
  params : List (String × ParamTable) := []
  /-- Parameters of the library itself. -/
  libParams : ParamTable := {}
  /-- Every listed TODO, if there is any. -/
  todo : Option Section := none
  /-- Every listed FIXME, if there is any. -/
  fixme : Option Section := none
  literate : Bool := false
  loose : Bool := false
  store : GroupStore := {}

/-- A name with the module it belongs to, if any, and a dot before it. -/
def dottedName (parent : Option String) (name : String) : String :=
  match filled parent with
  | some p => p ++ "." ++ name
  | none => name

/-- Puts a value under a key. A key that is there already keeps its place. -/
def putKey {α : Type} (key : String) (value : α) : List (String × α) → List (String × α)
  | [] => [(key, value)]
  | (k, v) :: rest => if k = key then (k, value) :: rest else (k, v) :: putKey key value rest

namespace Document

/-- A document without content. A full name that is missing or empty is made from the
names. -/
def new (name : String) (parent fullname : Option String) : Document :=
  { name, parent, fullname := (filled fullname).getD (dottedName parent name) }

/-- The title of the first section. -/
def title (d : Document) : Option String :=
  d.sections.head?.map (·.title)

/-- The first entry of the first group. -/
def summary (d : Document) : Option Entry := do
  let first ← d.sections.head?
  let group ← first.groups.head?
  (d.store.get group).entries.head?

/-- The sections, and after them what is still to do and to mend. -/
def allSections (d : Document) : List Section :=
  d.sections ++ d.todo.toList ++ d.fixme.toList

/-- The section at a place, counted from the end if the place is negative. -/
def sectionAt? (d : Document) (place : Int) : Option Section :=
  let fromStart := if place < 0 then place + d.sections.length else place
  if fromStart < 0 then none else d.sections[fromStart.toNat]?

/-- The section at the end of a document that lists the spans of a kind. -/
def listing (kind : SpanKind) (group : GroupId) : Section :=
  { title := kind.name, name := kind.name, groups := [group] }

/-- Takes a group into the store; its name is the store's next one. -/
def insertGroup (d : Document) (g : Group) : Document :=
  { d with store := d.store.insert g }

/-- Changes one group. -/
def updateGroup (d : Document) (i : GroupId) (f : Group → Group) : Document :=
  { d with store := d.store.update i f }

/-- Lists what is to do, if there is anything. -/
def withTodos (d : Document) (spans : List Span) : Document :=
  if spans.isEmpty then d
  else
    { d.insertGroup { entries := spans.map .span } with
      todo := some (listing .todo d.store.nextId) }

/-- Lists what is to mend, if there is anything. -/
def withFixmes (d : Document) (spans : List Span) : Document :=
  if spans.isEmpty then d
  else
    { d.insertGroup { entries := spans.map .span } with
      fixme := some (listing .fixme d.store.nextId) }

/-- Adds an entry to a group. -/
def addEntry (d : Document) (i : GroupId) (e : Entry) : Document :=
  d.updateGroup i fun g => { g with entries := g.entries ++ [e] }

end Document

end DocComment
