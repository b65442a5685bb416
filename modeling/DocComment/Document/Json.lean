import DocComment.Document.Basic
import DocComment.Json.Printer

/-!
# Documents as JSON

Every part of a document as an object that names its kind. A span shows the name of the
item that it refers to instead of the group, so the result is a tree. The pending item of
a list is not part of it.
-/

namespace DocComment

open Json

/-- An object that names its kind. -/
def kinded (kind : String) (members : List (String × Json)) : Json :=
  obj (("_type", str kind) :: members)

def ListItem.toJson (i : ListItem) : Json :=
  kinded "ListItem" [("text", str i.text), ("key", ofString? i.key)]

/-- An entry; the store tells the names of the groups that spans refer to. -/
def Entry.toJson (store : GroupStore) (e : Entry) : Json :=
  kinded e.kindName <|
    match e with
    | .paragraph p => [("text", ofString? p.text), ("klass", ofString? p.style)]
    | .heading h => [("text", str h.text), ("level", str h.level.name)]
    | .edge e => [("name", str e.name), ("prefix", ofString? e.lead), ("closing", bool e.closing)]
    | .formula f => [("mode", str f.mode.name), ("text", ofString? f.text)]
    | .code c => [("lang", str c.lang), ("text", ofString? c.text)]
    | .span s =>
      [("kind", str s.kind.name), ("text", ofString? s.text),
       ("group", ofString? (s.origin.bind fun i => (store.get i).anchor)),
       ("file", ofString? s.file), ("section_name", ofString? s.sectionName)]
    | .list l => [("items", arr (l.items.map ListItem.toJson))]
    | .blank => []

def Group.toJson (store : GroupStore) (g : Group) : Json :=
  kinded "Group"
    [("entries", arr (g.entries.map (Entry.toJson store))),
     ("function", ofString? g.function),
     ("binding", ofString? (g.binding.map Binding.name)),
     ("constant", ofString? g.constant),
     ("param", ofString? g.param),
     ("param_kind", ofString? (g.paramKind.map ParamKind.name)),
     ("params", ofString? g.params)]

/-- The groups of the given names. -/
def GroupStore.toJson (store : GroupStore) (groups : List GroupId) : Json :=
  arr (groups.map fun i => (store.get i).toJson store)

def Section.toJson (store : GroupStore) (s : Section) : Json :=
  kinded "Section"
    [("title", str s.title), ("name", str s.name), ("groups", store.toJson s.groups)]

def Document.toJson (d : Document) : Json :=
  kinded "Document"
    [("name", str d.name),
     ("module", ofString? d.parent),
     ("fullname", str d.fullname),
     ("sections", arr (d.sections.map (Section.toJson d.store))),
     ("params", obj (d.params.map fun (key, table) => (key, d.store.toJson table.groups))),
     ("lib_params", d.store.toJson d.libParams.groups),
     ("todo", ofOption (Section.toJson d.store) d.todo),
     ("fixme", ofOption (Section.toJson d.store) d.fixme),
     ("literate", bool d.literate),
     ("loose", bool d.loose)]

namespace Document

/-- The document as text, the members of all objects in the order of their names. -/
def jsonText (d : Document) (layout : Layout) : String :=
  d.toJson.sorted.text layout

/-- One section as text. -/
def sectionText (d : Document) (s : Section) (layout : Layout) : String :=
  (s.toJson d.store).sorted.text layout

end Document

end DocComment
