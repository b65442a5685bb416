/-!
# Entries

What a group of documentation holds: paragraphs, headings, the edges of parameter tables,
formulas, code, spans and lists. An entry is a value; nothing refers to it but the group
that holds it.
-/

namespace DocComment

/-- The name of a group of a document. Groups are told apart by their names alone, so two
groups with the same content stay different groups. -/
structure GroupId where
  index : Nat
  deriving DecidableEq, Repr

/-- A text that is present and not empty. -/
def filled (s : Option String) : Option String :=
  s.filter (!·.isEmpty)

theorem filled_of_ne {s : String} (h : s ≠ "") : filled (some s) = some s := by
  rw [filled, Option.filter_some, if_pos (by simpa using h)]

/-- A plain paragraph. Its class, if any, is a style of the page. -/
structure Paragraph where
  text : Option String := none
  style : Option String := none
  deriving DecidableEq, Repr

/-- What a heading stands over. -/
inductive HeadingLevel where
  /-- A part of a section. -/
  | title
  /-- A part of a parameter table. -/
  | param
  deriving DecidableEq, Repr

def HeadingLevel.name : HeadingLevel → String
  | .title => "title"
  | .param => "param"

/-- A heading below the title of a section. -/
structure Heading where
  text : String
  level : HeadingLevel := .title
  deriving DecidableEq, Repr

/-- The line that opens a documented parameter table, or the one that closes it. -/
structure TableEdge where
  name : String
  /-- What stands before the name; not empty for a table of the library itself. -/
  lead : Option String := none
  closing : Bool := false
  deriving DecidableEq, Repr

/-- Whether a formula stands within the text or on its own. -/
inductive MathMode where
  | inline
  | block
  deriving DecidableEq, Repr

def MathMode.name : MathMode → String
  | .inline => "inline"
  | .block => "block"

/-- A formula, as it was written. -/
structure Formula where
  mode : MathMode
  text : Option String := none
  deriving DecidableEq, Repr

/-- A block of code. The first word of `lang` is its language, the others are styles. -/
structure CodeBlock where
  lang : String
  text : Option String := none
  deriving DecidableEq, Repr

namespace CodeBlock

/-- The language of the block: what stands before the first space. -/
def language (c : CodeBlock) : String :=
  String.ofList (c.lang.toList.takeWhile (· != ' '))

/-- Plain text is shown without highlighting. -/
def highlighted (c : CodeBlock) : Bool :=
  c.language != "txt"

end CodeBlock

/-- The keywords that start a span. -/
inductive SpanKind where
  | todo
  | fixme
  | warn
  | note
  deriving DecidableEq, Repr

namespace SpanKind

def name : SpanKind → String
  | todo => "TODO"
  | fixme => "FIXME"
  | warn => "WARN"
  | note => "NOTE"

/-- The style of a span on a page. -/
def style : SpanKind → String
  | todo => "todo"
  | fixme => "fixme"
  | warn => "warn"
  | note => "note"

def ofName? : String → Option SpanKind
  | "TODO" => some todo
  | "FIXME" => some fixme
  | "WARN" => some warn
  | "NOTE" => some note
  | _ => none

@[simp] theorem ofName?_name (k : SpanKind) : ofName? k.name = some k := by
  cases k <;> rfl

end SpanKind

/-- A paragraph under a keyword. In the lists at the end of a document a span also says
where it was written: in which group, in which document and in which section. -/
structure Span where
  kind : SpanKind
  text : Option String := none
  origin : Option GroupId := none
  file : Option String := none
  sectionName : Option String := none
  deriving DecidableEq, Repr

/-- One item of a list; items of a definition list have a key. -/
structure ListItem where
  text : String
  key : Option String := none
  deriving DecidableEq, Repr

/-- A list of bullets or of definitions. While it is being written its last item is
`pending`, so that further lines can go on with it. -/
structure ListBlock where
  items : List ListItem := []
  pending : Option ListItem := none
  deriving DecidableEq, Repr

/-- Whether the list defines keys. -/
def ListBlock.isDefinition (l : ListBlock) : Bool :=
  l.items.any (·.key.isSome)

/-- The items of the list, the pending one included. -/
def ListBlock.allItems (l : ListBlock) : List ListItem :=
  l.items ++ l.pending.toList

/-- Anything a group holds. -/
inductive Entry where
  | paragraph (p : Paragraph)
  | heading (h : Heading)
  | edge (e : TableEdge)
  | formula (f : Formula)
  | code (c : CodeBlock)
  | span (s : Span)
  | list (l : ListBlock)
  /-- An entry that says nothing. It has no place on a page. -/
  | blank
  deriving DecidableEq, Repr

namespace Entry

/-- The name of the kind of an entry, as messages and serialized documents give it. -/
def kindName : Entry → String
  | paragraph _ => "Paragraph"
  | heading _ => "Heading"
  | edge _ => "Attribute"
  | formula _ => "Math"
  | code _ => "Code"
  | span _ => "Span"
  | list _ => "ListBlock"
  | blank => "Entry"

def isHeading : Entry → Bool
  | heading _ => true
  | _ => false

/-- The paragraph that keeps a declaration out of the documentation. -/
def isNodoc : Entry → Bool
  | paragraph p => p.text = some "nodoc"
  | _ => false

end Entry

end DocComment
