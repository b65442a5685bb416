import DocComment.Document.Basic
import DocComment.Html.Inline
import DocComment.Text.Parts

/-!
# Pages

A document as a fragment of HTML: an element for each section, a heading for each group
that documents an item, and its entries. The lists of what is to do come last; each of
their spans links back to where it was written.
-/

namespace DocComment.Html

open Text

/-- The style of the heading of a function. -/
def bindingStyle : Option Binding → String
  | some .method => "method"
  | some .globalFunction => "global"
  | some .classFunction | none => "function"

/-- The name of a document before the name of one of its items. -/
def ownerName (d : Document) : String :=
  "<span class='prefix'>" ++ escape d.name ++ ".</span>"

/-- The heading of a group that documents a function. -/
def functionHeading (d : Document) (g : Group) (name : String) : String :=
  let owner := if g.binding = some .classFunction then ownerName d else ""
  "<h3 id='" ++ escapeAttr name ++ "' class='entry " ++ bindingStyle g.binding ++ "'>" ++ owner
    ++ escape name ++ "<span class='params'>" ++ escape (g.params.getD "") ++ "</span></h3>\n"

/-- The heading of a group that documents a constant. -/
def constantHeading (d : Document) (name : String) : String :=
  "<h3 id='" ++ escapeAttr name ++ "' class='entry constant'>" ++ ownerName d ++ escape name
    ++ "</h3>\n"

/-- The heading of a group that documents a parameter. -/
def paramHeading (g : Group) (name : String) : String :=
  let kind := match g.paramKind with
    | some k => k.name
    | none => "param"
  let value := match filled g.params with
    | some v => "<span class='value'> = " ++ escape v ++ "</span>"
    | none => ""
  "<h4 id='" ++ escapeAttr name ++ "' class='entry " ++ kind ++ "'>" ++ escape name ++ value
    ++ "</h4>\n"

/-- The heading of a group; a group that documents no item has none. -/
def groupHeading (d : Document) (g : Group) : String :=
  match filled g.function, filled g.constant, filled g.param with
  | some name, _, _ => functionHeading d g name
  | none, some name, _ => constantHeading d name
  | none, none, some name => paramHeading g name
  | none, none, none => ""

/-- The markup that a paragraph may start with in place of text. -/
def rawMarkup (s : String) : Option String := do
  let cs ← after? "<html>".toList (s.toList.dropWhile (· = ' '))
  let (body, _) ← upTo? (fun _ => true) "</html>".toList cs
  return String.ofList body

/-- A paragraph. One without a style may be raw markup. -/
def paragraphHtml (p : Paragraph) : Except Fault String := do
  let text := p.text.getD ""
  match filled p.style with
  | some style => return "<p class='" ++ escapeAttr style ++ "'>" ++ (← prose text) ++ "</p>"
  | none =>
    match rawMarkup text with
    | some markup => return markup
    | none => return "<p>" ++ (← prose text) ++ "</p>"

/-- The line that opens or closes a parameter table. -/
def edgeHtml (e : TableEdge) : Except Fault String := do
  if e.closing then return "<h4 class='entry attrib'>\x7d</h4>"
  else
    let lead := if (filled e.lead).isSome then "<span>.</span>" else ""
    return "<h4 id='" ++ escapeAttr e.name ++ "' class='entry param'>" ++ lead ++ (← prose e.name)
      ++ " = \x7b</h4>"

/-- A block of code. -/
def codeHtml (c : CodeBlock) : String :=
  let style := if c.highlighted then "prettyprint lang-" else ""
  "<pre class='" ++ style ++ escapeAttr c.lang ++ "'>" ++ escape (c.text.getD "") ++ "</pre>"

/-- Where a span was written: the target of a link, and its text. The document has to be
named only if it is another one. -/
def spanTarget (d : Document) (s : Span) (origin : Group) : String × String :=
  let page := match filled s.file with
    | some f => if f = d.fullname then "" else f ++ ".html"
    | none => ""
  match filled origin.function, filled s.sectionName with
  | some f, _ => (page ++ "#" ++ f, "#" ++ f)
  | none, some name => (page ++ "#" ++ name, name)
  | none, none => (page, (filled s.file).getD d.fullname)

/-- The link of a span to where it was written, if that is known. -/
def spanLink (d : Document) (s : Span) : String :=
  match s.origin with
  | none => ""
  | some i =>
    let (target, label) := spanTarget d s (d.store.get i)
    "<span class='ref'><a href='" ++ escapeAttr target ++ "'>" ++ escape label ++ "</a></span>"

def spanHtml (d : Document) (s : Span) : Except Fault String := do
  let text ← prose (s.text.getD "")
  return "<p class='" ++ s.kind.style ++ "'>" ++ spanLink d s ++ "<span>" ++ s.kind.name
    ++ "</span> " ++ text ++ "</p>"

/-- A row of a list of definitions. -/
def definitionRow (i : ListItem) : Except Fault String := do
  let key ← prose (i.key.getD "")
  let text ← prose i.text
  return "  <tr><td class='key'>" ++ key ++ "</td><td>" ++ text ++ "</td></tr>"

/-- An item of a list of bullets. -/
def bulletRow (i : ListItem) : Except Fault String := do
  return "<li>" ++ (← prose i.text) ++ "</li>"

/-- Rows within an element, each on its own line. -/
def rowsWithin (opening closing : String) (rows : List String) : String :=
  ((rows.foldl Parts.appendLine (Parts.appendLine {} opening)).append closing).text

/-- A list, the pending item included. A list without items shows nothing. -/
def listHtml (l : ListBlock) : Except Fault String := do
  let items := l.allItems
  if items.isEmpty then return ""
  else if items.any (·.key.isSome) then
    return rowsWithin "<table class='definition'>" "</table>" (← items.mapM definitionRow)
  else return rowsWithin "<ul>" "</ul>" (← items.mapM bulletRow)

def headingHtml (h : Heading) : Except Fault String := do
  return "<h4 class='sub-" ++ h.level.name ++ "'>" ++ (← prose h.text) ++ "</h4>"

/-- An entry. -/
def entryHtml (d : Document) : Entry → Except Fault String
  | .paragraph p => paragraphHtml p
  | .heading h => headingHtml h
  | .edge e => edgeHtml e
  | .formula f => .ok ("<p>" ++ mathTag f.mode f.text ++ "</p>")
  | .code c => .ok (codeHtml c)
  | .span s => spanHtml d s
  | .list l => listHtml l
  | .blank => .error (.page (.unknownEntry Entry.blank.kindName))

/-- A group: its heading and its entries, each on its own line. -/
def groupHtml (d : Document) (i : GroupId) : Except Fault String := do
  let g := d.store.get i
  let entries ← g.entries.mapM (entryHtml d)
  return groupHeading d g ++ String.join (entries.map (· ++ "\n"))

/-- A section: its title and its groups. -/
def sectionHtml (d : Document) (s : Section) : Except Fault String := do
  let title ← prose s.title
  let groups ← s.groups.mapM (groupHtml d)
  return "<section id='" ++ escapeAttr s.name ++ "'>\n<h2 class='section'>" ++ title ++ "</h2>\n"
    ++ String.join groups ++ "</section>\n"

/-- A document as a page. -/
def page (d : Document) : Except Fault String := do
  return String.join (← d.allSections.mapM (sectionHtml d))

end DocComment.Html
