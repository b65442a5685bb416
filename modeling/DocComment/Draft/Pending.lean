import DocComment.Document.Entry
import DocComment.Fault
import DocComment.Pattern.Class
import DocComment.Text.Lowercase

/-!
# Entries that are still being written

An entry stays pending while lines may still go on with it. Here is what a further line
does to it, how code and list items start, and what is done to an entry when it is
settled.
-/

namespace DocComment

open Text Pattern

/-- A text with a line added to it: after a line feed, or else after a space. A space
separates only what is not empty. -/
def joinText (current : Option String) (text : String) (onNewLine : Bool) : String :=
  if onNewLine then
    match current with
    | none => text
    | some t => t ++ "\n" ++ text
  else
    match filled current with
    | none => text
    | some t => t ++ " " ++ text

/-- The list with a line added to its pending item. -/
def ListBlock.extend (l : ListBlock) (text : String) (onNewLine : Bool) : ListBlock :=
  match l.pending with
  | none => { l with pending := some { text } }
  | some i => { l with pending := some { i with text := joinText (some i.text) text onNewLine } }

/-- The list with a further item. What was pending is complete. -/
def ListBlock.push (l : ListBlock) (item : ListItem) : ListBlock :=
  { items := l.allItems, pending := some item }

/-- The item that a marker starts: a plus sign defines a key, if there is a definition. -/
def ListItem.marked (marker text : String) (definition : Option String) : ListItem :=
  match definition with
  | some d => if marker = "+" then { text := d, key := some text } else { text }
  | none => { text }

/-- The first line of a code block that only names its language. -/
def languageMarker : Pattern :=
  "#" ++ capture 0 (one Char.isAlpha ++ run isLanguagePart 0 ++ optional (gap ++ anything)) ++ stop
where
  /-- A character of the name of a language. -/
  isLanguagePart (c : Char) : Bool := isWord c || c = '+' || c = '#' || c = '.' || c = '-'

/-- The code block that a first line starts. -/
def CodeBlock.ofFirstLine (defaultLanguage line : String) : CodeBlock :=
  match languageMarker.read? (trim line) with
  | some captures => { lang := lowercase (trim (captures.text 0)) }
  | none => { lang := defaultLanguage, text := some line }

namespace Entry

/-- The entry with a line added to it. Headings, table edges and blank entries take
none. -/
def extend (e : Entry) (text : String) (onNewLine : Bool) : Except Fault Entry :=
  match e with
  | paragraph p => .ok (paragraph { p with text := joinText p.text text onNewLine })
  | span s => .ok (span { s with text := joinText s.text text onNewLine })
  | formula f => .ok (formula { f with text := joinText f.text text onNewLine })
  | code c => .ok (code { c with text := joinText c.text text onNewLine })
  | list l => .ok (list (l.extend text onNewLine))
  | heading _ | edge _ | blank => .error (.grammar (.noText e.kindName) none none)

/-- The entry as it goes into its group: a list takes in its pending item, and code loses
the empty lines at its end. -/
def settled : Entry → Entry
  | list l => list { items := l.allItems }
  | code c => code { c with text := c.text.map dropFinalNewlines }
  | e => e

end Entry

end DocComment
