import DocComment.Draft.Literate
import DocComment.Draft.Text

/-!
# Spans

A span is a paragraph under a keyword. What is to do and what is to mend is also listed at
the end of the document, with a note of where it was written.
-/

namespace DocComment.Draft

open Pattern

/-- The hyphen that keeps a span out of the lists. -/
def unlistedMarker : Pattern :=
  "-" ++ spaces ++ capture 0 anything ++ stop

/-- Lists a span, if spans of its kind are listed. -/
def listSpan (d : Draft) (s : Span) : Draft :=
  match s.kind with
  | .todo => { d with todos := d.todos ++ [s] }
  | .fixme => { d with fixmes := d.fixmes ++ [s] }
  | .warn | .note => d

/-- Starts a span. It is listed, with the group of the function that it is in or else the
current group, unless its kind is never listed or a hyphen comes first. -/
def addSpan (d : Draft) (kind : SpanKind) (text : String) : Draft :=
  let d := d.splitCapture
  let origin := d.functionGroup.getD d.group
  let d := d.flush
  match unlistedMarker.read? text with
  | some captures => { d with pending := some (.span { kind, text := some (captures.text 0) }) }
  | none =>
    let d := { d with pending := some (.span { kind, text := some text }) }
    d.listSpan { kind, text := some text, origin := some origin, file := some d.doc.fullname,
                 sectionName := d.current.map (·.name) }

/-- A line that starts with a word in capitals: a span if the word is a keyword, and text
if not. -/
def addKeyword (d : Draft) (whole keyword text : String) : Except Fault Draft :=
  match SpanKind.ofName? keyword with
  | some kind => .ok (d.addSpan kind text)
  | none => d.appendText whole false

/-- Adds a TODO of one line to the current group. -/
def addTodo (d : Draft) (text : String) : Draft :=
  (d.addSpan .todo text).flush

end DocComment.Draft
