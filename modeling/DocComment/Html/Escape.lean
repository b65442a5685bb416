/-!
# Escapes

The characters that mean something in a page, written so that they mean themselves.
Apostrophes are left alone in the content of an element, as prose is full of them.
-/

namespace DocComment.Html

/-- A character in the content of an element. -/
def escapeContent (c : Char) : List Char :=
  if c = '&' then "&amp;".toList
  else if c = '<' then "&lt;".toList
  else if c = '>' then "&gt;".toList
  else [c]

/-- A character in the value of an attribute. -/
def escapeValue (c : Char) : List Char :=
  if c = '"' then "&quot;".toList
  else if c = '\x27' then "&#x27;".toList
  else escapeContent c

/-- A text as the content of an element. -/
def escapeChars (cs : List Char) : List Char :=
  cs.flatMap escapeContent

@[inherit_doc escapeChars] def escape (s : String) : String :=
  String.ofList (escapeChars s.toList)

/-- A text as the value of an attribute. -/
def escapeAttr (s : String) : String :=
  String.ofList (s.toList.flatMap escapeValue)

end DocComment.Html
