import DocComment.Draft.Literate

/-!
# Hooks

What is done when a state is entered or left, or when the source ends in it.
-/

namespace DocComment

inductive Hook where
  | startEof
  | preambleEof
  | flush
  | sourceEnter
  | sourceExit
  deriving DecidableEq, Repr

namespace Hook

def name : Hook → String
  | startEof => "start_eof"
  | preambleEof => "preamble_eof"
  | flush => "flush"
  | sourceEnter => "source_enter"
  | sourceExit => "source_exit"

def all : List Hook :=
  [startEof, preambleEof, flush, sourceEnter, sourceExit]

def ofName? (s : String) : Option Hook :=
  all.find? (·.name = s)

/-- In literate mode source is captured from where it starts. What stands before it, in
the group of the comment that was just read, is kept. -/
def enterSource (d : Draft) : Draft :=
  if d.doc.literate then
    let d := if d.currentGroup.entries.isEmpty then d else d.place
    d.startCapture
  else d

def run : Hook → Draft → Draft × Log
  | startEof, d => d.ensureSection (some
      { before := "Reaching end of document without finding preamble documentation in '"
        after := "'." })
  | preambleEof, d => d.ensureSection (some
      { before := "Reaching end of document inside the preamble of '"
        after := "' without a '# title'." })
  | flush, d => (d.flush, [])
  | sourceEnter, d => (enterSource d, [])
  | sourceExit, d => (d.finishCapture, [])

end Hook

end DocComment
