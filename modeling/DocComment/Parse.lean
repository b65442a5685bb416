import DocComment.Reader
import DocComment.Settings
import DocComment.Source.File
import DocComment.Source.Path

/-!
# Parsing sources

From lines to a document: the lines are read into a draft and the draft is finished. What
the document is called is given, or derived from the path of its source.
-/

namespace DocComment

/-- What is told of a source beside its lines. -/
structure Request where
  name : Option String := none
  parent : Option String := none
  fullname : Option String := none
  file : Option String := none
  deriving DecidableEq, Repr

/-- The request with its name. Without one the names are derived from the path, where no
others are given. -/
def Request.named (q : Request) : Except Fault (String × Request) :=
  match q.name, q.file with
  | some name, _ => .ok (name, q)
  | none, none => .error .noName
  | none, some file => do
    let names ← Source.names file
    let parent := q.parent <|> names.parent
    let fullname := q.fullname <|> some names.fullname
    return (names.name, { q with parent, fullname })

namespace Settings

/-- The settings with loose mode as a caller wants it, if it says so. -/
def withLoose (s : Settings) (loose : Option Bool) : Settings :=
  { s with loose := loose.getD s.loose }

/-- How lines are read under these settings. -/
def reader (s : Settings) : Reader :=
  { maxReplay := s.maxReplay, trace := s.trace }

end Settings

/-- The reading of a source before its first line. -/
def startReading (settings : Settings) (name : String) (q : Request) : Except Fault Reading := do
  let doc := { Document.new name q.parent q.fullname with loose := settings.loose }
  let draft := Draft.start doc q.file settings.defaultLanguage settings.allowedOptions
  let g ← settings.reader.start Dialect.initial draft
  return { g with log := [⟨.debug, .parse, "Parsing '" ++ doc.fullname ++ "'"⟩] }

/-- The document of a reading that has seen all lines, and all that was logged. -/
def finishReading (g : Reading) : Document × Log :=
  let g := Reader.finish g
  let (draft, log) := g.draft.finish
  (draft.document, g.log ++ log)

/-- Parses lines into a document. -/
def parseLines (settings : Settings) (q : Request) (lines : List String) :
    Except Fault (Document × Log) := do
  let (name, q) ← q.named
  let g ← startReading settings name q
  let g ← settings.reader.feedAll g lines
  return finishReading g

/-- Parses a text into a document. -/
def parse (settings : Settings) (q : Request) (text : String) : Except Fault (Document × Log) :=
  parseLines settings q (Text.lines text)

/-- Parses a file, if there is one. The document is named for its path, which is looked at
first. -/
def parseFile (settings : Settings) (path : String) (encoding : Source.Encoding)
    (bytes : Option (List UInt8)) : Except Fault (Document × Log) := do
  let names ← Source.names path
  let some bytes := bytes | .error .noFile
  let file := Source.readFile encoding bytes
  let q : Request := { parent := names.parent, fullname := some names.fullname, file := some path }
  let g ← startReading settings names.name q
  let g ← settings.reader.feedAll g file.lines
  if file.complete then return finishReading g else .error .undecodable

namespace Settings.Scope

/-- Parses lines under the settings in force. If the caller asks for a mode of its own,
that holds in a scope of its own around the parsing. -/
def parseLines (s : Scope) (q : Request) (loose : Option Bool) (lines : List String) :
    Except Fault (Document × Log) × Scope :=
  match loose with
  | none => (DocComment.parseLines s.current q lines, s)
  | some _ =>
    let inner := s.enter (s.current.withLoose loose)
    (DocComment.parseLines inner.current q lines, inner.leave)

/-- Parses a text under the settings in force. -/
def parse (s : Scope) (q : Request) (loose : Option Bool) (text : String) :
    Except Fault (Document × Log) × Scope :=
  s.parseLines q loose (Text.lines text)

end Settings.Scope

end DocComment
