/-!
# What is logged

A record has a level, the part of the library that wrote it, and a message. Nothing here
is printed: a log is a list of records that whoever called may show.
-/

namespace DocComment

inductive Level where
  | debug
  | warning
  deriving DecidableEq, Repr

def Level.name : Level → String
  | .debug => "DEBUG"
  | .warning => "WARNING"

/-- Who writes records. -/
inductive Channel where
  | parse
  | draft
  | action
  | reader
  deriving DecidableEq, Repr

/-- The name that all channels share. -/
def rootChannel : String := "lucidoc"

/-- The name of a channel below the root; a name that is there already stays as it is. -/
def channelName (name : String) : String :=
  if name = rootChannel || (rootChannel ++ ".").toList.isPrefixOf name.toList then name
  else rootChannel ++ "." ++ name

def Channel.name : Channel → String
  | .parse => channelName "parser"
  | .draft => channelName "builder"
  | .action => channelName "machine.actions"
  | .reader => channelName "machine.driver"

structure Record where
  level : Level
  channel : Channel
  message : String
  deriving DecidableEq, Repr

/-- The records in the order of writing. -/
abbrev Log := List Record

namespace Record

/-- Level and message. -/
def short (r : Record) : String :=
  r.level.name ++ " " ++ r.message

/-- Level, channel and message. -/
def long (r : Record) : String :=
  r.level.name ++ " " ++ r.channel.name ++ " " ++ r.message

end Record

end DocComment
