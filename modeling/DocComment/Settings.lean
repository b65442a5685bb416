/-!
# Settings

How sources are read, and a scope that holds the settings in force. Entering a scope
remembers the settings that were in force before it and leaving it brings them back,
whatever happened in between.
-/

namespace DocComment

/-- Puts a name into a list in increasing order that holds each name once. -/
def insertName (name : String) : List String → List String
  | [] => [name]
  | n :: ns =>
    if name = n then n :: ns
    else if name < n then name :: n :: ns
    else n :: insertName name ns

/-- Names in increasing order, each once. -/
def sortNames (names : List String) : List String :=
  names.foldr insertName []

structure Settings where
  /-- Start every document in loose mode, where missing documentation is not reported. -/
  loose : Bool := false
  /-- The language of code that names none. -/
  defaultLanguage : String := "js"
  /-- The options that directives may set. -/
  allowedOptions : List String := ["lit", "loose"]
  /-- How often a line may be evaluated again. -/
  maxReplay : Int := 8
  /-- Whether every step is logged. -/
  trace : Bool := false
  deriving DecidableEq, Repr

namespace Settings

/-- The settings in force and those to come back to, the innermost first. -/
structure Scope where
  current : Settings := {}
  outer : List Settings := []
  deriving DecidableEq, Repr

namespace Scope

/-- Replaces the settings in force. -/
def set (s : Scope) (settings : Settings) : Scope :=
  { s with current := settings }

/-- Goes back to the default settings. -/
def reset (s : Scope) : Scope :=
  s.set {}

/-- Opens an inner scope with its own settings. -/
def enter (s : Scope) (settings : Settings) : Scope :=
  ⟨settings, s.current :: s.outer⟩

/-- Closes the innermost scope; outside of all scopes nothing changes. -/
def leave (s : Scope) : Scope :=
  match s.outer with
  | [] => s
  | settings :: outer => ⟨settings, outer⟩

@[simp] theorem leave_enter (s : Scope) (settings : Settings) : (s.enter settings).leave = s := rfl

end Scope

end Settings

end DocComment
