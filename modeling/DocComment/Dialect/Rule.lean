import DocComment.Dialect.Action
import DocComment.Dialect.Hook

/-!
# Rules and states

A state is a list of rules, tried in order on every line; the first whose pattern matches
is the one that acts. A rule may be reserved for the first line after the state was
entered.
-/

namespace DocComment

structure Rule where
  pattern : Pattern
  action : Option Action := none
  next : Transition := .stay
  /-- Whether the rule is tried only right after its state was entered. -/
  onEntry : Bool := false

/-- Whether the rule matches every line. -/
def Rule.catchAll (r : Rule) : Bool :=
  r.pattern.isEmpty

/-- The name of what a rule does, in messages. -/
def Rule.actionName (r : Rule) : String :=
  match r.action with
  | some a => a.name
  | none => "-"

structure State where
  name : String
  rules : List Rule
  enter : Option Hook := none
  exit : Option Hook := none
  /-- What is done if the source ends in this state. -/
  eof : Option Hook := none

/-- The rule that matches a line, with its place among the rules and its captures. -/
structure LineMatch where
  index : Nat
  rule : Rule
  captures : Captures

/-- Whether a rule takes part: rules for the first line do so only then. -/
def Rule.active (r : Rule) (entering : Bool) : Bool :=
  !r.onEntry || entering

/-- The first rule that matches a line; the first of the rules has the place `index`. -/
def matchFrom (index : Nat) (rules : List Rule) (line : String) (entering : Bool) :
    Option LineMatch :=
  match rules with
  | [] => none
  | r :: rs =>
    if r.active entering then
      match r.pattern.read? line with
      | some captures => some ⟨index, r, captures⟩
      | none => matchFrom (index + 1) rs line entering
    else matchFrom (index + 1) rs line entering

/-- The first rule of a state that matches a line. -/
def State.matchLine (s : State) (line : String) (entering : Bool) : Option LineMatch :=
  matchFrom 0 s.rules line entering

end DocComment
