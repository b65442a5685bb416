import DocComment.Dialect.BlockComment
import DocComment.Dialect.LineComment
import DocComment.Dialect.Source

/-!
# Grammars

A grammar is a list of states that refer to one another by name. It is declared with all
behaviour named as well; `Grammar.ofDeclared` finds what is meant by the names and refuses
the first one that nothing answers to. So the actions, hooks and resolvers of a grammar
always exist, and a rule never leads to a state that does not.
-/

namespace DocComment

structure Grammar where
  states : List State

namespace Grammar

/-- The state of a name. -/
def find? (g : Grammar) (name : String) : Option State :=
  g.states.find? (·.name = name)

end Grammar

/-- A transition as it is declared. -/
inductive DeclaredTransition where
  | stay
  | goTo (state : String) (again : Bool)
  | resolve (resolver : String)
  deriving DecidableEq, Repr

/-- A rule as it is declared. -/
structure DeclaredRule where
  pattern : Pattern
  action : Option String := none
  next : DeclaredTransition := .stay
  onEntry : Bool := false

/-- A state as it is declared. -/
structure DeclaredState where
  name : String
  rules : List DeclaredRule := []
  enter : Option String := none
  exit : Option String := none
  eof : Option String := none

/-- What a name means, if there is a name. -/
def resolveName {α : Type} (find : String → Option α) (unknown : String → GrammarCause)
    (state : String) : Option String → Except Fault (Option α)
  | none => .ok none
  | some name =>
    match find name with
    | some a => .ok (some a)
    | none => .error (.grammar (unknown name) (some state) none)

namespace DeclaredState

/-- Whether a rule that matches every line has rules after it. -/
def hasEarlyCatchAll (s : DeclaredState) : Bool :=
  s.rules.dropLast.any (·.pattern.isEmpty)

/-- What a declared transition means among the states of the given names. -/
def resolveTransition (names : List String) (state : String) :
    DeclaredTransition → Except Fault Transition
  | .stay => .ok .stay
  | .goTo target again =>
    if names.contains target then .ok (.goTo target again)
    else .error (.grammar (.unknownTarget target) (some state) none)
  | .resolve name =>
    match Resolver.ofName? name with
    | some r => .ok (.resolve r)
    | none => .error (.grammar (.unknownResolver name) (some state) none)

/-- What a declared rule means. -/
def resolveRule (names : List String) (state : String) (r : DeclaredRule) : Except Fault Rule := do
  let action ← resolveName Action.ofName? .unknownAction state r.action
  let next ← resolveTransition names state r.next
  return { pattern := r.pattern, action, next, onEntry := r.onEntry }

/-- What a declared state means. Its hooks are looked at before its rules. -/
def resolve (names : List String) (s : DeclaredState) : Except Fault State := do
  let enter ← resolveName Hook.ofName? .unknownHook s.name s.enter
  let exit ← resolveName Hook.ofName? .unknownHook s.name s.exit
  let eof ← resolveName Hook.ofName? .unknownHook s.name s.eof
  let rules ← s.rules.mapM (resolveRule names s.name)
  return { name := s.name, rules, enter, exit, eof }

end DeclaredState

namespace Grammar

/-- The grammar that is declared. A catch-all rule before the end of any state is refused
before any name is looked at. -/
def ofDeclared (states : List DeclaredState) : Except Fault Grammar :=
  match states.find? (·.hasEarlyCatchAll) with
  | some s => .error (.earlyCatchAll s.name)
  | none => do
    let states ← states.mapM (·.resolve (states.map (·.name)))
    return { states }

end Grammar

namespace Dialect

/-- The states of the comment dialect. -/
def states : List State :=
  [start, preamble, mgroup, mgroupBlank, mcode, mcodeBody, mmath, group, groupBlank, code, codeBody,
   math, endComment, lua, params]

/-- The comment dialect. -/
def grammar : Grammar := ⟨states⟩

/-- The state that every source starts in. -/
def initial : String := "start"

end Dialect

end DocComment
