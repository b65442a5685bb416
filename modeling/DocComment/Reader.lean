import DocComment.Dialect.Grammar
import DocComment.Text.Lines
import DocComment.Text.Quoted

/-!
# Reading lines

A reader takes the lines of a source one by one. The rules of the state that it is in are
tried on the line; the one that matches acts on the draft and says where to go on. If the
line is to be evaluated again in the new state, that is done at once, as often as the
bound allows: a grammar that would go round in circles meets a fault and no reader runs
forever.

The bound is read nowhere else, so a higher one can only let more lines through.
-/

namespace DocComment

open Text

/-- How lines are read. -/
structure Reader where
  grammar : Grammar := Dialect.grammar
  /-- How often a line may be evaluated again. -/
  maxReplay : Int := 8
  /-- Whether every step is logged. -/
  trace : Bool := false

/-- How far the reading has come. -/
structure Reading where
  state : State
  /-- Whether no line has been evaluated in this state since it was entered. -/
  entering : Bool := true
  /-- The number of lines so far. -/
  line : Nat := 0
  draft : Draft
  log : Log := []

namespace Reader

/-- The reading before the first line. -/
def start (r : Reader) (initial : String) (draft : Draft) : Except Fault Reading :=
  match r.grammar.find? initial with
  | some state => .ok { state, draft }
  | none => .error (.grammar (.unknownInitial initial) none none)

/-- Logs a step, if steps are logged. -/
def note (r : Reader) (g : Reading) (message : String) : Reading :=
  if r.trace then
    let place := toString g.line ++ " [" ++ g.state.name ++ "] "
    { g with log := g.log ++ [⟨.debug, .reader, place ++ message⟩] }
  else g

/-- Runs a hook, if there is one. -/
def runHook (g : Reading) : Option Hook → Reading
  | none => g
  | some hook =>
    let (draft, log) := hook.run g.draft
    { g with draft, log := g.log ++ log }

/-- Goes on in the same state. -/
def stay (g : Reading) : Reading :=
  { g with entering := false }

/-- Goes on in another state: leaves the old one and enters the new one. -/
def moveTo (r : Reader) (g : Reading) (rule : Rule) (target : String) (again : Bool) :
    Except Fault Reading :=
  match r.grammar.find? target with
  | none => .error (.grammar (.lostTarget target) (some g.state.name) (some g.line))
  | some state =>
    let g := r.note g (rule.actionName ++ " -> " ++ target ++ (if again then " (replay)" else ""))
    let g := runHook g g.state.exit
    let g := runHook { g with state } state.enter
    .ok { g with entering := true }

/-- Performs the action of a rule, if it has one. -/
def act (g : Reading) (m : LineMatch) : Except Fault Effect :=
  match m.rule.action with
  | none => .ok { draft := g.draft }
  | some a => a.run g.line m.captures g.draft

/-- Evaluates a line once. The flag says whether it is to be evaluated again. -/
def evaluate (r : Reader) (line : String) (g : Reading) : Except Fault (Reading × Bool) :=
  match g.state.matchLine line g.entering with
  | none => .ok (stay (r.note g ("dropped: " ++ quoted line)), false)
  | some m => do
    let effect ← act g m
    let g := { g with draft := effect.draft, log := g.log ++ effect.log }
    match effect.next.getD m.rule.next with
    | .stay => return (stay (r.note g m.rule.actionName), false)
    | .goTo target again => return (← r.moveTo g m.rule target again, again)
    | .resolve resolver =>
      let (target, again) := resolver.target g.draft
      return (← r.moveTo g m.rule target again, again)

/-- Evaluates a line, and then again up to `left` times while that is asked for. -/
def evaluateAll (r : Reader) (line : String) (left : Nat) (g : Reading) : Except Fault Reading :=
  match r.evaluate line g with
  | .error fault => .error fault
  | .ok (g, false) => .ok g
  | .ok (g, true) =>
    match left with
    | 0 => .error (.grammar (.replayed r.maxReplay) (some g.state.name) (some g.line))
    | left + 1 => r.evaluateAll line left g

/-- Reads a line. Line ends at its end do not count. -/
def feed (r : Reader) (g : Reading) (line : String) : Except Fault Reading :=
  r.evaluateAll (dropLineEnd line) r.maxReplay.toNat { g with line := g.line + 1 }

/-- Reads lines in order. -/
def feedAll (r : Reader) (g : Reading) (lines : List String) : Except Fault Reading :=
  lines.foldlM r.feed g

/-- Ends the source in the state that was reached. -/
def finish (g : Reading) : Reading :=
  runHook (runHook g g.state.exit) g.state.eof

end Reader

end DocComment
