import DocComment.Parse

/-!
# Settings hold in their scope

A caller may set and reset the settings, parse under them, and do any of this within
scopes, nested as deep as it likes; and at any point it may fail, and so may a source that
it parses, and then every scope that is open is left on the way to where the fault is
caught. `Script` has one constructor for each of these, so a script is any sequence of
such steps in which the scopes are nested, and `Script.run` goes through it and notes
every scope that is left and everything that is parsed.

Leaving a scope takes the settings off the list of those to come back to, without a look
at what they are. That they are the right ones rests on what a script does to that list:
it gives it back as it was, also where it fails (`Script.run_keeps`).
-/

namespace DocComment.Settings

/-- What a caller does, in order. -/
inductive Script where
  | done
  /-- Fails with a fault of the caller. -/
  | fail (fault : Fault)
  | set (settings : Settings) (next : Script)
  | reset (next : Script)
  /-- Parses lines, in a mode of its own if it says so. A text is parsed as its lines. -/
  | parse (q : Request) (loose : Option Bool) (lines : List String) (next : Script)
  /-- Does something in a scope with settings of its own, which is left even if that
  fails. -/
  | within (settings : Settings) (body next : Script)
  /-- Does something and goes on even if that fails. -/
  | attempt (body next : Script)

/-- What is seen of the settings, with those in force before and after. -/
inductive Event where
  /-- A scope was left. The settings before are those right before it was entered. -/
  | left (before after : Settings)
  /-- Lines were parsed, or met a fault. -/
  | parsed (before after : Settings) (q : Request) (loose : Option Bool) (lines : List String)
      (result : Except Fault (Document × Log))

/-- The settings are back after the event, and what was parsed was parsed under those
before it, with the mode that the caller asked for. -/
def Event.Scoped : Event → Prop
  | left before after => after = before
  | parsed before after q none lines result =>
    after = before ∧ result = parseLines before q lines
  | parsed before after q (some loose) lines result =>
    after = before ∧ result = parseLines { before with loose } q lines

/-- How far a script has come. -/
structure Progress where
  scope : Scope
  /-- The fault that it failed with and that nothing has caught yet. -/
  fault : Option Fault := none
  events : List Event := []

namespace Progress

/-- Goes on, unless there is a fault. -/
def andThen (p : Progress) (next : Scope → Progress) : Progress :=
  match p.fault with
  | some _ => p
  | none =>
    let p' := next p.scope
    { p' with events := p.events ++ p'.events }

/-- The scopes that were open before are open, and everything noted is as it should be. -/
structure Keeps (outer : List Settings) (p : Progress) : Prop where
  outer : p.scope.outer = outer
  events : ∀ e ∈ p.events, e.Scoped

variable {outer : List Settings} {p : Progress}

theorem Keeps.andThen {next : Scope → Progress} (h : p.Keeps outer)
    (hnext : (next p.scope).Keeps p.scope.outer) : (p.andThen next).Keeps outer := by
  rw [Progress.andThen]
  split
  · exact h
  · refine ⟨hnext.outer.trans h.outer, fun e he => ?_⟩
    rcases List.mem_append.1 he with he | he
    · exact h.events e he
    · exact hnext.events e he

end Progress

/-- Parses lines and notes it. -/
def Scope.parsed (s : Scope) (q : Request) (loose : Option Bool) (lines : List String) : Progress :=
  let (result, scope) := s.parseLines q loose lines
  let fault := match result with
    | .ok _ => none
    | .error fault => some fault
  { scope, fault, events := [.parsed s.current scope.current q loose lines result] }

namespace Script

/-- Goes through a script. -/
def run : Script → Scope → Progress
  | done, s => { scope := s }
  | fail fault, s => { scope := s, fault := some fault }
  | set settings next, s => next.run (s.set settings)
  | reset next, s => next.run s.reset
  | parse q loose lines next, s => (s.parsed q loose lines).andThen next.run
  | within settings body next, s =>
    let p := body.run (s.enter settings)
    let scope := p.scope.leave
    let left : Progress :=
      { p with scope, events := p.events ++ [.left s.current scope.current] }
    left.andThen next.run
  | attempt body next, s => { body.run s with fault := none }.andThen next.run

end Script

/-! ## What a script keeps -/

/-- Parsing changes nothing, and the mode that the caller asks for is all that it adds. -/
theorem Scope.keeps_parsed (s : Scope) (q : Request) (loose : Option Bool) (lines : List String) :
    (s.parsed q loose lines).Keeps s.outer := by
  cases loose with
  | none => exact ⟨rfl, fun e he => List.mem_singleton.1 he ▸ ⟨rfl, rfl⟩⟩
  | some loose => exact ⟨rfl, fun e he => List.mem_singleton.1 he ▸ ⟨rfl, rfl⟩⟩

/-- A scope is left for the settings that were noted when it was entered. -/
theorem Scope.leave_of_outer {s s' : Scope} (h : s'.outer = s.current :: s.outer) :
    s'.leave = s := by
  rw [leave, h]

theorem Script.run_keeps (script : Script) (s : Scope) : (script.run s).Keeps s.outer := by
  induction script generalizing s with
  | done | fail => exact ⟨rfl, fun e he => by cases he⟩
  | set settings next ih => exact ih (s.set settings)
  | reset next ih => exact ih s.reset
  | parse q loose lines next ih => exact (s.keeps_parsed q loose lines).andThen (ih _)
  | within settings body next ihbody ih =>
      have hbody := ihbody (s.enter settings)
      have hleave : (body.run (s.enter settings)).scope.leave = s :=
        Scope.leave_of_outer hbody.outer
      refine Progress.Keeps.andThen ⟨congrArg Scope.outer hleave, fun e he => ?_⟩ (ih _)
      rcases List.mem_append.1 he with he | he
      · exact hbody.events e he
      · rw [List.mem_singleton.1 he]
        exact congrArg Scope.current hleave
  | attempt body next ihbody ih =>
      have hbody := ihbody s
      exact Progress.Keeps.andThen ⟨hbody.outer, hbody.events⟩ (ih _)

/-- A scope leaves no trace, whether its body fails or not. -/
theorem Script.run_within_scope (settings : Settings) (body : Script) (s : Scope) :
    ((within settings body done).run s).scope = s := by
  have hleave := Scope.leave_of_outer (body.run_keeps (s.enter settings)).outer
  rw [run, Progress.andThen]
  split
  · exact hleave
  · exact hleave

/-- Whatever a caller does: every scope that is left brings back the settings that were in
force just before it was entered, and every parsing, failed or not, leaves the settings as
it found them and goes by them with nothing changed but the mode that the caller asks
for. -/
theorem settings_scoped :
    (∀ (script : Script) (s : Scope), ∀ e ∈ (script.run s).events, e.Scoped) ∧
    (∀ (settings : Settings) (body : Script) (s : Scope),
      ((Script.within settings body .done).run s).scope = s) ∧
    ∀ (s : Scope) (q : Request) (text : String),
      s.parse q none text = (parse s.current q text, s) ∧
      ∀ loose, s.parse q (some loose) text = (parse { s.current with loose } q text, s) :=
  ⟨fun script s => (script.run_keeps s).events, Script.run_within_scope,
    fun _ _ _ => ⟨rfl, fun _ => rfl⟩⟩

/-- A refused directive leaves two scopes at once, and what was set in them is gone. -/
theorem settings_scoped_refused :
    let directive :=
      Script.parse { name := some "d" } (some true) ["// # T", "", "// doc:none"] .done
    let inner := Script.within { trace := true } (.set { maxReplay := 3 } directive) (.reset .done)
    let p := (Script.within { loose := true } inner .done).run { current := { maxReplay := 2 } }
    p.fault.isSome ∧ p.scope = { current := { maxReplay := 2 } } ∧
      p.events[1]? = some (.left { loose := true } { loose := true }) ∧
      Event.Scoped (.left { loose := true } { loose := true }) := by
  intro directive inner p
  have hleft : p.events[1]? = some (.left { loose := true } { loose := true }) := rfl
  exact ⟨by decide +kernel, settings_scoped.2.1 _ _ _, hleft,
    settings_scoped.1 _ _ _ (List.mem_of_getElem? hleft)⟩

end DocComment.Settings
