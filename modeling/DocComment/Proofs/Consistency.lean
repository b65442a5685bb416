import DocComment.Proofs.Coherence

/-!
# What is remembered goes with the state

Five things are remembered between two lines beside the state and the document: which
section is open, the way back to a table, the capture of source, the pending entry and the
style of the next paragraph. Each is set and cleared in places of its own, and none of
these places names a state. `Reading.Consistent` says for each of the five in which states
it is there.

A coherent reading is consistent, as the phase of its draft is that of its state
(`Reading.Coherent.consistent`). So nothing is left to show about actions; the states are
sorted by their phases once (`Dialect.name_of_phase`), and the rest is read off the
phases.

`Reader.Reaches` leaves no reading out: lines may be fed after one that met a fault, and
between two evaluations of a line there is a reading too.
-/

namespace DocComment

open Relation Reader

/-- The readings that a reader comes to from a first one, whichever lines it is fed. -/
inductive Reader.Reaches (r : Reader) (g₀ : Reading) : Reading → Prop where
  | start : r.Reaches g₀ g₀
  /-- A line is read. -/
  | read {g g' : Reading} {line : String} (h : r.Reaches g₀ g) (hf : r.feed g line = .ok g') :
      r.Reaches g₀ g'
  /-- A line has been evaluated some times, and is asked for again or meets a fault
  now. -/
  | amid {g g' : Reading} {line : String} (h : r.Reaches g₀ g)
      (hs : ReflTransGen (r.Again (Text.dropLineEnd line)) { g with line := g.line + 1 } g') :
      r.Reaches g₀ g'

theorem Reader.Reaches.feedAll {r : Reader} {g₀ g g' : Reading} {lines : List String}
    (h : r.Reaches g₀ g) (hf : r.feedAll g lines = .ok g') : r.Reaches g₀ g' :=
  feedAll_keeps (fun hg hf => .read hg hf) h hf

theorem Reader.Reaches.of_feedAll {r : Reader} {g₀ g : Reading} {lines : List String}
    (h : r.feedAll g₀ lines = .ok g) : r.Reaches g₀ g :=
  .feedAll .start h

namespace Dialect

/-- The states before the first section. -/
def openingStates : List String :=
  ["start", "preamble"]

/-- The states within a comment in which an entry may be pending. -/
def pendingStates : List String :=
  ["mgroup", "mcode_body", "mmath", "group", "code_body", "math"]

/-- The states within a comment in which none is. -/
def settledStates : List String :=
  ["mgroup_blank", "mcode", "group_blank", "code"]

/-- The states within a comment. -/
def commentStates : List String :=
  pendingStates ++ settledStates

/-- The states in which no table is open. -/
def untabledStates : List String :=
  openingStates ++ ["end_comment", "lua"]

/-- The states of a phase. -/
def statesOf : Phase → List String
  | .opening => openingStates
  | .writing => pendingStates
  | .pausing => settledStates
  | .leaving => ["end_comment"]
  | .source => ["lua"]
  | .table => [Action.tableState]
  | .closed | .departing => []

theorem name_of_phase : ∀ s ∈ states, s.name ∈ statesOf s.phase := by
  decide

end Dialect

/-- What a reading remembers between two lines goes with the name of its state. -/
structure Reading.Consistent (g : Reading) : Prop where
  opened : g.draft.current = none ↔ g.state.name ∈ Dialect.openingStates
  back : g.draft.back = none ∨ g.draft.back = some Action.tableState
  inTable : g.state.name = Action.tableState → g.draft.table.isSome
  untabled : g.state.name ∈ Dialect.untabledStates → g.draft.table = none ∧ g.draft.back = none
  inComment : g.state.name ∈ Dialect.commentStates →
    (g.draft.back = some Action.tableState ↔ g.draft.table.isSome)
  captured : g.draft.scratch.isSome ↔ g.state.name = "lua" ∧ g.draft.doc.literate
  capturing : ∀ s, g.draft.scratch = some s → s.group = g.draft.group
  pending : g.draft.pending.isSome → g.state.name ∈ Dialect.pendingStates
  style : g.draft.nextStyle.isSome → g.state.name ∈ Dialect.commentStates

namespace Reading

variable {g : Reading}

theorem captured_of_none (hs : g.draft.scratch = none) (hn : g.state.name ≠ "lua") :
    g.draft.scratch.isSome ↔ g.state.name = "lua" ∧ g.draft.doc.literate := by
  rw [hs]
  exact iff_of_false Bool.false_ne_true fun h => hn h.1

theorem capturing_of_none (hs : g.draft.scratch = none) :
    ∀ s, g.draft.scratch = some s → s.group = g.draft.group := by
  intro s h
  rw [hs] at h
  cases h

theorem Consistent.of_opening (h : g.draft.Opening) (hn : g.state.name ∈ Dialect.openingStates) :
    g.Consistent := by
  obtain ⟨htable, hlua, hcomment⟩ : g.state.name ≠ Action.tableState ∧ g.state.name ≠ "lua" ∧
      g.state.name ∉ Dialect.commentStates :=
    (by decide : ∀ n ∈ Dialect.openingStates,
      n ≠ Action.tableState ∧ n ≠ "lua" ∧ n ∉ Dialect.commentStates) _ hn
  exact {
    opened := iff_of_true h.current hn
    back := Or.inl h.back
    inTable := fun ht => absurd ht htable
    untabled := fun _ => ⟨h.table, h.back⟩
    inComment := fun hc => absurd hc hcomment
    captured := captured_of_none h.scratch hlua
    capturing := capturing_of_none h.scratch
    pending := by simp [h.pending]
    style := by simp [h.style] }

theorem Consistent.of_writing (h : g.draft.Writing) (hn : g.state.name ∈ Dialect.commentStates)
    (hp : g.draft.pending.isSome → g.state.name ∈ Dialect.pendingStates) : g.Consistent := by
  obtain ⟨htable, hlua, hopening, huntabled⟩ : g.state.name ≠ Action.tableState ∧
      g.state.name ≠ "lua" ∧ g.state.name ∉ Dialect.openingStates ∧
      g.state.name ∉ Dialect.untabledStates :=
    (by decide : ∀ n ∈ Dialect.commentStates, n ≠ Action.tableState ∧ n ≠ "lua" ∧
      n ∉ Dialect.openingStates ∧ n ∉ Dialect.untabledStates) _ hn
  exact {
    opened := iff_of_false (Option.isSome_iff_ne_none.1 h.opened) hopening
    back := by rw [h.back]; cases g.draft.table <;> simp
    inTable := fun ht => absurd ht htable
    untabled := fun hu => absurd hu huntabled
    inComment := fun _ => by rw [h.back]; cases g.draft.table <;> simp
    captured := captured_of_none h.scratch hlua
    capturing := capturing_of_none h.scratch
    pending := hp
    style := fun _ => hn }

theorem Consistent.of_leaving (h : g.draft.Leaving) (hn : g.state.name = "end_comment") :
    g.Consistent where
  opened := iff_of_false (Option.isSome_iff_ne_none.1 h.opened) (by rw [hn]; decide)
  back := Or.inl h.between.back
  inTable := fun ht => absurd (hn.symm.trans ht) (by decide)
  untabled := fun _ => ⟨h.outside, h.between.back⟩
  inComment := fun hc => absurd (hn ▸ hc) (by decide)
  captured := captured_of_none h.scratch (by rw [hn]; decide)
  capturing := capturing_of_none h.scratch
  pending := by simp [h.settled]
  style := by simp [h.style]

theorem Consistent.of_source (h : g.draft.InSource) (hn : g.state.name = "lua") :
    g.Consistent where
  opened := iff_of_false (Option.isSome_iff_ne_none.1 h.opened) (by rw [hn]; decide)
  back := Or.inl h.back
  inTable := fun ht => absurd (hn.symm.trans ht) (by decide)
  untabled := fun _ => ⟨h.table, h.back⟩
  inComment := fun hc => absurd (hn ▸ hc) (by decide)
  captured := by rw [h.literate]; exact (and_iff_right hn).symm
  capturing := h.group
  pending := by simp [h.settled]
  style := by simp [h.style]

theorem Consistent.of_table (h : g.draft.InTable) (hn : g.state.name = Action.tableState) :
    g.Consistent where
  opened := iff_of_false (Option.isSome_iff_ne_none.1 h.opened) (by rw [hn]; decide)
  back := h.back
  inTable := fun _ => h.table
  untabled := fun hu => absurd (hn ▸ hu) (by decide)
  inComment := fun hc => absurd (hn ▸ hc) (by decide)
  captured := captured_of_none h.scratch (by rw [hn]; decide)
  capturing := capturing_of_none h.scratch
  pending := by simp [h.settled]
  style := by simp [h.style]

theorem Coherent.consistent (hg : g.Coherent) : g.Consistent := by
  have hn := Dialect.name_of_phase _ hg.state
  have hd := hg.fits
  cases hp : g.state.phase with
  | closed | departing =>
      rw [hp] at hn
      cases hn
  | opening =>
      rw [hp] at hn hd
      exact .of_opening hd hn
  | writing =>
      rw [hp] at hn hd
      exact .of_writing hd (List.mem_append_left _ hn) fun _ => hn
  | pausing =>
      rw [hp] at hn hd
      have hd : g.draft.Pausing := hd
      exact .of_writing hd.toWriting (List.mem_append_right _ hn) (by simp [hd.settled])
  | leaving =>
      rw [hp] at hn hd
      exact .of_leaving hd (List.mem_singleton.1 hn)
  | source =>
      rw [hp] at hn hd
      exact .of_source hd (List.mem_singleton.1 hn)
  | table =>
      rw [hp] at hn hd
      exact .of_table hd (List.mem_singleton.1 hn)

end Reading

theorem Reader.Reaches.coherent {r : Reader} (hr : r.grammar = Dialect.grammar) {g₀ g : Reading}
    (h₀ : g₀.Coherent) (h : r.Reaches g₀ g) : g.Coherent := by
  induction h with
  | start => exact h₀
  | read _ hf ih => exact (ih.feed hr hf).1
  | @amid g g' line _ hs ih =>
      have hnext : Reading.Coherent { g with line := g.line + 1 } := ⟨ih.state, ih.fits⟩
      exact (hnext.of_again hr hs).1

/-- The first reading of a document without sections is coherent, whatever else the
document says. -/
theorem Reader.coherent_of_start {r : Reader} (hr : r.grammar = Dialect.grammar) {doc : Document}
    (hdoc : doc.sections = []) {file : Option String} {language : String} {options : List String}
    {g₀ : Reading}
    (h₀ : r.start Dialect.initial (Draft.start doc file language options) = .ok g₀) :
    g₀.Coherent := by
  rw [Reader.start, hr] at h₀
  cases h₀
  exact ⟨List.mem_cons_self, rfl, hdoc, rfl, rfl, rfl, rfl, rfl⟩

/-- Whatever lines are fed to a reader of the dialect, from the first reading of a
document without sections on: what it remembers goes with the state that it is in. -/
theorem reaches_consistent {r : Reader} (hr : r.grammar = Dialect.grammar) {doc : Document}
    (hdoc : doc.sections = []) {file : Option String} {language : String} {options : List String}
    {g₀ g : Reading}
    (h₀ : r.start Dialect.initial (Draft.start doc file language options) = .ok g₀)
    (h : r.Reaches g₀ g) : g.Consistent :=
  (h.coherent hr (coherent_of_start hr hdoc h₀)).consistent

/-- A comment within a table, after literate mode has been switched on. -/
theorem reaches_consistent_table :
    ∃ g₀ g, ({} : Reader).start Dialect.initial
        (Draft.start (Document.new "d" none none) none "js" ["lit"]) = .ok g₀ ∧
      ({} : Reader).feedAll g₀
        ["// # T", "", "// doc:lit", "const A = \x7b // doc", "  // x"] = .ok g ∧
      g.state.name = "group" ∧ g.draft.table = some "A" ∧ g.Consistent :=
  have h := @reaches_consistent {} rfl (Document.new "d" none none) rfl none "js" ["lit"] _ _ rfl
    (@Reaches.of_feedAll _ _ _ ["// # T", "", "// doc:lit", "const A = \x7b // doc", "  // x"] rfl)
  ⟨_, _, rfl, rfl, by decide +kernel, by decide +kernel, h⟩

end DocComment
