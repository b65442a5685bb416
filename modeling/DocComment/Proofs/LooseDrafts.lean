import DocComment.Proofs.SideBySide

/-!
# A draft with its missing documentation hidden

Loose mode is looked at in one place: where an item without documentation gets a group of
its own, a span that says so is put into the group and listed, unless in loose mode. So
when the same source is read twice, once strictly and once in loose mode, the drafts
differ in those spans alone, and `Draft.Hides` says so: the strict draft is the loose one
with one more span at the head of some groups, which are named, and in the list of what is
to do.

That is a likeness of drafts, and so nearly every operation does the same to both. An item
without documentation is what makes the difference (`Hides.flagUndocumented`). A
declaration looks at the last entry of its group for `nodoc`; the span can never be the
one that decides about that (`Likeness.skips_missing`).
-/

namespace DocComment

open Text

/-! ## Flagged groups -/

/-- Whether a span says that documentation is missing. -/
def Span.isMissing (s : Span) : Bool :=
  s.kind = .todo && s.text = some missingDocumentation

/-- Whether an entry is such a span. -/
def Entry.isMissing : Entry → Bool
  | span s => s.isMissing
  | _ => false

/-- The span that is put into the group of an item without documentation. -/
def missingSpan : Span := { kind := .todo, text := some missingDocumentation }

/-- A group with that span before its entries. -/
def Group.flagged (g : Group) : Group :=
  { g with entries := .span missingSpan :: g.entries }

theorem Group.flagged_getLast? (g : Group) {p : Entry → Bool}
    (hp : p (.span missingSpan) = false) :
    g.flagged.entries.getLast?.any p = g.entries.getLast?.any p := by
  rw [flagged]
  cases hl : g.entries with
  | nil => simp [hp]
  | cons e es => rw [List.getLast?_cons_cons]

namespace Likeness

/-- The second draft is in loose mode and the first one is not. The groups are the same,
but the named ones are flagged, and missing documentation may be listed. -/
def missing (named : GroupId → Prop) : Likeness where
  group i g g' := (named i → g = g'.flagged) ∧ (¬ named i → g = g')
  plain i := ¬ named i
  loose l l' := l = false ∧ l' = true
  todos l l' := l.filter (!·.isMissing) = l'.filter (!·.isMissing)
  fixmes := (· = ·)
  addEntry e h := ⟨fun hn => h.1 hn ▸ rfl, fun hn => h.2 hn ▸ rfl⟩
  describe := by
    intro i g g' f hf h
    refine ⟨fun hn => ?_, fun hn => h.2 hn ▸ rfl⟩
    have hkept : (f g').entries = g'.entries := by
      rw [show f g' = { f g' with entries := g'.entries } from hf g' g'.entries]
    rw [h.1 hn, Group.flagged, hf, Group.flagged, hkept]
  resembles hi h := .of_eq (h.2 hi)
  dropLast hi h := ⟨fun hn => absurd hn hi, fun hn => h.2 hn ▸ rfl⟩
  addTodo s h := by rw [List.filter_append, h, ← List.filter_append]
  addFixme s h := h ▸ rfl

/-- The span hides no `nodoc`, and is not taken for one. -/
theorem skips_missing (named : GroupId → Prop) (i : GroupId) : (missing named).Skips i := by
  intro g g' h
  by_cases hn : named i
  · rw [h.1 hn]
    refine ⟨g'.flagged_getLast? rfl, fun hlast => ⟨fun _ => ?_, fun hno => absurd hn hno⟩⟩
    cases he : g'.entries with
    | nil =>
        rw [he] at hlast
        cases hlast
    | cons e es => simp [Group.flagged, he]
  · exact Likeness.skips_of_plain (L := missing named) hn g g' h

end Likeness

/-- The first store shows the groups of the second one, and the named ones of them
flagged. -/
abbrev GroupStore.Flags (named : GroupId → Prop) : GroupStore → GroupStore → Prop :=
  GroupStore.Beside (.missing named)

namespace GroupStore.Flags

variable {named : GroupId → Prop} {s t : GroupStore}

theorem same (h : Flags named s t) {i : GroupId} (hi : ¬ named i) : s.get i = t.get i :=
  (h.group i).2 hi

theorem flagged (h : Flags named s t) {i : GroupId} (hi : named i) :
    s.get i = (t.get i).flagged :=
  (h.group i).1 hi

/-- A new group that gets the span is a further flagged one. -/
theorem flag (h : Flags named s t) :
    Flags (fun i => named i ∨ i = t.nextId)
      ((s.insert {}).update s.nextId fun g =>
        { g with entries := g.entries ++ [.span missingSpan] })
      (t.insert {}) := by
  have hi := h.insert
  have hheld : (s.insert {}).Holds s.nextId := holds_insert.2 (Or.inr rfl)
  refine ⟨by simpa [GroupStore.update] using hi.size, fun i hh hn => ?_,
    fun i => ⟨fun hn => ?_, fun hn => ?_⟩⟩
  · rw [holds_insert, not_or] at hh
    exact hn.elim (h.fresh i hh.1) hh.2
  · by_cases he : i = s.nextId
    · subst he
      rw [get_update_self hheld, h.nextId, get_insert_nextId, ← h.nextId, get_insert_nextId]
      rfl
    · rw [get_update_of_ne he]
      refine Flags.flagged hi (hn.resolve_right fun he' => he ?_)
      rw [h.nextId]
      exact he'
  · have hne : i ≠ s.nextId := by
      rw [h.nextId]
      exact fun he => hn (Or.inr he)
    rw [get_update_of_ne hne]
    exact Flags.same hi fun hn' => hn (Or.inl hn')

end GroupStore.Flags

/-! ## Two drafts -/

namespace Draft

/-- The second draft is in loose mode. The first one is the same otherwise, but the named
groups are flagged, and missing documentation may be listed. Source is captured into no
such group. -/
abbrev Hides (named : GroupId → Prop) : Draft → Draft → Prop :=
  Beside (.missing named)

variable {named : GroupId → Prop} {d d' : Draft}

/-! ## Items without documentation -/

/-- The span as it is listed. -/
def listedMissing (d : Draft) : Span :=
  { missingSpan with
    origin := some (d.functionGroup.getD d.group), file := some d.doc.fullname
    sectionName := d.current.map (·.name) }

theorem addTodo_missing (hp : d.pending = none) (hstyle : d.nextStyle = none)
    (hs : d.scratch = none) :
    d.addTodo missingDocumentation =
      { d.addEntry (.span missingSpan) with todos := d.todos ++ [d.listedMissing] } := by
  have hsplit : d.splitCapture = d := by
    rw [splitCapture, hs]
  have hlisted : unlistedMarker.read? missingDocumentation = none := by
    decide
  rw [addTodo, addSpan, hsplit, flush_of_settled hp, hlisted]
  have hdone : { d with pending := none, nextStyle := none } = d := by
    rw [← hp, ← hstyle]
  show { { d with pending := none, nextStyle := none }.addEntry (.span missingSpan) with
    todos := d.todos ++ [d.listedMissing] } = _
  rw [hdone]

/-- An item without documentation gets a group that is flagged. -/
theorem Hides.flagUndocumented (h : Hides named d d') (hp : d'.pending = none)
    (hstyle : d'.nextStyle = none) (hs : d'.scratch = none) :
    Hides (fun i => named i ∨ i = d'.doc.store.nextId) d.flagUndocumented
      d'.flagUndocumented := by
  obtain @⟨_, loose, store, todos, fixmes, ⟨rfl, hloose⟩, hflags, hlisted, hfixmes, -⟩ := h
  have hfresh : d'.flagUndocumented = d'.freshGroup := by
    rw [Draft.flagUndocumented]
    exact if_pos hloose
  have hflag : (d'.changed false store todos fixmes).flagUndocumented =
      (d'.changed false store todos fixmes).freshGroup.addTodo missingDocumentation := rfl
  rw [hfresh, hflag, addTodo_missing (by exact hp) (by exact hstyle) (by exact hs)]
  have hmissing : (d'.changed false store todos fixmes).freshGroup.listedMissing.isMissing =
    true := rfl
  generalize (d'.changed false store todos fixmes).freshGroup.listedMissing = listed
    at hmissing ⊢
  have hlist : (todos ++ [listed]).filter (!·.isMissing) = d'.todos.filter (!·.isMissing) := by
    rw [List.filter_append, show todos.filter _ = _ from hlisted]
    simp [hmissing]
  refine .of_eq ?_ ⟨rfl, hloose⟩ (GroupStore.Flags.flag hflags) hlist hfixmes fun s hc => ?_
  · simp only [Draft.freshGroup, Draft.addEntry, Document.addEntry, Document.updateGroup, changed,
      Document.insertGroup, hflags.nextId]
  · replace hc : d'.scratch = some s := hc
    rw [hs] at hc
    cases hc

end Draft

end DocComment
