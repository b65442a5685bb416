import DocComment.Proofs.Coherence

/-!
# Every group is placed once

A section takes in the current group unless it has it at its end already; whether the
group stands anywhere else is not looked at. That is enough, because the current group is
never one that stands anywhere else. `Draft.Placed` is the invariant that makes this an
induction: the sections hold groups of the store and none of them twice, the current group
is at the end of the open section or in no section at all, and while source is captured
neither the group it will go to nor the current group is in a section.

Most operations move no group (`Draft.SamePlaces`). Those that do are four: a new group
becomes the current one, the current group is placed, a section is opened with a new
group, and a capture places its group when it ends. The second and the third take for
granted that nothing is being captured, which the phases of the actions know.
-/

namespace DocComment

open Relation

/-- Names of groups that are all different, and handed out by the store. -/
structure GroupStore.Lists (s : GroupStore) (ids : List GroupId) : Prop where
  held : ∀ i ∈ ids, s.Holds i
  nodup : ids.Nodup

namespace GroupStore.Lists

theorem nextId_not_mem {s : GroupStore} {ids : List GroupId} (h : s.Lists ids) :
    s.nextId ∉ ids := by
  intro hmem
  exact s.not_holds_nextId (h.held _ hmem)

theorem mono {s t : GroupStore} {ids : List GroupId} (h : s.Lists ids)
    (hst : ∀ i, s.Holds i → t.Holds i) : t.Lists ids :=
  ⟨fun i hi => hst i (h.held i hi), h.nodup⟩

theorem concat {s : GroupStore} {ids : List GroupId} (h : s.Lists ids) {i : GroupId}
    (hi : s.Holds i) (hn : i ∉ ids) : s.Lists (ids ++ [i]) := by
  constructor
  · intro j hj
    rw [List.mem_append, List.mem_singleton] at hj
    rcases hj with hj | rfl
    · exact h.held j hj
    · exact hi
  · rw [List.nodup_append]
    refine ⟨h.nodup, by simp, ?_⟩
    intro j hj k hk hjk
    rw [List.mem_singleton] at hk
    exact hn (hk ▸ hjk ▸ hj)

/-- The next name is one more. -/
theorem concat_nextId {s : GroupStore} {ids : List GroupId} (h : s.Lists ids) (g : Group) :
    (s.insert g).Lists (ids ++ [s.nextId]) := by
  have hm := h.mono (t := s.insert g) fun i hi => holds_insert.2 (Or.inl hi)
  exact hm.concat (holds_insert.2 (Or.inr rfl)) h.nextId_not_mem

end GroupStore.Lists

/-- A section that a group is placed in ends in that group. -/
theorem Section.getLast?_place (s : Section) (i : GroupId) :
    (s.place i).groups.getLast? = some i := by
  rw [place]
  split
  · next h => exact h
  · simp

theorem Section.place_of_getLast? {s : Section} {i : GroupId} (h : s.groups.getLast? = some i) :
    s.place i = s :=
  if_pos h

namespace Draft

/-- The groups of all sections in order. -/
def placed (d : Draft) : List GroupId :=
  (d.doc.sections ++ d.current.toList).flatMap (·.groups)

/-- The second draft has the groups of the first one where they were. -/
structure SamePlaces (d e : Draft) : Prop where
  sections : e.doc.sections = d.doc.sections
  current : e.current = d.current
  todo : e.doc.todo = d.doc.todo
  fixme : e.doc.fixme = d.doc.fixme
  group : e.group = d.group
  scratch : e.scratch.map (·.group) = d.scratch.map (·.group)
  holds : ∀ i, d.doc.store.Holds i → e.doc.store.Holds i

namespace SamePlaces

theorem refl (d : Draft) : SamePlaces d d :=
  ⟨rfl, rfl, rfl, rfl, rfl, rfl, fun _ => id⟩

theorem trans {d e f : Draft} (h : SamePlaces d e) (h' : SamePlaces e f) : SamePlaces d f :=
  ⟨h'.sections.trans h.sections, h'.current.trans h.current, h'.todo.trans h.todo,
    h'.fixme.trans h.fixme, h'.group.trans h.group, h'.scratch.trans h.scratch,
    fun i hi => h'.holds i (h.holds i hi)⟩

theorem placed {d e : Draft} (h : SamePlaces d e) : e.placed = d.placed := by
  rw [Draft.placed, Draft.placed, h.sections, h.current]

theorem scratch_eq_some {d e : Draft} (h : SamePlaces d e) {s : Scratch}
    (hs : d.scratch = some s) : ∃ t, e.scratch = some t ∧ t.group = s.group := by
  have hm := h.scratch
  rwa [hs, Option.map_some, Option.map_eq_some_iff] at hm

theorem of_scratch_eq_some {d e : Draft} (h : SamePlaces d e) {t : Scratch}
    (ht : e.scratch = some t) : ∃ s, d.scratch = some s ∧ s.group = t.group := by
  have hm := h.scratch
  rwa [ht, Option.map_some, eq_comm, Option.map_eq_some_iff] at hm

theorem scratch_eq_none {d e : Draft} (h : SamePlaces d e) (hd : d.scratch = none) :
    e.scratch = none := by
  have hm := h.scratch
  rw [hd] at hm
  exact Option.map_eq_none_iff.1 hm

theorem scratch_isSome {d e : Draft} (h : SamePlaces d e) :
    e.scratch.isSome = d.scratch.isSome := by
  have hm := congrArg Option.isSome h.scratch
  rwa [Option.isSome_map, Option.isSome_map] at hm

end SamePlaces

/-! ## Operations that move no group -/

theorem same_updateGroup (d : Draft) (f : Group → Group) : SamePlaces d (d.updateGroup f) :=
  ⟨rfl, rfl, rfl, rfl, rfl, rfl, fun _ => GroupStore.holds_update.2⟩

theorem same_addEntry (d : Draft) (e : Entry) : SamePlaces d (d.addEntry e) :=
  ⟨rfl, rfl, rfl, rfl, rfl, rfl, fun _ => GroupStore.holds_update.2⟩

theorem same_flush (d : Draft) : SamePlaces d d.flush := by
  rw [flush]
  split
  · exact SamePlaces.refl d
  · next e _ => exact ⟨rfl, rfl, rfl, rfl, rfl, rfl, (same_addEntry d e.settled).holds⟩

theorem same_closeComment (d : Draft) : SamePlaces d d.closeComment :=
  (same_flush d).trans ⟨rfl, rfl, rfl, rfl, rfl, rfl, fun _ => id⟩

theorem same_appendText {d e : Draft} {text : String} {onNewLine : Bool}
    (h : d.appendText text onNewLine = .ok e) : SamePlaces d e := by
  rcases appendText_cases h with ⟨-, rfl⟩ | ⟨p, p', -, -, rfl⟩ <;>
    exact ⟨rfl, rfl, rfl, rfl, rfl, rfl, fun _ => id⟩

theorem same_pend (d : Draft) (p : Option Entry) :
    SamePlaces d { d.flush with pending := p } :=
  (same_flush d).trans ⟨rfl, rfl, rfl, rfl, rfl, rfl, fun _ => id⟩

theorem same_appendItem (d : Draft) (item : ListItem) : SamePlaces d (d.appendItem item) := by
  rw [appendItem]
  split
  · exact ⟨rfl, rfl, rfl, rfl, rfl, rfl, fun _ => id⟩
  · exact same_pend d _

theorem same_captureLine (d : Draft) (line : String) : SamePlaces d (d.captureLine line) := by
  rw [captureLine]
  split
  · exact SamePlaces.refl d
  · next s h => exact ⟨rfl, rfl, rfl, rfl, rfl, by rw [h]; rfl, fun _ => id⟩

theorem same_attachCode (d : Draft) (s : Scratch) : SamePlaces d (d.attachCode s) := by
  rw [attachCode]
  split
  · exact ⟨rfl, rfl, rfl, rfl, rfl, rfl, fun _ => GroupStore.holds_update.2⟩
  · exact SamePlaces.refl d

theorem same_splitCapture (d : Draft) : SamePlaces d d.splitCapture := by
  rw [splitCapture]
  split
  · exact SamePlaces.refl d
  · next s h =>
      split
      · have hs := same_attachCode d s
        exact ⟨hs.sections, hs.current, hs.todo, hs.fixme, hs.group, by rw [h]; rfl, hs.holds⟩
      · exact SamePlaces.refl d

theorem same_listSpan (d : Draft) (s : Span) : SamePlaces d (d.listSpan s) := by
  rw [listSpan]
  split <;> exact ⟨rfl, rfl, rfl, rfl, rfl, rfl, fun _ => id⟩

theorem same_addSpan (d : Draft) (kind : SpanKind) (text : String) :
    SamePlaces d (d.addSpan kind text) := by
  refine (same_splitCapture d).trans ?_
  rw [addSpan]
  split
  · exact same_pend _ _
  · exact (same_pend _ _).trans (same_listSpan _ _)

theorem same_addTodo (d : Draft) (text : String) : SamePlaces d (d.addTodo text) :=
  (same_addSpan d .todo text).trans (same_flush _)

theorem same_addKeyword {d e : Draft} {whole keyword text : String}
    (h : d.addKeyword whole keyword text = .ok e) : SamePlaces d e := by
  rw [addKeyword] at h
  split at h
  · exact Except.ok.inj h ▸ same_addSpan d _ text
  · exact same_appendText h

theorem same_discardNodoc? {d e : Draft} (h : d.discardNodoc? = some e) : SamePlaces d e := by
  rw [discardNodoc?] at h
  split at h
  · exact Option.some.inj h ▸ ⟨rfl, rfl, rfl, rfl, rfl, rfl, fun _ => id⟩
  · split at h
    · exact Option.some.inj h ▸ ⟨rfl, rfl, rfl, rfl, rfl, rfl, fun _ => GroupStore.holds_update.2⟩
    · cases h

theorem declareFunction_group (d : Draft) (binding : Binding) (name : String)
    (params : Option String) : (d.declareFunction binding name params).group = d.group := by
  rw [declareFunction]
  split
  · next h => exact (same_discardNodoc? h).group
  · rfl

theorem declareConstant_group (d : Draft) (name : String) :
    (d.declareConstant name).group = d.group := by
  rw [declareConstant]
  split
  · next h => exact (same_discardNodoc? h).group
  · rfl

theorem same_register {d e : Draft} {key : String} {kind : ParamKind}
    (h : d.register key kind = .ok e) : SamePlaces d e := by
  obtain ⟨params, libParams, rfl⟩ := register_cases h
  exact ⟨rfl, rfl, rfl, rfl, rfl, rfl, fun _ => id⟩

theorem same_setLoose (d : Draft) (enabled : Bool) : SamePlaces d (d.setLoose enabled) := by
  rw [setLoose]
  split
  · refine SamePlaces.trans ?_ (same_addTodo _ _)
    exact ⟨rfl, rfl, rfl, rfl, rfl, rfl, fun _ => id⟩
  · exact ⟨rfl, rfl, rfl, rfl, rfl, rfl, fun _ => id⟩

/-! ## The invariant -/

/-- Groups are placed once, and the current group is at the end or nowhere. -/
structure Placed (d : Draft) : Prop where
  lists : d.doc.store.Lists d.placed
  todo : d.doc.todo = none
  fixme : d.doc.fixme = none
  group : d.doc.store.Holds d.group
  last : d.group ∈ d.placed → ∃ s, d.current = some s ∧ s.groups.getLast? = some d.group
  scratch : ∀ s, d.scratch = some s →
    d.doc.store.Holds s.group ∧ s.group ∉ d.placed ∧ d.group ∉ d.placed

/-- The same while nothing is captured. -/
structure Tidy (d : Draft) : Prop extends Placed d where
  uncaptured : d.scratch = none

theorem Placed.of_same {d e : Draft} (h : Placed d) (hs : SamePlaces d e) : Placed e := by
  refine ⟨?_, hs.todo.trans h.todo, hs.fixme.trans h.fixme, ?_, ?_, ?_⟩
  · rw [hs.placed]
    exact h.lists.mono hs.holds
  · rw [hs.group]
    exact hs.holds _ h.group
  · rw [hs.placed, hs.group, hs.current]
    exact h.last
  · intro s he
    obtain ⟨s', hs', hm⟩ := hs.of_scratch_eq_some he
    rw [hs.placed, hs.group, ← hm]
    obtain ⟨hh, hrest⟩ := h.scratch s' hs'
    exact ⟨hs.holds _ hh, hrest⟩

theorem Tidy.of_same {d e : Draft} (h : Tidy d) (hs : SamePlaces d e) : Tidy e :=
  { h.toPlaced.of_same hs with uncaptured := hs.scratch_eq_none h.uncaptured }

theorem Placed.freshGroup {d : Draft} (h : Placed d) : Placed d.freshGroup := by
  have hnew := h.lists.nextId_not_mem
  have hold (i : GroupId) (hi : d.doc.store.Holds i) : d.freshGroup.doc.store.Holds i :=
    GroupStore.holds_insert.2 (Or.inl hi)
  refine ⟨h.lists.mono hold, h.todo, h.fixme, GroupStore.holds_insert.2 (Or.inr rfl), ?_, ?_⟩
  · intro hmem
    exact absurd hmem hnew
  · intro s hs
    obtain ⟨hh, hn, -⟩ := h.scratch s hs
    exact ⟨hold _ hh, hn, hnew⟩

theorem Tidy.freshGroup {d : Draft} (h : Tidy d) : Tidy d.freshGroup :=
  { h.toPlaced.freshGroup with uncaptured := h.uncaptured }

/-- Placing a group puts it at the end, unless it is there already or there is no
section. -/
theorem placeGroup_cases (d : Draft) (i : GroupId) :
    d.placeGroup i = d ∨
      (d.placeGroup i).placed = d.placed ++ [i] ∧
        (∀ s, d.current = some s → s.groups.getLast? ≠ some i) ∧
        ∃ s, (d.placeGroup i).current = some s ∧ s.groups.getLast? = some i := by
  cases hc : d.current with
  | none =>
      left
      rw [placeGroup, hc]
      cases d
      cases hc
      rfl
  | some s =>
      by_cases hl : s.groups.getLast? = some i
      · left
        rw [placeGroup, hc, Option.map_some, Section.place, if_pos hl, ← hc]
      · right
        have hp : (d.placeGroup i).current = some { s with groups := s.groups ++ [i] } := by
          rw [placeGroup, hc, Option.map_some, Section.place, if_neg hl]
        refine ⟨?_, ?_, _, hp, List.getLast?_concat⟩
        · rw [placed, hp, placed, hc]
          simp [placeGroup]
        · intro s' hs'
          exact Option.some.inj hs' ▸ hl

/-- A group may be placed if it is at the end or nowhere, and the current group stays what
it was or is that group. -/
theorem Tidy.placeGroup {d : Draft} (h : Tidy d) {i : GroupId} (hi : d.doc.store.Holds i)
    (hlast : i ∈ d.placed → ∃ s, d.current = some s ∧ s.groups.getLast? = some i)
    (hg : d.group = i ∨ d.group ∉ d.placed) : Tidy (d.placeGroup i) := by
  rcases placeGroup_cases d i with he | ⟨hp, hno, s, hs, hsl⟩
  · rw [he]
    exact h
  · have hnew : i ∉ d.placed := by
      intro hmem
      obtain ⟨s', hs', hl'⟩ := hlast hmem
      exact hno s' hs' hl'
    refine ⟨⟨?_, h.todo, h.fixme, h.group, ?_, ?_⟩, h.uncaptured⟩
    · rw [hp]
      exact h.lists.concat hi hnew
    · intro hmem
      have hmem : d.group ∈ d.placed ++ [i] := hp ▸ hmem
      rw [List.mem_append, List.mem_singleton] at hmem
      refine ⟨s, hs, ?_⟩
      have hi : d.group = i := by
        rcases hmem with hmem | hmem
        · exact hg.resolve_right fun hn => hn hmem
        · exact hmem
      exact hsl.trans (congrArg some hi.symm)
    · intro s' hs'
      have hn : d.scratch = some s' := hs'
      rw [h.uncaptured] at hn
      cases hn

theorem Tidy.place {d : Draft} (h : Tidy d) : Tidy d.place :=
  h.placeGroup h.group h.last (Or.inl rfl)

/-- A new section has a new group. -/
theorem Tidy.openSection {d : Draft} (h : Tidy d) (title : String) :
    Tidy (d.openSection title) := by
  have hf := h.of_same (same_flush d)
  have hp : (d.openSection title).placed = d.flush.placed ++ [d.flush.doc.store.nextId] := by
    simp [placed, Draft.openSection, Draft.freshGroup, Document.insertGroup]
  refine ⟨⟨?_, hf.todo, hf.fixme, ?_, ?_, ?_⟩, hf.uncaptured⟩
  · rw [hp]
    exact hf.lists.concat_nextId {}
  · exact GroupStore.holds_insert.2 (Or.inr rfl)
  · intro _
    exact ⟨_, rfl, rfl⟩
  · intro s hs
    have hn : d.flush.scratch = some s := hs
    rw [hf.uncaptured] at hn
    cases hn

/-- What is captured goes to a group that is in no section yet. -/
theorem Placed.finishCapture {d : Draft} (h : Placed d) : Tidy d.finishCapture := by
  rw [Draft.finishCapture]
  split
  · next hs => exact { h with uncaptured := hs }
  · next s hs =>
      obtain ⟨hh, hn, hg⟩ := h.scratch s hs
      have hd : Tidy { d with scratch := none } :=
        ⟨⟨h.lists, h.todo, h.fixme, h.group, h.last, fun _ he => absurd he (by simp)⟩, rfl⟩
      have ha := hd.of_same (same_attachCode _ s)
      have hsame := same_attachCode { d with scratch := none } s
      simp only []
      split
      · exact ha
      · refine ha.placeGroup (hsame.holds _ hh) ?_ (Or.inr ?_)
        · intro hmem
          rw [hsame.placed] at hmem
          exact absurd hmem hn
        · rw [hsame.placed, hsame.group]
          exact hg

theorem Placed.startCapture {d : Draft} (h : Placed d) : Placed d.startCapture := by
  rw [Draft.startCapture]
  split
  · exact h
  · have hf := h.freshGroup
    refine ⟨hf.lists, hf.todo, hf.fixme, hf.group, hf.last, ?_⟩
    intro s hs
    injection hs with hs
    subst hs
    exact ⟨hf.group, h.lists.nextId_not_mem, h.lists.nextId_not_mem⟩

/-! ## Headings, tables and declarations -/

theorem Tidy.addHeading {d : Draft} (h : Tidy d) (text : String) (level : HeadingLevel) :
    Tidy (d.addHeading text level) :=
  (h.of_same ((same_flush d).trans (same_addEntry _ _))).place

theorem Tidy.addTableStart {d : Draft} (h : Tidy d) (name : String) (lead : Option String) :
    Tidy (d.addTableStart name lead) :=
  (h.of_same ((same_flush d).trans (same_addEntry _ _))).place

theorem Tidy.openTable {d : Draft} (h : Tidy d) (key : String) (lead : Option String) :
    Tidy (d.openTable key lead) := by
  rw [Draft.openTable]
  refine (Tidy.addTableStart (h.of_same ?_) _ _).freshGroup
  exact ⟨rfl, rfl, rfl, rfl, rfl, rfl, fun _ => id⟩

theorem Tidy.closeTable {d : Draft} (h : Tidy d) : Tidy d.closeTable := by
  have he : Tidy d.addTableEnd := (h.of_same ((same_flush d).trans (same_addEntry _ _))).place
  exact he.of_same ⟨rfl, rfl, rfl, rfl, rfl, rfl, fun _ => id⟩

/-- The current group is placed as that of a function or a constant. -/
theorem Tidy.placeAs {d : Draft} (h : Tidy d) (f : Group → Group) :
    Tidy { (d.updateGroup f).place with functionGroup := some (d.updateGroup f).group } := by
  have hp := (h.of_same (same_updateGroup d f)).place
  exact hp.of_same ⟨rfl, rfl, rfl, rfl, rfl, rfl, fun _ => id⟩

theorem Tidy.declareFunction {d : Draft} (h : Tidy d) (binding : Binding) (name : String)
    (params : Option String) : Tidy (d.declareFunction binding name params) := by
  rw [Draft.declareFunction]
  split
  · next hd => exact h.of_same (same_discardNodoc? hd)
  · exact h.placeAs _

theorem Tidy.declareConstant {d : Draft} (h : Tidy d) (name : String) :
    Tidy (d.declareConstant name) := by
  rw [Draft.declareConstant]
  split
  · next hd => exact h.of_same (same_discardNodoc? hd)
  · exact h.placeAs _

theorem Tidy.declareParam {d e : Draft} (h : Tidy d) {key : String} {definition : Option String}
    {kind : ParamKind} (he : d.declareParam key definition kind = .ok e) : Tidy e := by
  rcases declareParam_cases he with hd | ⟨-, f, hf, rfl⟩
  · exact h.of_same (same_discardNodoc? hd)
  · exact (h.of_same ((same_updateGroup d _).trans (same_register hf))).place.freshGroup

theorem Tidy.flagUndocumented {d : Draft} (h : Tidy d) : Tidy d.flagUndocumented := by
  rw [Draft.flagUndocumented]
  split
  · exact h.freshGroup
  · exact h.freshGroup.of_same (same_addTodo _ _)

theorem Placed.enterSource {d : Draft} (h : Tidy d) : Placed (Hook.enterSource d) := by
  rw [Hook.enterSource]
  split
  · simp only []
    split
    · exact h.startCapture
    · exact h.place.startCapture
  · exact h.toPlaced

theorem Tidy.ensureSection {d : Draft} (h : Tidy d) (reason : Option Template) :
    Tidy (d.ensureSection reason).1 := by
  unfold Draft.ensureSection
  split
  · exact h
  · exact (h.openSection _).of_same (same_addEntry _ _)

end Draft

/-- Outside of source nothing is captured. -/
theorem Phase.Fits.uncaptured {p : Phase} {d : Draft} (h : p.Fits d) (hs : p ≠ .source)
    (hd : p ≠ .departing) : d.scratch = none := by
  cases p with
  | opening => exact Draft.Opening.scratch h
  | writing => exact Draft.Writing.scratch h
  | pausing => exact (Draft.Pausing.toWriting h).scratch
  | closed => exact (Draft.Closed.toPausing h).scratch
  | leaving => exact (Draft.Leaving.toClosed h).scratch
  | source => exact absurd rfl hs
  | departing => exact absurd rfl hd
  | table => exact Draft.InTable.scratch h

namespace Action

open Draft

/-! ## Actions -/

theorem same_addTrailing {d e : Draft} {text : String} (h : addTrailing d text = .ok e) :
    SamePlaces d e := by
  rw [addTrailing] at h
  split at h
  · exact Except.ok.inj h ▸ SamePlaces.refl d
  · exact same_appendText h

theorem same_addFormula {d e : Draft} {formula trailing : String}
    (h : addFormula d formula trailing = .ok e) : SamePlaces d e := by
  rw [addFormula] at h
  refine SamePlaces.trans ?_ (same_addTrailing h)
  split
  · exact SamePlaces.refl d
  · exact (same_pend d _).trans (same_flush _)

theorem same_closeFormula {d e : Draft} {formula trailing : String}
    (h : closeFormula d formula trailing = .ok e) : SamePlaces d e := by
  rw [closeFormula] at h
  split at h
  · exact (same_flush d).trans (same_addTrailing h)
  · obtain ⟨d', hd', h⟩ := ok_of_bind h
    exact ((same_appendText hd').trans (same_flush d')).trans (same_addTrailing h)

theorem tidy_openPreamble {d : Draft} (h : Tidy d) (title : String) :
    Tidy (openPreamble d title) := by
  have ho := h.openSection title
  exact ho.of_same ⟨rfl, rfl, rfl, rfl, rfl, rfl, fun _ => id⟩

theorem tidy_splitFromSection {d : Draft} (h : Tidy d) : Tidy (splitFromSection d) := by
  rw [splitFromSection]
  split
  · exact h.flagUndocumented
  · exact h

theorem tidy_leavePlacedGroup {d : Draft} (h : Tidy d) : Tidy (leavePlacedGroup d) := by
  rw [leavePlacedGroup]
  split
  · exact h.freshGroup
  · exact h

theorem tidy_entryGroup {d : Draft} (h : Tidy d) : Tidy (entryGroup d) := by
  rw [entryGroup]
  split
  · exact h
  · exact h.freshGroup

theorem tidy_declareLibParam {d e : Draft} (h : Tidy d) {key value : String}
    (he : declareLibParam d key value = .ok e) : Tidy e := by
  rw [declareLibParam] at he
  simp only [] at he
  split at he
  · exact Except.ok.inj he ▸ h
  · split at he
    · exact h.flagUndocumented.declareParam he
    · exact h.declareParam he

theorem placed_applyDirective {d e : Draft} (h : Placed d) {option : String} {enabled : Bool}
    {line : Option Int} (he : d.applyDirective option enabled line = .ok e) : Placed e := by
  rw [applyDirective] at he
  split at he
  · split at he
    · split at he
      · have hd : Placed { d with doc := { d.doc with literate := enabled } } :=
          h.of_same ⟨rfl, rfl, rfl, rfl, rfl, rfl, fun _ => id⟩
        refine Except.ok.inj he ▸ ?_
        rw [setLiterate]
        split
        · exact hd.startCapture
        · exact hd.finishCapture.toPlaced
      · exact Except.ok.inj he ▸ h.of_same (same_setLoose d enabled)
    · cases he
  · cases he

/-- Outside of source no action spoils the places of groups. -/
theorem tidy_apply {a : Action} (hs : a.before ≠ .source) {line : Nat} {c : Captures}
    {d e : Draft} (hp : Tidy d) (h : a.apply line c d = .ok e) : Tidy e := by
  cases a with
  | undocumentedFunction | undocumentedParam | endOfFunction | enableOption | disableOption
  | openTable | sourceTodo | startComment | sourceLine => exact absurd rfl hs
  | missingTitle | untitledPreamble | documentedLibParam => exact Except.ok.inj h ▸ hp
  | preambleSection =>
      exact Except.ok.inj h ▸ tidy_openPreamble hp _
  | flush => exact Except.ok.inj h ▸ hp.of_same (same_flush d)
  | closeComment => exact Except.ok.inj h ▸ hp.of_same (same_closeComment d)
  | newSection => exact Except.ok.inj h ▸ hp.openSection _
  | newTitle => exact Except.ok.inj h ▸ hp.addHeading _ _
  | declareFunction => exact Except.ok.inj h ▸ hp.declareFunction _ _ _
  | declareConstant => exact Except.ok.inj h ▸ hp.declareConstant _
  | todoFixme => exact hp.of_same (same_addKeyword h)
  | append | appendLine | appendBlankLine => exact hp.of_same (same_appendText h)
  | bullet | definition => exact Except.ok.inj h ▸ hp.of_same (same_appendItem d _)
  | startCode | mathOpen => exact Except.ok.inj h ▸ hp.of_same (same_pend d _)
  | mathInline => exact hp.of_same (same_addFormula h)
  | mathClose => exact hp.of_same (same_closeFormula h)
  | documentedFunction | documentedGlobalFunction =>
      exact Except.ok.inj h ▸ (tidy_splitFromSection hp).declareFunction _ _ _
  | paramsTitle =>
      have hf := hp.of_same (same_flush d)
      refine Except.ok.inj h ▸ Tidy.addHeading ?_ _ _
      split
      · exact hf
      · exact hf.freshGroup
  | paramsComment =>
      exact Except.ok.inj h ▸
        (tidy_entryGroup hp).of_same ⟨rfl, rfl, rfl, rfl, rfl, rfl, fun _ => id⟩
  | paramsBlockComment =>
      obtain ⟨d', hd', h⟩ := ok_of_bind h
      have ht := (tidy_entryGroup hp).of_same (same_addTrailing hd')
      exact Except.ok.inj h ▸ ht.of_same ⟨rfl, rfl, rfl, rfl, rfl, rfl, fun _ => id⟩
  | paramsInlineComment =>
      obtain ⟨d', hd', h⟩ := ok_of_bind h
      have ht := (tidy_entryGroup hp).of_same (same_appendText hd')
      exact Except.ok.inj h ▸ ht.of_same (same_flush d')
  | tableParam | listParam => exact (hp.of_same (same_flush d)).declareParam h
  | sameLineParam =>
      obtain ⟨d', hd', h⟩ := ok_of_bind h
      have ht := (hp.of_same (same_flush d)).freshGroup.of_same (same_appendText hd')
      exact (ht.of_same (same_flush d')).declareParam h
  | closeTable => exact Except.ok.inj h ▸ hp.closeTable
  | paramsOther => exact Except.ok.inj h ▸ (hp.of_same (same_flush d)).freshGroup

/-- In source none does either. What is captured is no declaration. -/
theorem placed_apply {a : Action} (hs : a.before = .source) {line : Nat} {c : Captures}
    {d e : Draft} (hp : Placed d) (h : a.apply line c d = .ok e) : Placed e := by
  cases a with
  | undocumentedFunction =>
      rw [apply] at h
      rcases captureOr_cases h with rfl | ⟨hn, h⟩
      · exact hp.of_same (same_captureLine d _)
      · have ht : Tidy d := ⟨hp, hn⟩
        exact Except.ok.inj h ▸ (ht.flagUndocumented.declareFunction _ _ _).toPlaced
  | undocumentedParam => exact Except.ok.inj h ▸ hp
  | endOfFunction =>
      refine Except.ok.inj h ▸ hp.of_same (SamePlaces.trans ?_ (same_captureLine _ _))
      exact ⟨rfl, rfl, rfl, rfl, rfl, rfl, fun _ => id⟩
  | enableOption | disableOption => exact placed_applyDirective hp h
  | openTable =>
      exact Except.ok.inj h ▸ ((tidy_leavePlacedGroup hp.finishCapture).openTable _ _).toPlaced
  | sourceTodo =>
      obtain ⟨d', hd', h⟩ := ok_of_bind h
      exact Except.ok.inj h ▸ hp.of_same ((same_addKeyword hd').trans (same_flush d'))
  | startComment => exact Except.ok.inj h ▸ hp.freshGroup
  | sourceLine => exact Except.ok.inj h ▸ hp.of_same (same_captureLine d _)
  | _ => cases hs

/-- No action spoils the places of groups, whether or not it chooses the transition
itself. -/
theorem placed_run {a : Action} {line : Nat} {c : Captures} {d : Draft} {e : Effect}
    (hd : a.before.Fits d) (hp : Placed d) (h : a.run line c d = .ok e) : Placed e.draft := by
  have htidy (hs : a.before ≠ .source) : Tidy d := by
    refine ⟨hp, hd.uncaptured hs ?_⟩
    cases a <;> simp [before]
  obtain ⟨e, next, log⟩ := e
  cases leads_of_run h with
  | applied _ h =>
      by_cases hs : a.before = .source
      · exact placed_apply hs hp h
      · exact (tidy_apply hs (htidy hs) h).toPlaced
  | warned reason => exact ((htidy (by simp [before])).ensureSection reason).toPlaced
  | untitled => exact (tidy_openPreamble (htidy (by simp [before])) _).toPlaced
  | documentedTable =>
      exact ((tidy_leavePlacedGroup (htidy (by simp [before]))).openTable _ _).toPlaced
  | documentedParam h => exact (tidy_declareLibParam (htidy (by simp [before])) h).toPlaced
  | undocumentedTable => exact (hp.finishCapture.freshGroup.openTable _ _).toPlaced
  | undocumentedParam h =>
      rcases captureOr_cases h with rfl | ⟨hn, h⟩
      · exact hp.of_same (same_captureLine d _)
      · have ht : Tidy d := ⟨hp, hn⟩
        exact (ht.flagUndocumented.declareParam h).toPlaced

end Action

namespace Draft

/-! ## Runs -/

theorem Placed.step {d e : Draft} (hp : Placed d) (h : Step d e) : Placed e := by
  cases h with
  | act hd h => exact Action.placed_run hd hp h
  | leave => exact hp.finishCapture.toPlaced
  | enter hd => exact Placed.enterSource ⟨hp, hd.scratch⟩
  | ensure hd => exact (Tidy.ensureSection ⟨hp, hd.scratch⟩ _).toPlaced
  | settle => exact hp.of_same (same_flush d)

theorem Placed.steps {d e : Draft} (hp : Placed d) (h : ReflTransGen Step d e) : Placed e := by
  induction h with
  | refl => exact hp
  | tail _ hs ih => exact ih.step hs

end Draft

/-! ## Documents -/

namespace Document

/-- The groups of all sections in order, those of the lists at the end included. -/
def allGroups (doc : Document) : List GroupId :=
  doc.allSections.flatMap (·.groups)

/-- The second document is the first one with new groups at its end. -/
structure Appends (doc doc' : Document) : Prop where
  lists : doc.store.Lists doc.allGroups → doc'.store.Lists doc'.allGroups
  mem : ∀ i, doc.store.Holds i → i ∈ doc'.allGroups → i ∈ doc.allGroups
  holds : ∀ i, doc.store.Holds i → doc'.store.Holds i

namespace Appends

theorem refl (doc : Document) : Appends doc doc :=
  ⟨id, fun _ _ => id, fun _ => id⟩

theorem trans {doc doc' doc'' : Document} (h : Appends doc doc') (h' : Appends doc' doc'') :
    Appends doc doc'' :=
  ⟨fun hl => h'.lists (h.lists hl), fun i hi hm => h.mem i hi (h'.mem i (h.holds i hi) hm),
    fun i hi => h'.holds i (h.holds i hi)⟩

/-- A group that is taken in under the next name is new. -/
theorem of_concat {doc doc' : Document} {g : Group} (hs : doc'.store = doc.store.insert g)
    (hg : doc'.allGroups = doc.allGroups ++ [doc.store.nextId]) : Appends doc doc' := by
  refine ⟨?_, ?_, ?_⟩
  · intro hl
    rw [hs, hg]
    exact hl.concat_nextId g
  · intro i hi hm
    rw [hg, List.mem_append, List.mem_singleton] at hm
    rcases hm with hm | rfl
    · exact hm
    · exact absurd hi doc.store.not_holds_nextId
  · intro i hi
    rw [hs]
    exact GroupStore.holds_insert.2 (Or.inl hi)

end Appends

theorem appends_withTodos {doc : Document} (ht : doc.todo = none) (hf : doc.fixme = none)
    (spans : List Span) : Appends doc (doc.withTodos spans) := by
  rw [withTodos]
  split
  · exact Appends.refl doc
  · refine Appends.of_concat (g := { entries := spans.map .span }) rfl ?_
    simp [allGroups, allSections, ht, hf, insertGroup, listing]

theorem appends_withFixmes {doc : Document} (hf : doc.fixme = none) (spans : List Span) :
    Appends doc (doc.withFixmes spans) := by
  rw [withFixmes]
  split
  · exact Appends.refl doc
  · refine Appends.of_concat (g := { entries := spans.map .span }) rfl ?_
    simp [allGroups, allSections, hf, insertGroup, listing]

end Document

namespace Draft

theorem document_sections (d : Draft) :
    d.document.sections = d.doc.sections ++ d.current.toList := by
  rw [document]
  simp only [Document.withFixmes, Document.withTodos]
  split <;> split <;> rfl

/-- The document of a draft has the groups that the draft has placed, and those of the
lists at its end. -/
theorem Placed.document {d : Draft} (h : Placed d) :
    d.document.allGroups.Nodup ∧
      ∀ i, d.doc.store.Holds i → i ∈ d.document.allGroups → i ∈ d.placed := by
  let doc : Document := { d.doc with sections := d.doc.sections ++ d.current.toList }
  have hg : doc.allGroups = d.placed := by
    simp [Document.allGroups, Document.allSections, doc, placed, h.todo, h.fixme]
  have hfix : (doc.withTodos d.todos).fixme = none := by
    rw [Document.withTodos]
    split <;> exact h.fixme
  have ha : Document.Appends doc d.document :=
    Document.Appends.trans (@Document.appends_withTodos doc h.todo h.fixme d.todos)
      (Document.appends_withFixmes hfix d.fixmes)
  refine ⟨(ha.lists ?_).nodup, ?_⟩
  · rw [hg]
    exact h.lists
  · rw [← hg]
    exact ha.mem

/-- The document that a draft ends as. -/
theorem finish_document_eq (d : Draft) :
    d.finish.1.document =
      (d.ensureSection
          (some { before := "No documentation found in '"
                  after := "'." })).1.freshGroup.document := by
  rw [finish]
  generalize d.ensureSection _ = x
  show { x.1.freshGroup.document with sections := x.1.freshGroup.document.sections ++ [] } = _
  rw [List.append_nil]

/-- A draft that has a section ends as the document that it is. -/
theorem finish_document {d : Draft} (h : d.current.isSome) :
    d.finish.1.document = d.freshGroup.document := by
  have hs : d.hasSection := by
    rw [hasSection, h]
    rfl
  rw [finish_document_eq]
  unfold ensureSection
  rw [if_pos hs]

end Draft

theorem firstDraft_placed (settings : Settings) (name : String) (q : Request) :
    (firstDraft settings name q).Placed := by
  refine ⟨⟨?_, List.nodup_nil⟩, rfl, rfl, GroupStore.holds_insert.2 (Or.inr rfl), ?_, ?_⟩
  · intro i hi
    cases hi
  · intro hi
    cases hi
  · intro s hs
    cases hs

/-- However far a source has been read, no group is in its sections twice; the current
group is at the end of the last section if it is in any, and the group of captured source
is in none. The same holds of the document that is read out in the end. -/
theorem groups_placed_once {settings : Settings} {q : Request} {lines : List String} {g : Reading}
    (h : readingAfter settings q lines = .ok g) :
    g.draft.document.allGroups.Nodup ∧
      (g.draft.group ∈ g.draft.document.allGroups →
        ∃ s, g.draft.document.sections.getLast? = some s ∧
          s.groups.getLast? = some g.draft.group) ∧
      (∀ s, g.draft.scratch = some s → s.group ∉ g.draft.document.allGroups) ∧
      (finishReading g).1.allGroups.Nodup := by
  obtain ⟨hg, name, q', hsteps⟩ := readingAfter_steps h
  have hplaced := (firstDraft_placed settings name q').steps hsteps
  obtain ⟨hnodup, hmem⟩ := hplaced.document
  refine ⟨hnodup, ?_, ?_, ?_⟩
  · intro hin
    obtain ⟨s, hs, hlast⟩ := hplaced.last (hmem _ hplaced.group hin)
    refine ⟨s, ?_, hlast⟩
    rw [Draft.document_sections, hs]
    exact List.getLast?_concat
  · intro s hs hin
    obtain ⟨hheld, hno, -⟩ := hplaced.scratch s hs
    exact hno (hmem _ hheld hin)
  · obtain ⟨hfinish, hopened⟩ := hg.finish
    have hend := (hplaced.steps hfinish).freshGroup
    show (Reader.finish g).draft.finish.1.document.allGroups.Nodup
    rw [Draft.finish_document hopened]
    exact hend.document.1

/-- A source with a section, an item and something to do in three groups. -/
theorem groups_placed_once_function :
    ∃ g, readingAfter {} { name := some "d" }
        ["// # T", "// TODO: x", "lib.f = function(a)"] = .ok g ∧
      g.draft.document.allGroups.Nodup ∧ (finishReading g).1.allGroups.Nodup :=
  have h := @groups_placed_once {} { name := some "d" }
    ["// # T", "// TODO: x", "lib.f = function(a)"] _ rfl
  ⟨_, rfl, h.1, h.2.2.2⟩

end DocComment
