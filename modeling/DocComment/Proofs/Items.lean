import DocComment.Proofs.Additions
import DocComment.Proofs.Listing

/-!
# Items, and what leaves them alone

A declaration names an item, and the current group documents that item from then on. An
item is of one of three kinds, and a group has room for one of each kind: its tag is what
it documents, apart from what is written about it.

Only declarations touch tags. `Draft.SameItems` says that none was made between two
drafts, `Draft.Calm` that no function was left either and loose mode was not switched.
`Draft.Quiet` says that no section was opened either, and where the spans come from that
were listed meanwhile: from the file of the document, the open section, and the group of
the function or else a group that was current meanwhile. Groups are named in the order in
which they are made, so "meanwhile" is an interval.
-/

namespace DocComment

open Text Relation Reader

/-- What can be declared. -/
inductive ItemKind where
  | function
  | constant
  | param
  deriving DecidableEq, Repr

/-- What a declaration names. -/
inductive Item where
  | function (binding : Binding) (name : String) (params : Option String)
  | constant (name : String)
  | param (key : String) (definition : Option String) (kind : ParamKind)
  deriving DecidableEq, Repr

namespace Item

def kind : Item → ItemKind
  | function _ _ _ => .function
  | constant _ => .constant
  | param _ _ _ => .param

/-- The name that the item is documented under. -/
def name : Item → String
  | function _ name _ => trim name
  | constant name => trim name
  | param key _ _ => key

def paramKind : Item → Option ParamKind
  | param _ _ kind => some kind
  | _ => none

/-- Lets a group document the item. -/
def mark (x : Item) (g : Group) : Group :=
  match x with
  | function binding name params =>
    { g with function := some (trim name), binding := some binding, params := params }
  | constant name => { g with constant := some (trim name) }
  | param key definition kind =>
    { g with param := some key, paramKind := some kind, params := definition }

end Item

namespace Group

/-- The item of a kind that the group documents. -/
def item (g : Group) : ItemKind → Option String
  | .function => g.function
  | .constant => g.constant
  | .param => g.param

/-- What the group documents, apart from what is written about it. -/
def tag (g : Group) : Group :=
  { g with entries := [] }

theorem item_of_tag {g g' : Group} (h : g'.tag = g.tag) (k : ItemKind) : g'.item k = g.item k := by
  have hitem : g'.tag.item k = g.tag.item k := congrArg (item · k) h
  cases k <;> exact hitem

theorem item_mark (g : Group) (x : Item) (k : ItemKind) :
    (x.mark g).item k = if x.kind = k then some x.name else g.item k := by
  cases x <;> cases k <;> rfl

theorem paramKind_of_tag {g g' : Group} (h : g'.tag = g.tag) : g'.paramKind = g.paramKind := by
  have hkind : g'.tag.paramKind = g.tag.paramKind := congrArg Group.paramKind h
  exact hkind

theorem paramKind_mark (g : Group) (x : Item) :
    (x.mark g).paramKind = if x.kind = .param then x.paramKind else g.paramKind := by
  cases x <;> rfl

theorem entries_mark (g : Group) (x : Item) : (x.mark g).entries = g.entries := by
  cases x <;> rfl

end Group

namespace GroupStore

/-- Every group documents the same in both stores. -/
def SameTags (s t : GroupStore) : Prop :=
  ∀ i, (t.get i).tag = (s.get i).tag

theorem SameTags.refl (s : GroupStore) : s.SameTags s :=
  fun _ => rfl

theorem SameTags.trans {s t u : GroupStore} (h : s.SameTags t) (h' : t.SameTags u) :
    s.SameTags u :=
  fun i => (h' i).trans (h i)

/-- A new group that documents nothing. -/
theorem sameTags_insert (s : GroupStore) (entries : List Entry) :
    s.SameTags (s.insert { entries }) := by
  intro i
  by_cases hi : s.Holds i
  · rw [get_insert_of_holds hi]
  · rw [get_of_not_holds hi]
    rcases s.get_insert_cases i { entries } with h | h
    · rw [h, get_of_not_holds hi]
    · rw [h]
      rfl

theorem sameTags_update (s : GroupStore) (i : GroupId) {f : Group → Group}
    (hf : ∀ g, (f g).tag = g.tag) : s.SameTags (s.update i f) := by
  intro j
  rcases s.get_update_cases i j f with hj | ⟨-, hj⟩
  · rw [hj]
  · rw [hj, hf]

end GroupStore

namespace Draft

/-! ## What is left alone -/

/-- A span was written between two drafts. -/
structure SpanBetween (d e : Draft) (s : Span) : Prop where
  file : s.file = some d.doc.fullname
  place : s.sectionName = d.current.map (·.name)
  origin : ∃ i : GroupId, s.origin = some (d.functionGroup.getD i) ∧
    (d.doc.store.Holds d.group → d.group.index ≤ i.index ∧ i.index ≤ e.group.index)

/-- The second list is the first one with spans at its end that were written between two
drafts. -/
def ListsBetween (d e : Draft) (before after : List Span) : Prop :=
  ∃ new, after = before ++ new ∧ ∀ s ∈ new, SpanBetween d e s

/-- The group is not current any more, and no source is being captured into it. -/
def Left (d : Draft) (i : GroupId) : Prop :=
  d.doc.store.Holds i ∧ i.index < d.group.index ∧ ∀ s, d.scratch = some s → s.group ≠ i

/-- Nothing was declared between two drafts. -/
structure SameItems (d e : Draft) : Prop where
  tags : d.doc.store.SameTags e.doc.store
  held : ∀ i, d.doc.store.Holds i → e.doc.store.Holds i
  name : e.doc.name = d.doc.name
  fullname : e.doc.fullname = d.doc.fullname
  group : d.doc.store.Holds d.group → e.doc.store.Holds e.group ∧ d.group.index ≤ e.group.index
  left : ∀ i, d.Left i →
    e.Left i ∧ (e.doc.store.get i).entries = (d.doc.store.get i).entries

/-- No function was left either, and loose mode was not switched. -/
structure Calm (d e : Draft) : Prop extends SameItems d e where
  loose : e.doc.loose = d.doc.loose
  functionGroup : e.functionGroup = d.functionGroup

/-- No section was opened either. -/
structure Quiet (d e : Draft) : Prop extends Calm d e where
  sections : e.doc.sections = d.doc.sections
  current : e.current.map (·.name) = d.current.map (·.name)
  todos : ListsBetween d e d.todos e.todos
  fixmes : ListsBetween d e d.fixmes e.fixmes

variable {d e f : Draft}

theorem listsBetween_refl (d e : Draft) (l : List Span) : ListsBetween d e l l :=
  ⟨[], (List.append_nil l).symm, fun _ hs => by cases hs⟩

theorem SameItems.refl (d : Draft) : SameItems d d :=
  ⟨.refl _, fun _ => id, rfl, rfl, fun h => ⟨h, Nat.le_refl _⟩, fun _ hi => ⟨hi, rfl⟩⟩

theorem SameItems.trans (h : SameItems d e) (h' : SameItems e f) : SameItems d f where
  tags := h.tags.trans h'.tags
  held := fun i hi => h'.held i (h.held i hi)
  name := h'.name.trans h.name
  fullname := h'.fullname.trans h.fullname
  group := fun hd =>
    have hle := h.group hd
    have hle' := h'.group hle.1
    ⟨hle'.1, Nat.le_trans hle.2 hle'.2⟩
  left := fun i hi =>
    have hsame := h.left i hi
    have hsame' := h'.left i hsame.1
    ⟨hsame'.1, hsame'.2.trans hsame.2⟩

theorem Calm.refl (d : Draft) : Calm d d :=
  ⟨.refl d, rfl, rfl⟩

theorem Calm.trans (h : Calm d e) (h' : Calm e f) : Calm d f :=
  ⟨h.toSameItems.trans h'.toSameItems, h'.loose.trans h.loose,
    h'.functionGroup.trans h.functionGroup⟩

namespace Quiet

theorem refl (d : Draft) : Quiet d d :=
  { Calm.refl d with
    sections := rfl
    current := rfl
    todos := listsBetween_refl d d _
    fixmes := listsBetween_refl d d _ }

theorem listsBetween (h : Quiet d e) (h' : Quiet e f) {l l' l'' : List Span}
    (hl : ListsBetween d e l l') (hl' : ListsBetween e f l' l'') : ListsBetween d f l l'' := by
  obtain ⟨new, rfl, hnew⟩ := hl
  obtain ⟨new', rfl, hnew'⟩ := hl'
  refine ⟨new ++ new', List.append_assoc _ _ _, fun s hs => ?_⟩
  rcases List.mem_append.1 hs with hs | hs
  · obtain ⟨hfile, hplace, i, hi, hbetween⟩ := hnew s hs
    refine ⟨hfile, hplace, i, hi, fun hd => ?_⟩
    have hle := (h'.group (h.group hd).1).2
    have hbetween := hbetween hd
    omega
  · obtain ⟨hfile, hplace, i, hi, hbetween⟩ := hnew' s hs
    refine ⟨h.fullname ▸ hfile, h.current ▸ hplace, i, h.functionGroup ▸ hi, fun hd => ?_⟩
    have hle := h.group hd
    have hbetween := hbetween hle.1
    omega

theorem trans (h : Quiet d e) (h' : Quiet e f) : Quiet d f :=
  { h.toCalm.trans h'.toCalm with
    sections := h'.sections.trans h.sections
    current := h'.current.trans h.current
    todos := h.listsBetween h' h.todos h'.todos
    fixmes := h.listsBetween h' h.fixmes h'.fixmes }

end Quiet

/-! ## Operations that are quiet -/

/-- What is neither about groups nor about sections. -/
theorem quiet_remember (h : e = { d with
      doc := { d.doc with
        params := e.doc.params, libParams := e.doc.libParams, literate := e.doc.literate }
      pending := e.pending, nextStyle := e.nextStyle, table := e.table, back := e.back
      looseReported := e.looseReported }) : Quiet d e := by
  rw [h]
  exact { Quiet.refl d with
    todos := listsBetween_refl _ _ _, fixmes := listsBetween_refl _ _ _ }

/-- Source is captured into the current group, or into the group that it was captured into
before. -/
theorem quiet_scratch (d : Draft) {scratch : Option Scratch}
    (hs : ∀ t, scratch = some t →
      t.group = d.group ∨ ∃ s, d.scratch = some s ∧ s.group = t.group) :
    Quiet d { d with scratch } where
  toCalm := { Calm.refl d with
    left := fun i ⟨hheld, hlt, hno⟩ => ⟨⟨hheld, hlt, fun t ht => by
      rcases hs t ht with hgroup | ⟨s, hd, hgroup⟩
      · rintro rfl
        exact absurd hlt (hgroup ▸ Nat.lt_irrefl _)
      · exact hgroup ▸ hno s hd⟩, rfl⟩ }
  sections := rfl
  current := rfl
  todos := listsBetween_refl _ _ _
  fixmes := listsBetween_refl _ _ _

/-- What is written about a group that has not been left. -/
theorem quiet_update (d : Draft) {i : GroupId} {f : Group → Group} (hf : ∀ g, (f g).tag = g.tag)
    (hi : ¬ d.Left i) : Quiet d { d with doc := d.doc.updateGroup i f } where
  tags := d.doc.store.sameTags_update i hf
  held := fun _ => GroupStore.holds_update.2
  name := rfl
  fullname := rfl
  group := fun hd => ⟨GroupStore.holds_update.2 hd, Nat.le_refl _⟩
  left := fun j ⟨hheld, hj⟩ => ⟨⟨GroupStore.holds_update.2 hheld, hj⟩, by
    refine congrArg Group.entries (GroupStore.get_update_of_ne ?_ f)
    rintro rfl
    exact hi ⟨hheld, hj⟩⟩
  loose := rfl
  functionGroup := rfl
  sections := rfl
  current := rfl
  todos := listsBetween_refl _ _ _
  fixmes := listsBetween_refl _ _ _

theorem not_left_group (d : Draft) : ¬ d.Left d.group :=
  fun h => Nat.lt_irrefl _ h.2.1

theorem quiet_addEntry (d : Draft) (e : Entry) : Quiet d (d.addEntry e) :=
  quiet_update d (fun _ => rfl) d.not_left_group

theorem quiet_flush (d : Draft) : Quiet d d.flush := by
  rw [flush]
  split
  · exact .refl d
  · next e _ => exact (quiet_addEntry d e.settled).trans (quiet_remember rfl)

theorem quiet_pend (d : Draft) (p : Option Entry) : Quiet d { d.flush with pending := p } :=
  (quiet_flush d).trans (quiet_remember rfl)

theorem quiet_closeComment (d : Draft) : Quiet d d.closeComment :=
  (quiet_flush d).trans (quiet_remember rfl)

theorem quiet_freshGroup (d : Draft) : Quiet d d.freshGroup := by
  refine { Quiet.refl d with
    tags := d.doc.store.sameTags_insert []
    held := fun _ hi => GroupStore.holds_insert.2 (Or.inl hi)
    group := fun hd => ⟨GroupStore.holds_insert.2 (Or.inr rfl), Nat.le_of_lt hd⟩
    left := fun i ⟨hheld, _, hno⟩ =>
      ⟨⟨GroupStore.holds_insert.2 (Or.inl hheld), hheld, hno⟩,
        congrArg Group.entries (d.doc.store.get_insert_empty i)⟩
    todos := listsBetween_refl _ _ _
    fixmes := listsBetween_refl _ _ _ }

theorem calm_openSection (d : Draft) (title : String) : Calm d (d.openSection title) :=
  { ((quiet_flush d).trans (quiet_freshGroup _)).toCalm with }

theorem quiet_freshIf (d : Draft) (p : Prop) [Decidable p] :
    Quiet d (if p then d.freshGroup else d) := by
  split
  · exact quiet_freshGroup d
  · exact .refl d

theorem quiet_placeGroup (d : Draft) (i : GroupId) : Quiet d (d.placeGroup i) := by
  refine { Quiet.refl d with
    current := ?_, todos := listsBetween_refl _ _ _, fixmes := listsBetween_refl _ _ _ }
  rw [placeGroup, Option.map_map]
  refine congrArg (Option.map · d.current) (funext fun s => ?_)
  exact (s.extends_place i).name

theorem quiet_addPlaced (d : Draft) (e : Entry) : Quiet d (d.flush.addEntry e).place :=
  ((quiet_flush d).trans (quiet_addEntry _ e)).trans (quiet_placeGroup _ _)

theorem quiet_appendText {text : String} {onNewLine : Bool}
    (h : d.appendText text onNewLine = .ok e) : Quiet d e := by
  rcases appendText_cases h with ⟨-, rfl⟩ | ⟨p, p', -, -, rfl⟩
  · exact quiet_remember rfl
  · exact quiet_remember rfl

theorem quiet_appendItem (d : Draft) (item : ListItem) : Quiet d (d.appendItem item) := by
  rw [appendItem]
  split
  · exact quiet_remember rfl
  · exact quiet_pend d _

theorem quiet_captureLine (d : Draft) (line : String) : Quiet d (d.captureLine line) := by
  rw [captureLine]
  split
  · exact .refl d
  · next s hs =>
      refine quiet_scratch d fun t ht => Or.inr ⟨s, hs, ?_⟩
      cases ht
      rfl

theorem quiet_attachCode {s : Scratch} (hs : d.scratch = some s) : Quiet d (d.attachCode s) := by
  rw [attachCode]
  split
  · exact quiet_update d (fun _ => rfl) fun hleft => hleft.2.2 s hs rfl
  · exact .refl d

theorem quiet_splitCapture (d : Draft) : Quiet d d.splitCapture := by
  rw [splitCapture]
  split
  · exact .refl d
  · next s hs =>
      split
      · refine (quiet_attachCode hs).trans (quiet_scratch _ fun t ht => Or.inr ⟨s, ?_, ?_⟩)
        · rw [attachCode_scratch, hs]
        · cases ht
          rfl
      · exact .refl d

theorem quiet_startCapture (d : Draft) : Quiet d d.startCapture := by
  rw [startCapture]
  split
  · exact .refl d
  · refine (quiet_freshGroup d).trans (quiet_scratch _ fun t ht => Or.inl ?_)
    cases ht
    rfl

theorem quiet_finishCapture (d : Draft) : Quiet d d.finishCapture := by
  rw [finishCapture]
  split
  · exact .refl d
  · next s hs =>
      -- the capture is over before its code is attached, but it may as well end after that
      have hattach : Quiet d ({ d with scratch := none }.attachCode s) := by
        have hafter : { d with scratch := none }.attachCode s =
            { d.attachCode s with scratch := none } := by
          rw [attachCode, attachCode]
          split <;> rfl
        rw [hafter]
        exact (quiet_attachCode hs).trans (quiet_scratch _ fun t ht => by cases ht)
      simp only []
      split
      · exact hattach
      · exact hattach.trans (quiet_placeGroup _ _)

/-- A span is listed with the group that it was written in. -/
theorem quiet_listSpan (d : Draft) (kind : SpanKind) (text : String) :
    Quiet d (d.listSpan (d.spanHere kind text)) := by
  have hspan {e : Draft} (he : e.group = d.group) :
      ∀ s ∈ [d.spanHere kind text], SpanBetween d e s := by
    intro s hs
    rw [List.mem_singleton] at hs
    subst hs
    exact ⟨rfl, rfl, d.group, rfl, fun _ => he ▸ ⟨Nat.le_refl _, Nat.le_refl _⟩⟩
  rw [listSpan]
  split
  · exact { Quiet.refl d with
      todos := ⟨_, rfl, hspan rfl⟩, fixmes := listsBetween_refl _ _ _ }
  · exact { Quiet.refl d with
      todos := listsBetween_refl _ _ _, fixmes := ⟨_, rfl, hspan rfl⟩ }
  · exact .refl d
  · exact .refl d

theorem quiet_addSpan (d : Draft) (kind : SpanKind) (text : String) :
    Quiet d (d.addSpan kind text) := by
  refine (quiet_splitCapture d).trans ?_
  rw [addSpan]
  split
  · exact quiet_pend _ _
  · refine (quiet_pend _ (some (.span { kind, text := some text }))).trans ?_
    rw [← (quiet_flush d.splitCapture).functionGroup, ← flush_group d.splitCapture]
    exact quiet_listSpan
      { d.splitCapture.flush with pending := some (.span { kind, text := some text }) } kind text

theorem quiet_addTodo (d : Draft) (text : String) : Quiet d (d.addTodo text) :=
  (quiet_addSpan d .todo text).trans (quiet_flush _)

theorem quiet_addKeyword {whole keyword text : String}
    (h : d.addKeyword whole keyword text = .ok e) : Quiet d e := by
  rw [addKeyword] at h
  split at h
  · exact Except.ok.inj h ▸ quiet_addSpan d _ text
  · exact quiet_appendText h

theorem quiet_openTable (d : Draft) (key : String) (lead : Option String) :
    Quiet d (d.openTable key lead) := by
  rw [openTable]
  exact (Quiet.trans (quiet_remember rfl) (quiet_addPlaced _ _)).trans (quiet_freshGroup _)

theorem quiet_closeTable (d : Draft) : Quiet d d.closeTable :=
  (quiet_addPlaced d _).trans (quiet_remember rfl)

theorem quiet_flagUndocumented (d : Draft) : Quiet d d.flagUndocumented := by
  rw [flagUndocumented]
  split
  · exact quiet_freshGroup d
  · exact (quiet_freshGroup d).trans (quiet_addTodo _ _)

theorem quiet_setLiterate (d : Draft) (enabled : Bool) : Quiet d (d.setLiterate enabled) := by
  have hmode : Quiet d { d with doc := { d.doc with literate := enabled } } := quiet_remember rfl
  rw [setLiterate]
  split
  · exact hmode.trans (quiet_startCapture _)
  · exact hmode.trans (quiet_finishCapture _)

/-- Loose mode itself is all that is not quiet about switching it. -/
theorem quiet_setLoose (d : Draft) (enabled : Bool) :
    Quiet { d with doc := { d.doc with loose := enabled } } (d.setLoose enabled) := by
  rw [setLoose]
  split
  · exact Quiet.trans (quiet_remember rfl) (quiet_addTodo
      { d with doc := { d.doc with loose := enabled }, looseReported := true } _)
  · exact .refl _

theorem quiet_discardNodoc? (h : d.discardNodoc? = some e) : Quiet d e := by
  rw [discardNodoc?] at h
  split at h
  · exact Option.some.inj h ▸ quiet_remember rfl
  · split at h
    · exact Option.some.inj h ▸
        (quiet_update d (f := fun g => { g with entries := g.entries.dropLast })
          (fun _ => rfl) d.not_left_group).trans (quiet_remember rfl)
    · cases h

/-! ## Documents -/

theorem sameTags_document (d : Draft) : d.doc.store.SameTags d.document.store := by
  have hinsert (s : GroupStore) (spans : List Span) :
      s.SameTags (s.insert { entries := spans.map .span }) :=
    s.sameTags_insert _
  rw [document]
  simp only [Document.withFixmes, Document.withTodos]
  split <;> split
  · exact .refl _
  · exact hinsert _ _
  · exact hinsert _ _
  · exact (hinsert _ _).trans (hinsert _ _)

end Draft

/-- What a group documents when the source ends is what the document says. -/
theorem Reading.Completes.tags {g : Reading} {doc : Document} (h : g.Completes doc) :
    (Reader.finish g).draft.doc.store.SameTags doc.store := by
  rw [h.document]
  exact (Draft.quiet_freshGroup _).tags.trans (Draft.sameTags_document _)

end DocComment
