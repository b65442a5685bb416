import DocComment.Document.Json
import DocComment.Proofs.LooseDrafts
import DocComment.Proofs.Tables

/-!
# Documents without missing documentation

`Document.withoutMissing` takes the spans that say that documentation is missing out of
all groups, and out of the list of what is to do, which is none if nothing else is in it.
A draft in loose mode and the same draft with its missing documentation shown are read out
as documents that are the same JSON after that (`Draft.Hides.toJson_document`).

The groups of the lists at the end have other names in the two documents, as one of them
may have a list more. So it is their JSON that is compared, in which groups have no names;
and spans, which show the names of items instead, are shown alike as no group of a list
documents an item.
-/

namespace DocComment

/-! ## Without missing documentation -/

def Group.withoutMissing (g : Group) : Group :=
  { g with entries := g.entries.filter (!·.isMissing) }

def GroupStore.withoutMissing (s : GroupStore) : GroupStore :=
  ⟨s.groups.map Group.withoutMissing⟩

/-- The document without the spans that say that documentation is missing. -/
def Document.withoutMissing (doc : Document) : Document :=
  { doc with
    store := doc.store.withoutMissing
    todo := doc.todo.filter fun s =>
      s.groups.any fun i => !(doc.store.get i).withoutMissing.entries.isEmpty }

theorem Group.withoutMissing_flagged (g : Group) : g.flagged.withoutMissing = g.withoutMissing := by
  have hmissing : missingSpan.isMissing = true := rfl
  simp [withoutMissing, flagged, Entry.isMissing, hmissing]

theorem Group.withoutMissing_of_all {g : Group} (h : ∀ e ∈ g.entries, e.isMissing = false) :
    g.withoutMissing = g := by
  have hall : g.entries.filter (!·.isMissing) = g.entries :=
    List.filter_eq_self.2 fun e he => by rw [h e he]; rfl
  rw [withoutMissing, hall]

namespace GroupStore

variable {s t : GroupStore}

theorem get_withoutMissing (s : GroupStore) (i : GroupId) :
    s.withoutMissing.get i = (s.get i).withoutMissing := by
  simp only [get, withoutMissing, Array.getElem?_map]
  cases s.groups[i.index]? <;> rfl

/-! ## JSON that is the same -/

/-- The groups of the stores document the same items. -/
def SameAnchors (s t : GroupStore) : Prop :=
  ∀ i, (s.get i).anchor = (t.get i).anchor

theorem SameAnchors.trans {u : GroupStore} (h : s.SameAnchors t) (h' : t.SameAnchors u) :
    s.SameAnchors u :=
  fun i => (h i).trans (h' i)

theorem SameAnchors.symm (h : s.SameAnchors t) : t.SameAnchors s :=
  fun i => (h i).symm

theorem sameAnchors_withoutMissing (s : GroupStore) : s.withoutMissing.SameAnchors s := by
  intro i
  rw [get_withoutMissing]
  rfl

theorem Flags.sameAnchors {named : GroupId → Prop} (h : Flags named s t) : s.SameAnchors t := by
  intro i
  by_cases hi : named i
  · rw [h.flagged hi]
    rfl
  · rw [h.same hi]

theorem Flags.get_withoutMissing {named : GroupId → Prop} (h : Flags named s t) (i : GroupId) :
    (s.get i).withoutMissing = (t.get i).withoutMissing := by
  by_cases hi : named i
  · rw [h.flagged hi, Group.withoutMissing_flagged]
  · rw [h.same hi]

/-- A group that documents no item tells no other item. -/
theorem sameAnchors_insert (s : GroupStore) (entries : List Entry) :
    (s.insert { entries }).SameAnchors s := by
  intro i
  rcases s.get_insert_cases i { entries } with hi | hi
  · rw [hi]
  · by_cases hh : s.Holds i
    · rw [get_insert_of_holds hh]
    · rw [hi, get_of_not_holds hh]
      rfl

theorem toJson_group_congr (h : s.SameAnchors t) (g : Group) : g.toJson s = g.toJson t := by
  have hentry : ∀ e : Entry, e.toJson s = e.toJson t := by
    intro e
    cases e with
    | span x =>
        cases hx : x.origin with
        | none => simp [Entry.toJson, hx]
        | some i => simp [Entry.toJson, hx, h i]
    | _ => rfl
  rw [Group.toJson, Group.toJson, funext hentry]

theorem toJson_congr (h : s.SameAnchors t) {ids : List GroupId}
    (hg : ∀ i ∈ ids, s.get i = t.get i) : s.toJson ids = t.toJson ids := by
  rw [toJson, toJson]
  refine congrArg Json.arr (List.map_congr_left fun i hi => ?_)
  rw [hg i hi, toJson_group_congr h]

theorem toJson_section_congr (h : s.SameAnchors t) {x : Section}
    (hg : ∀ i ∈ x.groups, s.get i = t.get i) : x.toJson s = x.toJson t := by
  rw [Section.toJson, Section.toJson, toJson_congr h hg]

/-! ## Lists at the end -/

/-- A list at the end of a document: it is there if there are spans, and then it has one
group, which holds them and documents nothing. -/
inductive Listed (s : GroupStore) (kind : SpanKind) : Option Section → List Span → Prop where
  | none : Listed s kind none []
  | some {i : GroupId} {spans : List Span} (hs : spans ≠ [])
      (hg : s.get i = { entries := spans.map .span }) :
      Listed s kind (some (Document.listing kind i)) spans

theorem Listed.toJson_congr {kind : SpanKind} {spans : List Span} {list list' : Option Section}
    (h : s.Listed kind list spans) (h' : t.Listed kind list' spans) (ha : s.SameAnchors t) :
    Json.ofOption (Section.toJson s) list = Json.ofOption (Section.toJson t) list' := by
  cases h with
  | none =>
      cases h' with
      | none => rfl
      | some hs => exact absurd rfl hs
  | @some i _ hs hg =>
      cases h' with
      | none => exact absurd rfl hs
      | @some i' _ _ hg' =>
          simp [Json.ofOption, Section.toJson, GroupStore.toJson, Document.listing, hg, hg',
            toJson_group_congr ha]

theorem Listed.of_get {kind : SpanKind} {spans : List Span} {list : Option Section}
    (h : s.Listed kind list spans) (hg : ∀ x ∈ list, ∀ i ∈ x.groups, t.get i = s.get i) :
    t.Listed kind list spans := by
  cases h with
  | none => exact .none
  | some hs hget => exact .some hs ((hg _ rfl _ List.mem_cons_self).trans hget)

theorem Listed.exists_mem {kind : SpanKind} {spans : List Span} {list : Option Section}
    (h : s.Listed kind list spans) {x : Span} (hx : x ∈ spans) :
    ∃ i ∈ list.toList.flatMap (·.groups), .span x ∈ (s.get i).entries := by
  cases h with
  | none => cases hx
  | @some i _ hs hg =>
      refine ⟨i, List.mem_cons_self, ?_⟩
      rw [hg]
      exact List.mem_map_of_mem hx

/-- Without missing documentation a list has the other spans, and is none if there are
none. -/
theorem Listed.withoutMissing {kind : SpanKind} {spans : List Span} {list : Option Section}
    (h : s.Listed kind list spans) :
    s.withoutMissing.Listed kind
      (list.filter fun x => x.groups.any fun i => !(s.get i).withoutMissing.entries.isEmpty)
      (spans.filter (!·.isMissing)) := by
  cases h with
  | none => exact .none
  | @some i _ hs hg =>
      have hget : (s.get i).withoutMissing =
          { entries := (spans.filter (!·.isMissing)).map .span } := by
        rw [hg, Group.withoutMissing, List.filter_map]
        rfl
      by_cases hempty : spans.filter (!·.isMissing) = []
      · simp only [Document.listing, Option.filter_some, List.any_cons, List.any_nil, hget, hempty]
        exact .none
      · have hsome : (!((spans.filter (!·.isMissing)).map Entry.span).isEmpty) = true := by
          simpa using hempty
        simp only [Document.listing, Option.filter_some, List.any_cons, List.any_nil, hget, hsome]
        exact .some hempty ((get_withoutMissing s i).trans hget)

theorem Listed.withoutMissing_of_all {kind : SpanKind} {spans : List Span} {list : Option Section}
    (h : s.Listed kind list spans) (hall : ∀ x ∈ spans, x.isMissing = false) :
    s.withoutMissing.Listed kind list spans := by
  cases h with
  | none => exact .none
  | @some i _ hs hg =>
      refine .some hs ((get_withoutMissing s i).trans ?_)
      rw [hg]
      refine Group.withoutMissing_of_all fun e he => ?_
      obtain ⟨x, hx, rfl⟩ := List.mem_map.1 he
      exact hall x hx

/-- What a store has after a list was put into it. -/
structure Extended (s t : GroupStore) : Prop where
  holds : ∀ i, s.Holds i → t.Holds i
  get : ∀ i, s.Holds i → t.get i = s.get i
  anchors : t.SameAnchors s

theorem Extended.refl (s : GroupStore) : s.Extended s :=
  ⟨fun _ => id, fun _ _ => rfl, fun _ => rfl⟩

theorem Extended.trans {u : GroupStore} (h : s.Extended t) (h' : t.Extended u) : s.Extended u :=
  ⟨fun i hi => h'.holds i (h.holds i hi), fun i hi => (h'.get i (h.holds i hi)).trans (h.get i hi),
    h'.anchors.trans h.anchors⟩

theorem extended_insert (s : GroupStore) (entries : List Entry) :
    s.Extended (s.insert { entries }) :=
  ⟨fun _ hi => holds_insert.2 (Or.inl hi), fun _ hi => get_insert_of_holds hi _,
    s.sameAnchors_insert entries⟩

end GroupStore

namespace Document

theorem withTodos_shape (doc : Document) (ht : doc.todo = none) (spans : List Span) :
    ∃ store todo, doc.withTodos spans = { doc with store, todo } ∧
      store.Listed .todo todo spans ∧ (∀ x ∈ todo, ∀ i ∈ x.groups, store.Holds i) ∧
      doc.store.Extended store := by
  cases spans with
  | nil =>
      refine ⟨doc.store, none, ?_, .none, fun _ hx => (nomatch hx), .refl _⟩
      rw [← ht]
      rfl
  | cons x xs =>
      refine ⟨_, _, rfl, .some (List.cons_ne_nil x xs) (GroupStore.get_insert_nextId _ _), ?_,
        doc.store.extended_insert _⟩
      rintro _ ⟨⟩ i hi
      obtain rfl := List.mem_singleton.1 hi
      exact GroupStore.holds_insert.2 (Or.inr rfl)

theorem withFixmes_shape (doc : Document) (hf : doc.fixme = none) (spans : List Span) :
    ∃ store fixme, doc.withFixmes spans = { doc with store, fixme } ∧
      store.Listed .fixme fixme spans ∧ doc.store.Extended store := by
  cases spans with
  | nil =>
      refine ⟨doc.store, none, ?_, .none, .refl _⟩
      rw [← hf]
      rfl
  | cons x xs =>
      exact ⟨_, _, rfl, .some (List.cons_ne_nil x xs) (GroupStore.get_insert_nextId _ _),
        doc.store.extended_insert _⟩

end Document

/-! ## Drafts -/

namespace Draft

/-- What is added to a draft when it is read out. -/
theorem document_shape {d : Draft} (ht : d.doc.todo = none) (hf : d.doc.fixme = none) :
    ∃ store todo fixme,
      d.document = { d.doc with
        sections := d.doc.sections ++ d.current.toList, store, todo, fixme } ∧
      store.Listed .todo todo d.todos ∧ store.Listed .fixme fixme d.fixmes ∧
      d.doc.store.Extended store := by
  let doc : Document := { d.doc with sections := d.doc.sections ++ d.current.toList }
  obtain ⟨store, todo, htodos, hlisted, hheld, hext⟩ := doc.withTodos_shape ht d.todos
  obtain ⟨store', fixme, hfixmes, hlisted', hext'⟩ :=
    Document.withFixmes_shape { doc with store, todo } hf d.fixmes
  refine ⟨store', todo, fixme, ?_, hlisted.of_get fun x hx i hi => ?_, hlisted', hext.trans hext'⟩
  · rw [document, htodos, hfixmes]
  · exact hext'.get i (hheld x hx i hi)

/-- The document of a draft whose missing documentation is shown is the one of the draft
in loose mode once the missing documentation is taken out again, if the latter has
none. -/
theorem Hides.toJson_document {named : GroupId → Prop} {d d' : Draft} (h : Hides named d d')
    (hp : Placed d') (ht : Tabled d')
    (hno : ∀ i ∈ d'.document.allGroups, ∀ e ∈ (d'.document.store.get i).entries,
      e.isMissing = false) :
    d.document.withoutMissing.toJson = { d'.document with loose := false }.toJson := by
  obtain @⟨_, loose, store, todos, fixmes, ⟨rfl, -⟩, hflags, hlisted, rfl, -⟩ := h
  have hsame : store.SameAnchors d'.doc.store := GroupStore.Flags.sameAnchors hflags
  obtain ⟨s, todo, fixme, hdoc, htodo, hfixme, hext⟩ :=
    document_shape (d := d'.changed false store todos d'.fixmes) hp.todo hp.fixme
  obtain ⟨s', todo', fixme', hdoc', htodo', hfixme', hext'⟩ := document_shape hp.todo hp.fixme
  rw [hdoc'] at hno
  -- what the document in loose mode shows is in its sections and in the two lists
  simp only [Document.allGroups, Document.allSections, List.flatMap_append, List.mem_append] at hno
  have hplaced : ∀ i ∈ d'.placed, ∀ e ∈ (s'.get i).entries, e.isMissing = false := by
    intro i hi
    rw [placed, List.flatMap_append, List.mem_append] at hi
    exact hno i (Or.inl (Or.inl hi))
  have htodos : ∀ x ∈ d'.todos, x.isMissing = false := by
    intro x hx
    obtain ⟨i, hi, hmem⟩ := htodo'.exists_mem hx
    exact hno i (Or.inl (Or.inr hi)) _ hmem
  have hfixmes : ∀ x ∈ d'.fixmes, x.isMissing = false := by
    intro x hx
    obtain ⟨i, hi, hmem⟩ := hfixme'.exists_mem hx
    exact hno i (Or.inr hi) _ hmem
  have hanchors : s.withoutMissing.SameAnchors s' :=
    ((s.sameAnchors_withoutMissing.trans hext.anchors).trans hsame).trans hext'.anchors.symm
  have hget : ∀ i ∈ d'.placed, s.withoutMissing.get i = s'.get i := by
    intro i hi
    have hheld := hp.lists.held i hi
    have hheld' : store.Holds i := by
      rwa [GroupStore.Holds, hflags.size]
    have hs' := hext'.get i hheld
    have hbare : (d'.doc.store.get i).withoutMissing = d'.doc.store.get i :=
      Group.withoutMissing_of_all (hs' ▸ hplaced i hi)
    have hs : s.get i = store.get i := hext.get i hheld'
    rw [GroupStore.get_withoutMissing, hs, hs', GroupStore.Flags.get_withoutMissing hflags, hbare]
  have hsection : ∀ x ∈ d'.doc.sections ++ d'.current.toList,
      x.toJson s.withoutMissing = x.toJson s' := fun x hx =>
    GroupStore.toJson_section_congr hanchors fun i hi =>
      hget i (List.mem_flatMap.2 ⟨x, hx, hi⟩)
  have hfiltered : todos.filter (!·.isMissing) = d'.todos := by
    rw [show todos.filter _ = _ from hlisted]
    exact List.filter_eq_self.2 fun x hx => by rw [htodos x hx]; rfl
  have htodoJson := (hfiltered ▸ htodo.withoutMissing).toJson_congr htodo' hanchors
  have hfixmeJson := (hfixme.withoutMissing_of_all hfixmes).toJson_congr hfixme' hanchors
  have hlibJson := GroupStore.toJson_congr hanchors fun i hi =>
    hget i (ht.libParams.agrees.order.subset hi)
  have hparamsJson : ∀ x ∈ d'.doc.params,
      (x.1, s.withoutMissing.toJson x.2.groups) = (x.1, s'.toJson x.2.groups) := fun x hx => by
    rw [GroupStore.toJson_congr hanchors fun i hi =>
      hget i ((ht.params x.1 x.2 hx).agrees.order.subset hi)]
  rw [hdoc, hdoc']
  simp only [Document.toJson, Document.withoutMissing, changed, hlibJson,
    List.map_congr_left hsection, List.map_congr_left hparamsJson, hfixmeJson]
  rw [htodoJson]

end Draft

end DocComment
