import DocComment.Proofs.Additions

/-!
# Tables and sections agree

A parameter is kept in three places: its group is in a section, it is listed in a table,
and the table finds it by its key. The three are filled one after another, and later a
group could be tagged anew, placed again or moved. `ParamTable.Agrees` says what holds of
a table between the declarations: its groups stand in the sections in the order of the
table, each documents the parameter that it is listed under, and the current group is none
of them. The last part carries the induction, as whatever is tagged is the current group.

Only a declaration lists anything. It tags the current group, which is not listed yet,
places it behind all the others and goes on with a new group, so the table agrees with the
sections again (`Draft.Backs.declare`). All other writes only add to the sections
(`Draft.LeavesListed`).
-/

namespace DocComment

open Text Relation Reader

/-! ## Tables -/

namespace ParamTable

theorem mem_groups {t : ParamTable} {i : GroupId} : i ∈ t.groups ↔ ∃ k, (k, i) ∈ t.entries := by
  simp [groups]

theorem mem_groups_insert {t : ParamTable} {key : String} {i j : GroupId} :
    j ∈ (t.insert key i).groups ↔ j ∈ t.groups ∨ j = i := by
  rw [groups_insert, List.mem_append, List.mem_singleton]

/-- The last declaration of a key is followed by none of the same key. -/
theorem find?_eq_some {t : ParamTable} {key : String} {i : GroupId} :
    t.find? key = some i ↔
      ∃ before after, t.entries = before ++ (key, i) :: after ∧ ∀ x ∈ after, x.1 ≠ key := by
  rw [find?, Option.map_eq_some_iff]
  constructor
  · rintro ⟨⟨k, j⟩, hfind, rfl⟩
    obtain ⟨hk, as, bs, hsplit, has⟩ := List.find?_eq_some_iff_append.1 hfind
    obtain rfl : k = key := by simpa using hk
    refine ⟨bs.reverse, as.reverse, ?_, fun x hx => ?_⟩
    · have hr := congrArg List.reverse hsplit
      simpa using hr
    · simpa using has x (List.mem_reverse.1 hx)
  · rintro ⟨before, after, hsplit, hafter⟩
    refine ⟨(key, i), List.find?_eq_some_iff_append.2 ⟨by simp, after.reverse, before.reverse, ?_,
      fun x hx => ?_⟩, rfl⟩
    · rw [hsplit]
      simp
    · simpa using hafter x (List.mem_reverse.1 hx)

theorem contains_iff {t : ParamTable} {key : String} :
    t.contains key ↔ ∃ i, (key, i) ∈ t.entries := by
  rw [contains, find?, Option.isSome_map, List.find?_isSome]
  constructor
  · rintro ⟨⟨k, i⟩, hmem, hk⟩
    obtain rfl : k = key := by simpa using hk
    exact ⟨i, List.mem_reverse.1 hmem⟩
  · rintro ⟨i, hmem⟩
    exact ⟨(key, i), List.mem_reverse.2 hmem, by simp⟩

end ParamTable

/-- A table and the groups that stand somewhere agree: those of the table are among them
in its order, and they document what they are listed under, as parameters of the given
kinds. -/
structure ParamTable.Agrees (kinds : List ParamKind) (store : GroupStore) (placed : List GroupId)
    (t : ParamTable) : Prop where
  order : t.groups.Sublist placed
  param : ∀ k i, (k, i) ∈ t.entries → (store.get i).param = some k
  kind : ∀ i ∈ t.groups, ∃ kind ∈ kinds, (store.get i).paramKind = some kind

namespace ParamTable.Agrees

variable {kinds : List ParamKind} {store store' : GroupStore} {placed placed' : List GroupId}
  {t : ParamTable}

theorem empty (kinds : List ParamKind) (store : GroupStore) (placed : List GroupId) :
    ParamTable.Agrees kinds store placed {} where
  order := List.nil_sublist _
  param := fun _ _ hi => by cases hi
  kind := fun _ hi => by cases hi

/-- What is written elsewhere does not matter. -/
theorem mono (h : t.Agrees kinds store placed) (hp : placed.Sublist placed')
    (hget : ∀ i ∈ t.groups, (store'.get i).param = (store.get i).param ∧
      (store'.get i).paramKind = (store.get i).paramKind) : t.Agrees kinds store' placed' where
  order := h.order.trans hp
  param := fun k i hi => by
    rw [(hget i (mem_groups.2 ⟨k, hi⟩)).1]
    exact h.param k i hi
  kind := fun i hi => by
    rw [(hget i hi).2]
    exact h.kind i hi

/-- A further group may be listed if it stands behind the others. -/
theorem insert (h : t.Agrees kinds store placed) {key : String} {i : GroupId} {kind : ParamKind}
    (hkind : kind ∈ kinds) (hparam : (store.get i).param = some key)
    (hk : (store.get i).paramKind = some kind) (horder : (t.groups ++ [i]).Sublist placed) :
    (t.insert key i).Agrees kinds store placed := by
  refine ⟨?_, fun k j hj => ?_, fun j hj => ?_⟩
  · rw [groups_insert]
    exact horder
  · rcases List.mem_append.1 hj with hj | hj
    · exact h.param k j hj
    · obtain ⟨rfl, rfl⟩ := Prod.mk.inj (List.mem_singleton.1 hj)
      exact hparam
  · rcases mem_groups_insert.1 hj with hj | rfl
    · exact h.kind j hj
    · exact ⟨kind, hkind, hk⟩

end ParamTable.Agrees

theorem mem_putKey {α : Type} {key k : String} {value v : α} {l : List (String × α)}
    (h : (k, v) ∈ putKey key value l) : (k, v) ∈ l ∨ v = value := by
  induction l with
  | nil =>
      rw [putKey, List.mem_singleton] at h
      exact Or.inr (Prod.mk.inj h).2
  | cons x l ih =>
      obtain ⟨k', v'⟩ := x
      rw [putKey] at h
      split at h
      · rcases List.mem_cons.1 h with h | h
        · exact Or.inr (Prod.mk.inj h).2
        · exact Or.inl (List.mem_cons_of_mem _ h)
      · rcases List.mem_cons.1 h with h | h
        · exact Or.inl (h ▸ List.mem_cons_self)
        · exact (ih h).imp_left (List.mem_cons_of_mem _)

theorem mem_of_lookup {α : Type} {key : String} {value : α} {l : List (String × α)}
    (h : l.lookup key = some value) : (key, value) ∈ l := by
  obtain ⟨before, after, rfl, -⟩ := List.lookup_eq_some_iff.1 h
  simp

/-! ## Drafts -/

namespace Draft

/-- A table agrees with the sections so far, and the current group is not listed in it. -/
structure Backs (d : Draft) (kinds : List ParamKind) (t : ParamTable) : Prop where
  agrees : t.Agrees kinds d.doc.store d.placed
  held : ∀ i ∈ t.groups, d.doc.store.Holds i
  unlisted : d.group ∉ t.groups

/-- Every table of a draft agrees with it. -/
structure Tabled (d : Draft) : Prop where
  group : d.doc.store.Holds d.group
  libParams : d.Backs [.plain] d.doc.libParams
  params : ∀ key t, (key, t) ∈ d.doc.params → d.Backs [.table, .list] t

/-- The second draft has at least the groups of the first one in its sections. None but
the current group was tagged, and another one has become the current group only if it is
new. -/
structure LeavesListed (d e : Draft) : Prop where
  placed : d.placed.Sublist e.placed
  holds : ∀ i, d.doc.store.Holds i → e.doc.store.Holds i
  group : e.group = d.group ∨ ¬ d.doc.store.Holds e.group ∧ e.doc.store.Holds e.group
  tags : ∀ i, i ≠ d.group → (e.doc.store.get i).param = (d.doc.store.get i).param ∧
    (e.doc.store.get i).paramKind = (d.doc.store.get i).paramKind

variable {d e f : Draft} {kinds : List ParamKind} {t : ParamTable}

theorem Backs.empty (d : Draft) (kinds : List ParamKind) : d.Backs kinds {} :=
  ⟨.empty kinds _ _, fun _ hi => absurd hi List.not_mem_nil, List.not_mem_nil⟩

theorem Backs.of_leaves (h : d.Backs kinds t) (hl : LeavesListed d e) : e.Backs kinds t := by
  refine ⟨h.agrees.mono hl.placed fun i hi => ?_, fun i hi => hl.holds i (h.held i hi), ?_⟩
  · refine hl.tags i fun hg => ?_
    exact h.unlisted (hg ▸ hi)
  · intro hi
    rcases hl.group with hg | ⟨hnew, -⟩
    · exact h.unlisted (hg ▸ hi)
    · exact hnew (h.held _ hi)

theorem Tabled.of_leaves (h : Tabled d) (hl : LeavesListed d e)
    (hlib : e.doc.libParams = d.doc.libParams)
    (hparams : ∀ key t, (key, t) ∈ e.doc.params → (key, t) ∈ d.doc.params ∨ t = {}) : Tabled e := by
  refine ⟨?_, ?_, fun key t ht => ?_⟩
  · rcases hl.group with hg | ⟨-, hnew⟩
    · rw [hg]
      exact hl.holds _ h.group
    · exact hnew
  · rw [hlib]
    exact h.libParams.of_leaves hl
  · rcases hparams key t ht with ht | rfl
    · exact (h.params key t ht).of_leaves hl
    · exact .empty e _

namespace LeavesListed

theorem of_store (hp : d.placed.Sublist e.placed) (hs : e.doc.store = d.doc.store)
    (hg : e.group = d.group) : LeavesListed d e where
  placed := hp
  holds := fun i hi => hs ▸ hi
  group := Or.inl hg
  tags := fun i _ => by simp [hs]

theorem trans (h : LeavesListed d e) (hg : e.group = d.group) (h' : LeavesListed e f) :
    LeavesListed d f where
  placed := h.placed.trans h'.placed
  holds := fun i hi => h'.holds i (h.holds i hi)
  group := by
    rcases h'.group with hf | ⟨hno, hf⟩
    · exact Or.inl (hf.trans hg)
    · exact Or.inr ⟨fun hd => hno (h.holds _ hd), hf⟩
  tags := fun i hi => by
    have hd := h.tags i hi
    have he := h'.tags i (hg ▸ hi)
    exact ⟨he.1.trans hd.1, he.2.trans hd.2⟩

end LeavesListed

theorem leaves_update (d : Draft) (i : GroupId) {f : Group → Group}
    (hf : i ≠ d.group → ∀ g, (f g).param = g.param ∧ (f g).paramKind = g.paramKind) :
    LeavesListed d { d with doc := d.doc.updateGroup i f } where
  placed := List.Sublist.refl _
  holds := fun _ => GroupStore.holds_update.2
  group := Or.inl rfl
  tags := fun j hj => by
    rcases d.doc.store.get_update_cases i j f with hget | ⟨rfl, hget⟩
    · exact ⟨congrArg Group.param hget, congrArg Group.paramKind hget⟩
    · obtain ⟨hparam, hkind⟩ := hf hj (d.doc.store.get j)
      exact ⟨(congrArg Group.param hget).trans hparam, (congrArg Group.paramKind hget).trans hkind⟩

theorem leaves_freshGroup (d : Draft) : LeavesListed d d.freshGroup where
  placed := List.Sublist.refl _
  holds := fun _ hi => GroupStore.holds_insert.2 (Or.inl hi)
  group := Or.inr ⟨d.doc.store.not_holds_nextId, GroupStore.holds_insert.2 (Or.inr rfl)⟩
  tags := fun i _ => by
    have hget := d.doc.store.get_insert_empty i
    exact ⟨congrArg Group.param hget, congrArg Group.paramKind hget⟩

theorem leaves_placeGroup (d : Draft) (i : GroupId) : LeavesListed d (d.placeGroup i) :=
  .of_store (placed_prefix_placeGroup d i).sublist rfl rfl

/-! ## Declarations -/

theorem sublist_of_concat {l l' : List GroupId} {i : GroupId} (h : l.Sublist (l' ++ [i]))
    (hi : i ∉ l) : l.Sublist l' := by
  obtain ⟨l₁, l₂, rfl, h₁, h₂⟩ := List.sublist_append_iff.1 h
  rcases List.sublist_cons_iff.1 h₂ with h₂ | ⟨l₃, rfl, -⟩
  · rw [List.sublist_nil.1 h₂, List.append_nil]
    exact h₁
  · simp at hi

/-- The current group, when it is placed, stands behind all others. -/
theorem sublist_place (hd : d.current.isSome) {l : List GroupId} (hl : l.Sublist d.placed)
    (hno : d.group ∉ l) : (l ++ [d.group]).Sublist d.place.placed := by
  obtain ⟨s, hs⟩ := Option.isSome_iff_exists.1 hd
  by_cases hlast : s.groups.getLast? = some d.group
  · obtain ⟨init, hinit⟩ := List.getLast?_eq_some_iff.1 hlast
    have hplaced : d.placed = (d.doc.sections.flatMap (·.groups) ++ init) ++ [d.group] := by
      simp [placed, hs, hinit]
    have hsame : d.place.placed = d.placed := by
      simp [placed, place, placeGroup, hs, Section.place, hlast]
    rw [hsame, hplaced]
    rw [hplaced] at hl
    exact (sublist_of_concat hl hno).append (List.Sublist.refl _)
  · have hsame : d.place.placed = d.placed ++ [d.group] := by
      simp [placed, place, placeGroup, hs, Section.place, hlast]
    rw [hsame]
    exact hl.append (List.Sublist.refl _)

theorem leaves_register {key : String} {kind : ParamKind} (h : d.register key kind = .ok e) :
    LeavesListed d e ∧ e.group = d.group := by
  obtain ⟨params, libParams, rfl⟩ := register_cases h
  exact ⟨.of_store (List.Sublist.refl _) rfl rfl, rfl⟩

/-- What a declaration does to the groups that are listed already. -/
theorem leaves_declare {key : String} {definition : Option String} {kind : ParamKind}
    (h : (d.updateGroup fun g =>
      { g with param := some key, paramKind := some kind, params := definition }).register
        key kind = .ok f) : LeavesListed d f.place.freshGroup := by
  obtain ⟨hreg, hgroup⟩ := leaves_register h
  have htag := leaves_update d d.group (f := fun g =>
    { g with param := some key, paramKind := some kind, params := definition })
    fun hne => absurd rfl hne
  exact ((htag.trans rfl hreg).trans hgroup (leaves_placeGroup f f.group)).trans hgroup
    (leaves_freshGroup _)

/-- What it does to a table that it lists the current group in. -/
theorem Backs.declare (ht : d.Backs kinds t) (hg : d.doc.store.Holds d.group)
    (hd : d.current.isSome) {key : String} {definition : Option String} {kind : ParamKind}
    (hkind : kind ∈ kinds)
    (h : (d.updateGroup fun g =>
      { g with param := some key, paramKind := some kind, params := definition }).register
        key kind = .ok f) : f.place.freshGroup.Backs kinds (t.insert key d.group) := by
  have hleaves := leaves_declare h
  have hbacks := ht.of_leaves hleaves
  have hget : f.place.freshGroup.doc.store.get d.group =
      { d.doc.store.get d.group with
        param := some key, paramKind := some kind, params := definition } := by
    obtain ⟨params, libParams, rfl⟩ := register_cases h
    exact (GroupStore.get_insert_empty _ _).trans (GroupStore.get_update_self hg _)
  have horder : (t.groups ++ [d.group]).Sublist f.place.freshGroup.placed := by
    obtain ⟨params, libParams, rfl⟩ := register_cases h
    exact sublist_place hd ht.agrees.order ht.unlisted
  refine ⟨hbacks.agrees.insert hkind ?_ ?_ horder, fun i hi => ?_, fun hmem => ?_⟩
  · rw [hget]
  · rw [hget]
  · rcases ParamTable.mem_groups_insert.1 hi with hi | rfl
    · exact hbacks.held i hi
    · exact hleaves.holds _ hg
  · have hheld : f.doc.store.Holds d.group :=
      (leaves_register h).1.holds _ (GroupStore.holds_update.2 hg)
    rcases ParamTable.mem_groups_insert.1 hmem with hmem | hmem
    · exact hbacks.unlisted hmem
    · have hnext : f.doc.store.nextId = d.group := hmem
      exact f.doc.store.not_holds_nextId (hnext ▸ hheld)

theorem register_lists {key : String} {kind : ParamKind} (h : d.register key kind = .ok e) :
    kind = .plain ∧
        e = { d with doc := { d.doc with libParams := d.doc.libParams.insert key d.group } } ∨
      kind ∈ [ParamKind.table, ParamKind.list] ∧
        ∃ table, e = d.updateTable table (·.insert key d.group) := by
  cases kind with
  | plain => exact Or.inl ⟨rfl, (Except.ok.inj h).symm⟩
  | table | list =>
      cases htable : d.table with
      | none =>
          simp only [register, htable] at h
          cases h
      | some table =>
          simp only [register, htable] at h
          exact Or.inr ⟨by simp, table, (Except.ok.inj h).symm⟩

theorem Tabled.declare (h : Tabled d) (hd : d.current.isSome) {key : String}
    {definition : Option String} {kind : ParamKind}
    (hreg : (d.updateGroup fun g =>
      { g with param := some key, paramKind := some kind, params := definition }).register
        key kind = .ok f) : Tabled f.place.freshGroup := by
  have hleaves := leaves_declare hreg
  have hinsert {kinds : List ParamKind} {t : ParamTable} (ht : d.Backs kinds t)
      (hkind : kind ∈ kinds) := ht.declare h.group hd hkind hreg
  have hnext : f.place.freshGroup.doc.store.Holds f.place.freshGroup.group :=
    GroupStore.holds_insert.2 (Or.inr rfl)
  rcases register_lists hreg with ⟨rfl, rfl⟩ | ⟨hkind, table, rfl⟩
  · exact ⟨hnext, hinsert h.libParams (by simp), fun k t ht => (h.params k t ht).of_leaves hleaves⟩
  · refine ⟨hnext, h.libParams.of_leaves hleaves, fun k t ht => ?_⟩
    rcases mem_putKey ht with ht | rfl
    · exact (h.params k t ht).of_leaves hleaves
    · refine hinsert ?_ hkind
      show d.Backs _ ((d.doc.params.lookup table).getD {})
      cases hlookup : d.doc.params.lookup table with
      | none => exact .empty d _
      | some t => exact h.params table t (mem_of_lookup hlookup)

/-! ## Everything that is written -/

theorem Tabled.write (h : Tabled d) (hw : Write d e) : Tabled e := by
  cases hw with
  | remember =>
      exact h.of_leaves (.of_store (List.Sublist.refl _) rfl rfl) rfl fun _ _ => Or.inl
  | freshGroup => exact h.of_leaves (leaves_freshGroup d) rfl fun _ _ => Or.inl
  | addEntry i e =>
      exact h.of_leaves (leaves_update d i fun _ _ => ⟨rfl, rfl⟩) rfl fun _ _ => Or.inl
  | describe =>
      exact h.of_leaves (leaves_update d d.group fun hne => absurd rfl hne) rfl fun _ _ => Or.inl
  | placeGroup i => exact h.of_leaves (leaves_placeGroup d i) rfl fun _ _ => Or.inl
  | opened title name =>
      refine h.of_leaves (.of_store ?_ rfl rfl) rfl fun _ _ => Or.inl
      simp [placed]
  | listSpan s =>
      rw [Draft.listSpan]
      split <;> exact h.of_leaves (.of_store (List.Sublist.refl _) rfl rfl) rfl fun _ _ => Or.inl
  | clearTable key =>
      exact h.of_leaves (.of_store (List.Sublist.refl _) rfl rfl) rfl fun _ _ => mem_putKey
  | declare hd hreg => exact h.declare hd hreg

theorem Tabled.writes (h : Tabled d) (hw : Writes d e) : Tabled e := by
  induction hw with
  | refl => exact h
  | tail _ hw ih => exact ih.write hw

theorem Tabled.skips (h : Tabled d) (hs : Skips d e) : Tabled e := by
  obtain ⟨-, rfl⟩ := hs
  have hdrop : Tabled (d.updateGroup fun g => { g with entries := g.entries.dropLast }) :=
    h.of_leaves (leaves_update d d.group fun hne => absurd rfl hne) rfl fun _ _ => Or.inl
  exact hdrop.of_leaves (.of_store (List.Sublist.refl _) rfl rfl) rfl fun _ _ => Or.inl

theorem Tabled.written {declares : Prop} (h : Tabled d) (hw : Written declares d e) : Tabled e := by
  obtain ⟨d', hw, rfl | ⟨-, hs⟩⟩ := hw
  · exact h.writes hw
  · exact (h.writes hw).skips hs

end Draft

/-! ## Sources -/

namespace Reading

variable {r : Reader} {line : String} {g g' : Reading}

theorem Coherent.tabled_evaluate (hg : g.Coherent) (ht : g.draft.Tabled) {again : Bool}
    (h : r.evaluate line g = .ok (g', again)) : g'.draft.Tabled := by
  obtain ⟨d, hwritten, hwrites⟩ := hg.written_evaluate h
  exact (ht.written hwritten).writes hwrites

theorem Coherent.tabled_feed (hg : g.Coherent) (hr : r.grammar = Dialect.grammar)
    (ht : g.draft.Tabled) (h : r.feed g line = .ok g') : g'.Coherent ∧ g'.draft.Tabled := by
  refine evaluateAll_keeps (P := fun g => g.Coherent ∧ g.draft.Tabled) ?_ ?_ h
  · intro g₁ g₂ again hg₁ he
    exact ⟨(hg₁.1.evaluate hr he).1, hg₁.1.tabled_evaluate hg₁.2 he⟩
  · exact ⟨⟨hg.state, hg.fits⟩, ht⟩

theorem Coherent.tabled_feedAll (hg : g.Coherent) (hr : r.grammar = Dialect.grammar)
    (ht : g.draft.Tabled) {lines : List String} (h : r.feedAll g lines = .ok g') :
    g'.draft.Tabled := by
  suffices hall : g'.Coherent ∧ g'.draft.Tabled from hall.2
  refine feedAll_keeps (P := fun g => g.Coherent ∧ g.draft.Tabled) ?_ ⟨hg, ht⟩ h
  intro g₁ g₂ line hg₁ hf
  exact hg₁.1.tabled_feed hr hg₁.2 hf

end Reading

theorem firstDraft_tabled (settings : Settings) (name : String) (q : Request) :
    (firstDraft settings name q).Tabled where
  group := GroupStore.holds_insert.2 (Or.inr rfl)
  libParams := .empty _ _
  params := fun _ _ ht => by cases ht

theorem readingAfter_tabled {settings : Settings} {q : Request} {lines : List String} {g : Reading}
    (h : readingAfter settings q lines = .ok g) : g.draft.Tabled := by
  cases hq : q.named with
  | error f =>
      rw [readingAfter, hq] at h
      cases h
  | ok named =>
      obtain ⟨g₀, hg₀, -, hd, hreads⟩ := readingAfter_eq settings hq
      have hread := (hreads settings.maxReplay settings.trace lines).symm.trans h
      exact hg₀.tabled_feedAll rfl (hd ▸ firstDraft_tabled settings named.1 named.2) hread

theorem Draft.document_tables (d : Draft) :
    d.document.libParams = d.doc.libParams ∧ d.document.params = d.doc.params := by
  rw [document]
  simp only [Document.withFixmes, Document.withTodos]
  split <;> split <;> exact ⟨rfl, rfl⟩

namespace Document

/-- A table of a document: each of its groups is in one place of the sections, and all are
there in the order of the table. They document the parameters that the table lists, as
parameters of the given kinds, and a key finds the last of them that documents it. -/
structure Tabulates (doc : Document) (kinds : List ParamKind) (t : ParamTable) : Prop where
  once : ∀ i ∈ t.groups, (doc.sections.flatMap (·.groups)).count i = 1
  order : t.groups.Sublist (doc.sections.flatMap (·.groups))
  param : ∀ n : Nat, (t.at? n).map (fun i => (doc.store.get i).param) =
    (t.keys doc.store)[n]?.map some
  contains : ∀ key, t.contains key ↔ key ∈ t.keys doc.store
  last : ∀ key, t.contains key → ∃ before i after, t.groups = before ++ i :: after ∧
    t.find? key = some i ∧ (doc.store.get i).param = some key ∧
    ∀ j ∈ after, (doc.store.get j).param ≠ some key
  kind : ∀ i ∈ t.groups, ∃ kind ∈ kinds, (doc.store.get i).paramKind = some kind

theorem tabulates_of_agrees {doc : Document} {kinds : List ParamKind} {t : ParamTable}
    (h : t.Agrees kinds doc.store (doc.sections.flatMap (·.groups)))
    (hnodup : (doc.sections.flatMap (·.groups)).Nodup) : doc.Tabulates kinds t := by
  have hkeys : t.keys doc.store = t.entries.map (·.1) := by
    rw [ParamTable.keys, ParamTable.groups, List.map_map]
    refine List.map_congr_left fun x hx => ?_
    show (doc.store.get x.2).param.getD "" = x.1
    rw [h.param x.1 x.2 hx, Option.getD_some]
  refine ⟨fun i hi => ?_, h.order, fun n => ?_, fun key => ?_, fun key hc => ?_, h.kind⟩
  · rw [hnodup.count, if_pos (h.order.subset hi)]
  · have hat : t.at? n = t.groups[n]? := by
      have hn : ¬ (n : Int) < 0 := by omega
      simp [ParamTable.at?, hn]
    rw [hat, hkeys, ParamTable.groups, List.getElem?_map, List.getElem?_map]
    cases hx : t.entries[n]? with
    | none => rfl
    | some x =>
        obtain ⟨k, i⟩ := x
        exact congrArg some (h.param k i (List.mem_of_getElem? hx))
  · rw [hkeys, ParamTable.contains_iff, List.mem_map]
    constructor
    · rintro ⟨i, hi⟩
      exact ⟨(key, i), hi, rfl⟩
    · rintro ⟨⟨k, i⟩, hi, rfl⟩
      exact ⟨i, hi⟩
  · obtain ⟨i, hi⟩ := Option.isSome_iff_exists.1 hc
    obtain ⟨before, after, hsplit, hafter⟩ := ParamTable.find?_eq_some.1 hi
    refine ⟨before.map (·.2), i, after.map (·.2), ?_, hi, ?_, fun j hj => ?_⟩
    · rw [ParamTable.groups, hsplit, List.map_append, List.map_cons]
    · exact h.param key i (by rw [hsplit]; simp)
    · obtain ⟨⟨k, i'⟩, hx, rfl⟩ := List.mem_map.1 hj
      rw [h.param k i' (by rw [hsplit]; simp [hx])]
      exact fun hk => hafter _ hx (Option.some.inj hk)

/-- Every table of a document is one of it, the parameters of the library among them. -/
structure Tabulated (doc : Document) : Prop where
  libParams : doc.Tabulates [.plain] doc.libParams
  params : ∀ key t, (key, t) ∈ doc.params → doc.Tabulates [.table, .list] t

end Document

theorem finishReading_tabulated {settings : Settings} {q : Request} {lines : List String}
    {g : Reading} (h : readingAfter settings q lines = .ok g) : (finishReading g).1.Tabulated := by
  obtain ⟨hg, name, q', hsteps⟩ := readingAfter_steps h
  obtain ⟨hends, -⟩ := finishReading_wellFormed h
  have hplaced := ((firstDraft_placed settings name q').steps hsteps).steps hg.finish.1
  have htabled := (readingAfter_tabled h).writes g.writes_finish
  obtain ⟨hgroups, hget⟩ := hends.groups
  have hnodup := hgroups ▸ hplaced.lists.nodup
  have hagrees {kinds : List ParamKind} {t : ParamTable}
      (ht : (Reader.finish g).draft.Backs kinds t) :
      (finishReading g).1.Tabulates kinds t := by
    refine Document.tabulates_of_agrees (ht.agrees.mono ?_ fun i hi => ?_) hnodup
    · exact hgroups ▸ List.Sublist.refl _
    · rw [hget i (ht.held i hi)]
      exact ⟨rfl, rfl⟩
  have hlib : (finishReading g).1.libParams = (Reader.finish g).draft.doc.libParams := by
    rw [hends.document]
    exact (Draft.document_tables _).1
  have hparams : (finishReading g).1.params = (Reader.finish g).draft.doc.params := by
    rw [hends.document]
    exact (Draft.document_tables _).2
  refine ⟨hlib ▸ hagrees htabled.libParams, fun key t ht => hagrees (htabled.params key t ?_)⟩
  rwa [hparams] at ht

/-- Whichever way a source is given, if it can be parsed then all tables of its document
are tables of its sections. -/
theorem parsed_tabulated (settings : Settings) :
    (∀ q lines doc log, parseLines settings q lines = .ok (doc, log) → doc.Tabulated) ∧
    (∀ q text doc log, parse settings q text = .ok (doc, log) → doc.Tabulated) ∧
    ∀ path encoding bytes doc log, parseFile settings path encoding bytes = .ok (doc, log) →
      doc.Tabulated := by
  obtain ⟨hlines, htext, hfile⟩ := forall_parsed
    (P := fun _ _ doc => doc.Tabulated) finishReading_tabulated
  refine ⟨hlines, htext, fun path encoding bytes doc log h => ?_⟩
  obtain ⟨-, -, hdoc⟩ := hfile path encoding bytes doc log h
  exact hdoc

/-- A key of the library that is declared twice, and a list with one member. -/
theorem parsed_tabulated_twice :
    ∃ doc log, parse {} { name := some "d" }
        "// # T\n\n// a\nlib.x = 1\n// b\nlib.x = 2\nt = [ // doc\n'k'\n]" = .ok (doc, log) ∧
      doc.libParams.keys doc.store = ["x", "x"] ∧
      doc.libParams.find? "x" = doc.libParams.at? 1 ∧ doc.params.length = 1 ∧ doc.Tabulated := by
  have h : (parse {} { name := some "d" }
      "// # T\n\n// a\nlib.x = 1\n// b\nlib.x = 2\nt = [ // doc\n'k'\n]").toOption.map
      (fun x => (x.1.libParams.keys x.1.store,
        decide (x.1.libParams.find? "x" = x.1.libParams.at? 1), x.1.params.length)) =
      some (["x", "x"], true, 1) := by
    decide +kernel
  cases hp : parse {} { name := some "d" }
      "// # T\n\n// a\nlib.x = 1\n// b\nlib.x = 2\nt = [ // doc\n'k'\n]" with
  | error f =>
      rw [hp] at h
      cases h
  | ok x =>
      rw [hp] at h
      obtain ⟨hkeys, hrest⟩ := Prod.mk.inj (Option.some.inj h)
      obtain ⟨hfind, hparams⟩ := Prod.mk.inj hrest
      exact ⟨x.1, x.2, rfl, hkeys, of_decide_eq_true hfind, hparams,
        (parsed_tabulated {}).2.1 _ _ _ _ hp⟩

end DocComment
