import DocComment.Proofs.WellFormed

/-!
# What stays in a draft, and what is lost

A draft is only added to. What its sections list stays listed, in order, and what a group
shows stays shown, with one exception: a declaration may take a last paragraph away that
says `nodoc`. So entries stay if the last of them is no such paragraph
(`GroupStore.Shows`).

A group that is in no section yet may get into one in two ways. It is the current group,
and is placed; or source is being captured into it, and then it is placed when the capture
ends, provided that it holds anything. A group that is neither of the two has been
abandoned (`Draft.Abandoned`): it will never be in a section, and what it shows is lost.
`Draft.Grows` says all of that of two drafts. Every tame call makes a draft grow, so what
happens between two lines of a source, and between any of them and its end, is growth.
-/

namespace DocComment

open Relation

/-! ## Entries that stay -/

namespace GroupStore

/-- A group starts with the given entries, and no declaration will take the last of them
away. -/
def Shows (s : GroupStore) (i : GroupId) (kept : List Entry) : Prop :=
  kept <+: (s.get i).entries ∧ ¬ kept.getLast?.any Entry.isNodoc

theorem Shows.holds {s : GroupStore} {i : GroupId} {kept : List Entry} (h : s.Shows i kept)
    (hk : kept ≠ []) : s.Holds i := by
  by_cases hh : s.Holds i
  · exact hh
  · have hprefix := h.1
    have hget : s.get i = {} := by
      simp only [Holds, Nat.not_lt] at hh
      simp [get, hh]
    rw [hget] at hprefix
    exact absurd (List.prefix_nil.1 hprefix) hk

/-- What groups show in the first store they show in the second one. -/
def Keeps (s t : GroupStore) : Prop :=
  ∀ i kept, s.Shows i kept → t.Shows i kept

theorem Keeps.refl (s : GroupStore) : s.Keeps s :=
  fun _ _ => id

theorem Keeps.trans {s t u : GroupStore} (h : s.Keeps t) (h' : t.Keeps u) : s.Keeps u :=
  fun i kept hs => h' i kept (h i kept hs)

theorem keeps_insert_empty (s : GroupStore) : s.Keeps (s.insert {}) := by
  intro i kept h
  rw [Shows, get_insert_empty]
  exact h

theorem keeps_update (s : GroupStore) (i : GroupId) {f : Group → Group}
    (hf : ∀ g, g.entries <+: (f g).entries) : s.Keeps (s.update i f) := by
  intro j kept h
  rw [Shows]
  rcases s.get_update_cases i j f with hj | ⟨-, hj⟩
  · rw [hj]
    exact h
  · rw [hj]
    exact ⟨h.1.trans (hf _), h.2⟩

/-- Taking away a paragraph that says `nodoc` from the end of a group. -/
theorem keeps_dropLast (s : GroupStore) (i : GroupId)
    (hlast : (s.get i).entries.getLast?.any Entry.isNodoc) :
    s.Keeps (s.update i fun g => { g with entries := g.entries.dropLast }) := by
  intro j kept h
  rw [Shows]
  rcases s.get_update_cases i j fun g => { g with entries := g.entries.dropLast } with
    hj | ⟨rfl, hj⟩
  · rw [hj]
    exact h
  · rw [hj]
    refine ⟨?_, h.2⟩
    obtain ⟨rest, hrest⟩ := h.1
    -- all of the entries would end in `nodoc`, so what is kept is less than all
    have hne : rest ≠ [] := by
      rintro rfl
      rw [← hrest, List.append_nil] at hlast
      exact h.2 hlast
    show kept <+: (s.get j).entries.dropLast
    rw [← hrest, List.dropLast_append_of_ne_nil hne]
    exact List.prefix_append _ _

end GroupStore

namespace Draft

variable {clean : Prop} {d e f : Draft}

/-! ## Groups that are lost -/

/-- A group that nothing will place any more. -/
structure Abandoned (d : Draft) (i : GroupId) : Prop where
  held : d.doc.store.Holds i
  group : i ≠ d.group
  scratch : ∀ s, d.scratch = some s → i ≠ s.group
  unplaced : i ∉ d.placed

theorem Abandoned.of_same {i : GroupId} (h : d.Abandoned i) (hs : SamePlaces d e) :
    e.Abandoned i := by
  refine ⟨hs.holds i h.held, hs.group ▸ h.group, fun t ht => ?_, hs.placed ▸ h.unplaced⟩
  obtain ⟨s, hd, hg⟩ := hs.of_scratch_eq_some ht
  exact hg ▸ h.scratch s hd

theorem mem_placeGroup {i j : GroupId} (h : i ∈ (d.placeGroup j).placed) :
    i ∈ d.placed ∨ i = j := by
  rcases placeGroup_cases d j with hp | ⟨hp, -⟩
  · exact Or.inl (hp ▸ h)
  · rw [hp, List.mem_append, List.mem_singleton] at h
    exact h

theorem placed_prefix_placeGroup (d : Draft) (i : GroupId) :
    d.placed <+: (d.placeGroup i).placed := by
  rcases placeGroup_cases d i with hp | ⟨hp, -⟩
  · have hsame : (d.placeGroup i).placed = d.placed := congrArg placed hp
    exact hsame ▸ List.prefix_refl _
  · rw [hp]
    exact List.prefix_append _ _

theorem mem_placed_placeGroup (hd : d.current.isSome) (i : GroupId) :
    i ∈ (d.placeGroup i).placed := by
  obtain ⟨s, hs⟩ := Option.isSome_iff_exists.1 hd
  rcases placeGroup_cases d i with hp | ⟨hp, -⟩
  · have hplace : s.place i = s := by
      have hcurrent := congrArg Draft.current hp
      rw [placeGroup, hs] at hcurrent
      exact Option.some.inj hcurrent
    have hmem : i ∈ s.groups := by
      rw [Section.place] at hplace
      split at hplace
      · next hlast => exact List.mem_of_getLast? hlast
      · have hgroups := congrArg Section.groups hplace
        rw [← hgroups]
        simp
    rw [hp, placed, hs]
    simp [hmem]
  · rw [hp]
    simp

/-! ## Growth -/

/-- The second draft is the first one with more in it. -/
structure Grows (d e : Draft) : Prop where
  placed : d.placed <+: e.placed
  opened : d.current.isSome → e.current.isSome
  entries : d.doc.store.Keeps e.doc.store
  captured : d.current.isSome → ∀ s, d.scratch = some s → ∀ kept ≠ [],
    d.doc.store.Shows s.group kept →
      (∃ t, e.scratch = some t ∧ t.group = s.group) ∨ s.group ∈ e.placed
  abandoned : ∀ i, d.Abandoned i → e.Abandoned i

namespace Grows

theorem refl (d : Draft) : Grows d d :=
  ⟨List.prefix_refl _, id, .refl _, fun _ s hs _ _ _ => Or.inl ⟨s, hs, rfl⟩, fun _ => id⟩

theorem trans (h : Grows d e) (h' : Grows e f) : Grows d f := by
  refine ⟨h.placed.trans h'.placed, fun ho => h'.opened (h.opened ho),
    h.entries.trans h'.entries, fun ho s hs kept hk hshows => ?_,
    fun i hi => h'.abandoned i (h.abandoned i hi)⟩
  rcases h.captured ho s hs kept hk hshows with ⟨t, ht, hg⟩ | hmem
  · have hshows' := h.entries _ _ hshows
    rw [← hg] at hshows' ⊢
    exact h'.captured (h.opened ho) t ht kept hk hshows'
  · exact Or.inr (h'.placed.subset hmem)

theorem of_same (h : SamePlaces d e) (hk : d.doc.store.Keeps e.doc.store) : Grows d e := by
  refine ⟨h.placed ▸ List.prefix_refl _, fun ho => h.current ▸ ho, hk,
    fun _ s hs _ _ _ => Or.inl (h.scratch_eq_some hs), fun i hi => hi.of_same h⟩

/-- What is neither about groups nor about entries. -/
theorem of_rest (h : SamePlaces d e) (hs : e.doc.store = d.doc.store) : Grows d e :=
  .of_same h (hs ▸ .refl _)

end Grows

/-! ## Operations on groups -/

theorem grows_updateGroup (d : Draft) {f : Group → Group} (hf : ∀ g, g.entries <+: (f g).entries) :
    Grows d (d.updateGroup f) :=
  .of_same (same_updateGroup d f) (d.doc.store.keeps_update d.group hf)

theorem grows_addEntry (d : Draft) (e : Entry) : Grows d (d.addEntry e) :=
  .of_same (same_addEntry d e) (d.doc.store.keeps_update d.group fun _ => List.prefix_append _ _)

theorem grows_flush (d : Draft) : Grows d d.flush := by
  refine .of_same (same_flush d) ?_
  rw [flush]
  split
  · exact .refl _
  · next e _ => exact (grows_addEntry d e.settled).entries

theorem grows_freshGroup (d : Draft) : Grows d d.freshGroup := by
  refine ⟨List.prefix_refl _, id, d.doc.store.keeps_insert_empty,
    fun _ s hs _ _ _ => Or.inl ⟨s, hs, rfl⟩, fun i hi => ?_⟩
  refine ⟨GroupStore.holds_insert.2 (Or.inl hi.held), ?_, hi.scratch, hi.unplaced⟩
  rintro rfl
  exact d.doc.store.not_holds_nextId hi.held

theorem grows_place (d : Draft) : Grows d d.place := by
  refine ⟨placed_prefix_placeGroup d d.group, fun ho => ?_, .refl _,
    fun _ s hs _ _ _ => Or.inl ⟨s, hs, rfl⟩, fun i hi => ?_⟩
  · rw [place, placeGroup, Option.isSome_map]
    exact ho
  · refine ⟨hi.held, hi.group, hi.scratch, fun hmem => ?_⟩
    exact (mem_placeGroup hmem).elim hi.unplaced hi.group

theorem grows_openSection (d : Draft) (title : String) : Grows d (d.openSection title) := by
  refine (grows_flush d).trans ?_
  generalize hf : d.flush = d'
  have hp : (d.openSection title).placed = d'.placed ++ [d'.doc.store.nextId] := by
    simp [placed, openSection, Draft.freshGroup, Document.insertGroup, hf]
  have hstore : (d.openSection title).doc.store = d'.doc.store.insert {} := hf ▸ rfl
  have hscratch : (d.openSection title).scratch = d'.scratch := hf ▸ rfl
  have hgroup : (d.openSection title).group = d'.doc.store.nextId := hf ▸ rfl
  have hnew (i : GroupId) (hi : d'.doc.store.Holds i) : i ≠ d'.doc.store.nextId := by
    rintro rfl
    exact d'.doc.store.not_holds_nextId hi
  refine ⟨hp ▸ List.prefix_append _ _, fun _ => rfl, hstore ▸ d'.doc.store.keeps_insert_empty,
    fun _ s hs _ _ _ => Or.inl ⟨s, hscratch.trans hs, rfl⟩, fun i hi => ⟨?_, ?_, ?_, ?_⟩⟩
  · rw [hstore]
    exact GroupStore.holds_insert.2 (Or.inl hi.held)
  · rw [hgroup]
    exact hnew i hi.held
  · rw [hscratch]
    exact hi.scratch
  · rw [hp, List.mem_append, List.mem_singleton]
    exact fun hmem => hmem.elim hi.unplaced (hnew i hi.held)

theorem grows_ensureSection (d : Draft) (reason : Option Template) :
    Grows d (d.ensureSection reason).1 := by
  unfold ensureSection
  split
  · exact .refl d
  · exact (grows_openSection d _).trans (grows_addEntry _ _)

/-! ## Text, source and spans -/

theorem grows_appendText {text : String} {onNewLine : Bool}
    (h : d.appendText text onNewLine = .ok e) : Grows d e := by
  refine .of_rest (same_appendText h) ?_
  rcases appendText_cases h with ⟨-, rfl⟩ | ⟨p, p', -, -, rfl⟩ <;> rfl

theorem grows_pend (d : Draft) (p : Option Entry) : Grows d { d.flush with pending := p } :=
  (grows_flush d).trans (.of_rest ⟨rfl, rfl, rfl, rfl, rfl, rfl, fun _ => id⟩ rfl)

theorem grows_appendItem (d : Draft) (item : ListItem) : Grows d (d.appendItem item) := by
  rw [appendItem]
  split
  · exact .of_rest ⟨rfl, rfl, rfl, rfl, rfl, rfl, fun _ => id⟩ rfl
  · exact grows_pend d _

theorem grows_captureLine (d : Draft) (line : String) : Grows d (d.captureLine line) := by
  refine .of_rest (same_captureLine d line) ?_
  rw [captureLine]
  split <;> rfl

theorem keeps_attachCode (d : Draft) (s : Scratch) :
    d.doc.store.Keeps (d.attachCode s).doc.store := by
  rw [attachCode]
  split
  · exact d.doc.store.keeps_update s.group fun _ => List.prefix_append _ _
  · exact .refl _

theorem grows_splitCapture (d : Draft) : Grows d d.splitCapture := by
  refine .of_same (same_splitCapture d) ?_
  rw [splitCapture]
  split
  · exact .refl _
  · next s _ =>
      split
      · exact keeps_attachCode d s
      · exact .refl _

theorem grows_startCapture (d : Draft) : Grows d d.startCapture := by
  rw [startCapture]
  split
  · exact .refl d
  · next hs =>
      have hf := grows_freshGroup d
      refine ⟨hf.placed, hf.opened, hf.entries, fun _ s hd => ?_, fun i hi => ?_⟩
      · rw [hs] at hd
        cases hd
      · have ha := hf.abandoned i hi
        refine ⟨ha.held, ha.group, fun t ht => ?_, ha.unplaced⟩
        cases ht
        exact ha.group

/-- A capture that ends leaves no entries behind: its group is placed if it shows any. -/
theorem grows_finishCapture (d : Draft) : Grows d d.finishCapture := by
  cases hs : d.scratch with
  | none =>
      rw [finishCapture_of_none hs]
      exact .refl d
  | some s =>
      generalize hd' : { d with scratch := none }.attachCode s = d'
      have hsame : SamePlaces { d with scratch := none } d' := hd' ▸ same_attachCode _ s
      have hkeeps : d.doc.store.Keeps d'.doc.store :=
        hd' ▸ keeps_attachCode { d with scratch := none } s
      have hplaced : d'.placed = d.placed := hsame.placed
      have hcurrent : d'.current = d.current := hsame.current
      have habandoned (i : GroupId) (hi : d.Abandoned i) : d'.Abandoned i := by
        have hopen : Abandoned { d with scratch := none } i :=
          ⟨hi.held, hi.group, fun _ ht => (by cases ht), hi.unplaced⟩
        exact hopen.of_same hsame
      have he : d.finishCapture =
          if (d'.doc.store.get s.group).entries.isEmpty then d' else d'.placeGroup s.group := by
        unfold finishCapture
        simp only [hs, hd']
      rw [he]
      -- without entries it is not placed, but then it shows nothing that could be lost
      split
      · next hempty =>
          refine ⟨hplaced ▸ List.prefix_refl _, fun ho => hcurrent ▸ ho, hkeeps,
            fun _ t ht kept hk hshows => ?_, habandoned⟩
          rw [hs] at ht
          cases ht
          have hprefix := (hkeeps _ _ hshows).1
          rw [List.isEmpty_iff.1 hempty, List.prefix_nil] at hprefix
          exact absurd hprefix hk
      · have ho (ho : d.current.isSome) : d'.current.isSome := hcurrent ▸ ho
        refine ⟨hplaced ▸ placed_prefix_placeGroup d' s.group, fun hd => ?_, hkeeps,
          fun hd t ht _ _ _ => ?_, fun i hi => ?_⟩
        · rw [placeGroup, Option.isSome_map]
          exact ho hd
        · rw [hs] at ht
          cases ht
          exact Or.inr (mem_placed_placeGroup (ho hd) s.group)
        · have ha := habandoned i hi
          refine ⟨ha.held, ha.group, ha.scratch, fun hmem => ?_⟩
          exact (mem_placeGroup hmem).elim ha.unplaced (hi.scratch s hs)

theorem grows_addSpan (d : Draft) (kind : SpanKind) (text : String) :
    Grows d (d.addSpan kind text) := by
  refine (grows_splitCapture d).trans ?_
  rw [addSpan]
  split
  · exact grows_pend _ _
  · refine (grows_pend _ _).trans (.of_rest (same_listSpan _ _) ?_)
    rw [listSpan]
    split <;> rfl

theorem grows_addTodo (d : Draft) (text : String) : Grows d (d.addTodo text) :=
  (grows_addSpan d .todo text).trans (grows_flush _)

theorem grows_addKeyword {whole keyword text : String}
    (h : d.addKeyword whole keyword text = .ok e) : Grows d e := by
  rw [addKeyword] at h
  split at h
  · exact Except.ok.inj h ▸ grows_addSpan d _ text
  · exact grows_appendText h

/-! ## Headings, tables and declarations -/

theorem grows_addPlaced (d : Draft) (e : Entry) : Grows d (d.flush.addEntry e).place :=
  ((grows_flush d).trans (grows_addEntry _ _)).trans (grows_place _)

theorem grows_openTable (d : Draft) (key : String) (lead : Option String) :
    Grows d (d.openTable key lead) := by
  rw [openTable]
  refine Grows.trans ?_ ((grows_addPlaced _ _).trans (grows_freshGroup _))
  exact .of_rest ⟨rfl, rfl, rfl, rfl, rfl, rfl, fun _ => id⟩ rfl

theorem grows_closeTable (d : Draft) : Grows d d.closeTable :=
  (grows_addPlaced d _).trans (.of_rest ⟨rfl, rfl, rfl, rfl, rfl, rfl, fun _ => id⟩ rfl)

theorem grows_discardNodoc? (h : d.discardNodoc? = some e) : Grows d e := by
  refine .of_same (same_discardNodoc? h) ?_
  rw [discardNodoc?] at h
  split at h
  · exact Option.some.inj h ▸ .refl _
  · split at h
    · next hlast => exact Option.some.inj h ▸ d.doc.store.keeps_dropLast d.group hlast
    · cases h

theorem grows_placeAs (d : Draft) {f : Group → Group} (hf : ∀ g, g.entries <+: (f g).entries) :
    Grows d { (d.updateGroup f).place with functionGroup := some (d.updateGroup f).group } :=
  ((grows_updateGroup d hf).trans (grows_place _)).trans
    (.of_rest ⟨rfl, rfl, rfl, rfl, rfl, rfl, fun _ => id⟩ rfl)

theorem grows_declareFunction (d : Draft) (binding : Binding) (name : String)
    (params : Option String) : Grows d (d.declareFunction binding name params) := by
  rw [declareFunction]
  split
  · next hd => exact grows_discardNodoc? hd
  · exact grows_placeAs d fun _ => List.prefix_refl _

theorem grows_declareConstant (d : Draft) (name : String) : Grows d (d.declareConstant name) := by
  rw [declareConstant]
  split
  · next hd => exact grows_discardNodoc? hd
  · exact grows_placeAs d fun _ => List.prefix_refl _

theorem grows_declareParam {key : String} {definition : Option String} {kind : ParamKind}
    (h : d.declareParam key definition kind = .ok e) : Grows d e := by
  rcases declareParam_cases h with hd | ⟨-, f, hf, rfl⟩
  · exact grows_discardNodoc? hd
  · obtain ⟨params, libParams, rfl⟩ := register_cases hf
    have hu := grows_updateGroup d (f := fun g =>
      { g with param := some key, paramKind := some kind, params := definition })
      fun _ => List.prefix_refl _
    refine (hu.trans (Grows.of_rest ?_ ?_)).trans ((grows_place _).trans (grows_freshGroup _))
    · exact ⟨rfl, rfl, rfl, rfl, rfl, rfl, fun _ => id⟩
    · rfl

theorem grows_flagUndocumented (d : Draft) : Grows d d.flagUndocumented := by
  rw [flagUndocumented]
  split
  · exact grows_freshGroup d
  · exact (grows_freshGroup d).trans (grows_addTodo _ _)

theorem grows_setLoose (d : Draft) (enabled : Bool) : Grows d (d.setLoose enabled) := by
  rw [setLoose]
  split
  · refine Grows.trans ?_ (grows_addTodo _ _)
    exact .of_rest ⟨rfl, rfl, rfl, rfl, rfl, rfl, fun _ => id⟩ rfl
  · exact .of_rest ⟨rfl, rfl, rfl, rfl, rfl, rfl, fun _ => id⟩ rfl

theorem grows_applyDirective {option : String} {enabled : Bool} {line : Option Int}
    (h : d.applyDirective option enabled line = .ok e) : Grows d e := by
  rw [applyDirective] at h
  split at h
  · split at h
    · split at h
      · refine Except.ok.inj h ▸ ?_
        have hd : Grows d { d with doc := { d.doc with literate := enabled } } :=
          .of_rest ⟨rfl, rfl, rfl, rfl, rfl, rfl, fun _ => id⟩ rfl
        rw [setLiterate]
        split
        · exact hd.trans (grows_startCapture _)
        · exact hd.trans (grows_finishCapture _)
      · exact Except.ok.inj h ▸ grows_setLoose d enabled
    · cases h
  · cases h

/-! ## Calls -/

/-- Every call that names no group makes a draft grow. -/
theorem Grows.called (h : Called clean d e) : Grows d e := by
  obtain ⟨call, ht, h⟩ := h
  cases call with
  | openSection => exact Except.ok.inj h ▸ grows_openSection d _
  | ensureSection => exact run_ensureSection h ▸ grows_ensureSection d none
  | freshGroup => exact Except.ok.inj h ▸ grows_freshGroup d
  | place => exact Except.ok.inj h ▸ grows_place d
  | placeGroup => cases ht.unnamed
  | addHeading | addTableStart | addTableEnd => exact Except.ok.inj h ▸ grows_addPlaced d _
  | declareFunction => exact Except.ok.inj h ▸ grows_declareFunction d _ _ _
  | declareConstant => exact Except.ok.inj h ▸ grows_declareConstant d _
  | declareParam => exact grows_declareParam h
  | openTable => exact Except.ok.inj h ▸ grows_openTable d _ _
  | closeTable => exact Except.ok.inj h ▸ grows_closeTable d
  | addKeyword => exact grows_addKeyword h
  | addTodo => exact Except.ok.inj h ▸ grows_addTodo d _
  | appendText => exact grows_appendText h
  | appendItem => exact Except.ok.inj h ▸ grows_appendItem d _
  | openCode | openFormula => exact Except.ok.inj h ▸ grows_pend d _
  | flush => exact Except.ok.inj h ▸ grows_flush d
  | closeComment =>
      exact Except.ok.inj h ▸
        (grows_flush d).trans (.of_rest ⟨rfl, rfl, rfl, rfl, rfl, rfl, fun _ => id⟩ rfl)
  | applyDirective => exact grows_applyDirective h
  | flagUndocumented => exact Except.ok.inj h ▸ grows_flagUndocumented d
  | startCapture => exact Except.ok.inj h ▸ grows_startCapture d
  | captureLine => exact Except.ok.inj h ▸ grows_captureLine d _
  | finishCapture => exact Except.ok.inj h ▸ grows_finishCapture d
  | setStyle | setBack | leaveFunction =>
      exact Except.ok.inj h ▸ .of_rest ⟨rfl, rfl, rfl, rfl, rfl, rfl, fun _ => id⟩ rfl

theorem Grows.calls (h : ReflTransGen (Called clean) d e) : Grows d e := by
  induction h with
  | refl => exact .refl d
  | tail _ hc ih => exact ih.trans (.called hc)

end Draft

/-! ## Readings -/

theorem State.grows_crossTo (s s' : State) (d : Draft) : Draft.Grows d (s.crossTo s' d) :=
  have h : ReflTransGen (Draft.Called False) d (s.crossTo s' d) := Draft.called_crossTo s s' d
  .calls h

namespace Reading

open Reader

/-- A reading as a source leads to it. -/
structure Tracked (g : Reading) : Prop extends Coherent g where
  placed : g.draft.Placed

variable {r : Reader} {line : String} {g g' : Reading}

theorem Tracked.evaluate (hg : g.Tracked) (hr : r.grammar = Dialect.grammar) {again : Bool}
    (h : r.evaluate line g = .ok (g', again)) : g'.Tracked ∧ Draft.Grows g.draft g'.draft := by
  obtain ⟨hc, hs⟩ := hg.toCoherent.evaluate hr h
  have hcalls : ReflTransGen (Draft.Called False) g.draft g'.draft :=
    (hg.called hr False.elim False.elim h).1
  exact ⟨⟨hc, hg.placed.steps hs⟩, .calls hcalls⟩

theorem Tracked.evaluateAll (hg : g.Tracked) (hr : r.grammar = Dialect.grammar) {left : Nat}
    (h : r.evaluateAll line left g = .ok g') : g'.Tracked ∧ Draft.Grows g.draft g'.draft := by
  refine evaluateAll_keeps (P := fun g' => g'.Tracked ∧ Draft.Grows g.draft g'.draft) ?_
    ⟨hg, .refl _⟩ h
  intro g₁ g₂ again hg₁ he
  obtain ⟨ht, hgrows⟩ := hg₁.1.evaluate hr he
  exact ⟨ht, hg₁.2.trans hgrows⟩

theorem Tracked.nextLine (hg : g.Tracked) (n : Nat) : Tracked { g with line := n } :=
  ⟨⟨hg.state, hg.fits⟩, hg.placed⟩

theorem Tracked.feed (hg : g.Tracked) (hr : r.grammar = Dialect.grammar)
    (h : r.feed g line = .ok g') : g'.Tracked ∧ Draft.Grows g.draft g'.draft :=
  (hg.nextLine (g.line + 1)).evaluateAll hr h

theorem Tracked.feedAll (hg : g.Tracked) (hr : r.grammar = Dialect.grammar) {lines : List String}
    (h : r.feedAll g lines = .ok g') : g'.Tracked ∧ Draft.Grows g.draft g'.draft := by
  refine feedAll_keeps (P := fun g' => g'.Tracked ∧ Draft.Grows g.draft g'.draft) ?_
    ⟨hg, .refl _⟩ h
  intro g₁ g₂ line hg₁ hf
  obtain ⟨ht, hgrows⟩ := hg₁.1.feed hr hf
  exact ⟨ht, hg₁.2.trans hgrows⟩

theorem grows_finish (g : Reading) : Draft.Grows g.draft (Reader.finish g).draft :=
  have h : ReflTransGen (Draft.Called False) g.draft (Reader.finish g).draft := called_finish g
  .calls h

end Reading

theorem readingAfter_tracked {settings : Settings} {q : Request} {lines : List String}
    {g : Reading} (h : readingAfter settings q lines = .ok g) : g.Tracked := by
  obtain ⟨hg, name, q', hsteps⟩ := readingAfter_steps h
  exact ⟨hg, (firstDraft_placed settings name q').steps hsteps⟩

/-- A line of a source is evaluated in a reading, for the first time or again. -/
def MetIn (settings : Settings) (q : Request) (before : List String) (line : String)
    (g : Reading) : Prop :=
  ∃ g₀, readingAfter settings q before = .ok g₀ ∧
    ReflTransGen (settings.reader.Again (Text.dropLineEnd line)) { g₀ with line := g₀.line + 1 } g

namespace MetIn

variable {settings : Settings} {q : Request} {before after : List String} {line : String}
  {g last : Reading}

theorem tracked (h : MetIn settings q before line g) : g.Tracked := by
  obtain ⟨g₀, hg₀, hagain⟩ := h
  induction hagain with
  | refl => exact (readingAfter_tracked hg₀).nextLine _
  | tail _ hs ih => exact (ih.evaluate rfl hs).1

/-- Where the source can be read, the line is evaluated to its end and the lines after it
are read. -/
theorem goes_on (h : MetIn settings q before line g)
    (hlast : readingAfter settings q (before ++ line :: after) = .ok last) :
    ∃ left g₁, settings.reader.evaluateAll (Text.dropLineEnd line) left g = .ok g₁ ∧
      readingAfter settings q (before ++ [line]) = .ok g₁ ∧
      settings.reader.feedAll g₁ after = .ok last := by
  obtain ⟨g₀, hg₀, hagain⟩ := h
  rw [readingAfter_append, hg₀] at hlast
  have hlast : settings.reader.feedAll g₀ (line :: after) = .ok last := hlast
  rw [Reader.feedAll_cons] at hlast
  obtain ⟨g₁, hfeed, hlast⟩ := ok_of_bind hlast
  obtain ⟨left, hleft⟩ := Reader.evaluateAll_of_again hagain hfeed
  exact ⟨left, g₁, hleft, readingAfter_concat hg₀ hfeed, hlast⟩

end MetIn

end DocComment
