import DocComment.Proofs.Declarations

/-!
# Which items a document shows

A group has room for one item of each kind, so a declaration is shown until a later one of
the same kind is made on the same group. `Reading.Documents` ties a reading to the
declarations before it: the last one for a group and a kind is the one that the group
shows, and all of their groups are in sections.

Groups are seldom declared on twice. A parameter leaves its group behind, and an item
without a comment gets a new group. What is left are the declarations within a comment,
and a function right after it: those are made on the group of the comment, whether or not
it documents something already. A parameter of the library after a comment is not declared
then, so of these items it is the source that is lost.
-/

namespace DocComment

open Text Relation Reader

namespace Declaration

/-- The item is one of the kind, and documented by the group. -/
def Sets (x : Declaration) (i : GroupId) (k : ItemKind) : Prop :=
  x.group = i ∧ x.item.kind = k

instance (x : Declaration) (i : GroupId) (k : ItemKind) : Decidable (x.Sets i k) :=
  inferInstanceAs (Decidable (_ ∧ _))

/-- The second item takes the place of the first one. -/
structure Replaces (y x : Declaration) : Prop where
  group : y.group = x.group
  kind : y.item.kind = x.item.kind
  name : y.item.name ≠ x.item.name

/-- The last declaration of an item of the kind on the group. -/
def last? (ds : List Declaration) (i : GroupId) (k : ItemKind) : Option Declaration :=
  ds.reverse.find? fun x => x.Sets i k

/-- The actions that may declare an item on a group that documents one of its kind
already. -/
def replacing : List Action :=
  [.declareFunction, .declareConstant, .documentedFunction, .documentedGlobalFunction]

theorem last?_concat (ds : List Declaration) (x : Declaration) (i : GroupId) (k : ItemKind) :
    last? (ds ++ [x]) i k = if x.Sets i k then some x else last? ds i k := by
  rw [last?, List.reverse_append, List.reverse_singleton, List.singleton_append, List.find?_cons]
  split
  · next h => rw [if_pos (of_decide_eq_true h)]
  · next h => rw [if_neg (of_decide_eq_false h), last?]

theorem mem_of_last? {ds : List Declaration} {i : GroupId} {k : ItemKind} {x : Declaration}
    (h : last? ds i k = some x) : x ∈ ds ∧ x.Sets i k := by
  have hsets := List.find?_some h
  exact ⟨List.mem_reverse.1 (List.mem_of_find?_eq_some h), of_decide_eq_true hsets⟩

/-- What the last declaration says for some group is said by one that no later one
replaces. -/
theorem exists_last?_iff {ds : List Declaration} {k : ItemKind} {n : String} :
    (∃ i, (last? ds i k).map (·.item.name) = some n) ↔
      ∃ pre x post, ds = pre ++ x :: post ∧ x.item.kind = k ∧ x.item.name = n ∧
        ∀ y ∈ post, ¬ y.Replaces x := by
  constructor
  · rintro ⟨i, h⟩
    obtain ⟨x, hx, hn⟩ := Option.map_eq_some_iff.1 h
    obtain ⟨hsets, later, earlier, hds, hlater⟩ := List.find?_eq_some_iff_append.1 hx
    obtain ⟨hgroup, hkind⟩ := of_decide_eq_true hsets
    refine ⟨earlier.reverse, x, later.reverse, ?_, hkind, hn, fun y hy hreplaces => ?_⟩
    · rw [← List.reverse_reverse ds, hds]
      simp
    · have hno := hlater y (List.mem_reverse.1 hy)
      rw [Bool.not_eq_true', decide_eq_false_iff_not] at hno
      exact hno ⟨hreplaces.group.trans hgroup, hreplaces.kind.trans hkind⟩
  · rintro ⟨pre, x, post, rfl, hkind, hn, hlater⟩
    refine ⟨x.group, ?_⟩
    have hx : decide (x.Sets x.group k) = true := decide_eq_true ⟨rfl, hkind⟩
    rw [last?, List.reverse_append, List.reverse_cons, List.append_assoc, List.find?_append]
    cases hy : post.reverse.find? fun y => decide (y.Sets x.group k) with
    | none => simp [hx, hn]
    | some y =>
        have hsets := List.find?_some hy
        obtain ⟨hgroup, hkind'⟩ := of_decide_eq_true hsets
        have hmem := List.mem_reverse.1 (List.mem_of_find?_eq_some hy)
        have hname : y.item.name = x.item.name := Classical.byContradiction fun hne =>
          hlater y hmem ⟨hgroup, hkind'.trans hkind.symm, hne⟩
        simp [hname, hn]

end Declaration

namespace Reading

open Draft Declaration

/-- The reading shows the declarations that were made before it. -/
structure Documents (ds : List Declaration) (g : Reading) : Prop where
  items : ∀ i k, (g.draft.doc.store.get i).item k = (last? ds i k).map (·.item.name)
  kinds : ∀ i, (g.draft.doc.store.get i).paramKind = (last? ds i .param).bind (·.item.paramKind)
  placed : ∀ x ∈ ds, x.group ∈ g.draft.placed
  left : ∀ x ∈ ds, x.item.kind = .param → x.group.index < g.draft.group.index
  replaced : ds.Pairwise fun x y => y.Replaces x → y.item.kind ≠ .param ∧ y.action ∈ replacing

variable {r : Reader} {line : String} {g g' : Reading} {ds : List Declaration}

theorem Documents.of_sameItems (h : g.Documents ds) (hg : g.Tracked)
    (hs : SameItems g.draft g'.draft) (hgrows : Grows g.draft g'.draft) : g'.Documents ds where
  items := fun i k => (Group.item_of_tag (hs.tags i) k).trans (h.items i k)
  kinds := fun i => (Group.paramKind_of_tag (hs.tags i)).trans (h.kinds i)
  placed := fun x hx => hgrows.placed.subset (h.placed x hx)
  left := fun x hx hk => Nat.lt_of_lt_of_le (h.left x hx hk) (hs.group hg.placed.group).2
  replaced := h.replaced

/-- An item that takes the place of another one is a function or a constant, and was
declared within a comment or right after one. -/
theorem Documents.replacing (h : g.Documents ds) (hg : g.Tracked) {x : Declaration} {e : Draft}
    (hx : g.Makes line x e) {y : Declaration} (hy : y ∈ ds) (hreplaces : x.Replaces y) :
    x.item.kind ≠ .param ∧ x.action ∈ replacing := by
  obtain ⟨m, -, -, hoff⟩ := hx.offered
  have hheld : g.draft.doc.store.Holds x.group :=
    hreplaces.group ▸ hg.placed.lists.held _ (h.placed y hy)
  have hkind : x.item.kind ≠ .param := by
    intro hk
    have hlt := h.left y hy (hreplaces.kind ▸ hk)
    rw [← hreplaces.group] at hlt
    have hle : g.draft.group.index ≤ x.group.index := (hx.before.group hg.placed.group).2
    omega
  have hitem := Action.itemKind?_of_offered? hoff
  refine ⟨hkind, ?_⟩
  cases ha : x.action with
  | declareFunction | declareConstant | documentedFunction | documentedGlobalFunction => decide
  | undocumentedFunction =>
      -- the group would have to be a new one
      rw [ha, Action.offered?] at hoff
      split at hoff
      · cases hoff
      · obtain ⟨hdraft, -⟩ := Prod.mk.inj (Option.some.inj hoff)
        rw [Declaration.group, ← hdraft, flagUndocumented_group] at hheld
        exact absurd hheld g.draft.doc.store.not_holds_nextId
  | documentedLibParam | undocumentedParam | tableParam | listParam | sameLineParam =>
      rw [ha] at hitem
      exact absurd (Prod.mk.inj (Option.some.inj hitem)).1.symm hkind
  | _ =>
      rw [ha] at hitem
      cases hitem

theorem Documents.makes (h : g.Documents ds) (hg : g.Tracked) {x : Declaration} {e : Draft}
    (hx : g.Makes line x e) (hsilent : Silent e g'.draft)
    (hplaced : g.draft.placed ⊆ g'.draft.placed) : g'.Documents (ds ++ [x]) where
  items := by
    intro i k
    rw [Group.item_of_tag (hsilent.tags i), Group.item_of_tag (hx.declared.tags i), last?_concat]
    have hold : (x.draft.doc.store.get i).item k = (last? ds i k).map (·.item.name) :=
      (Group.item_of_tag (hx.before.tags i) k).trans (h.items i k)
    by_cases hi : i = x.draft.group
    · rw [if_pos hi, Group.item_mark]
      by_cases hk : x.item.kind = k
      · rw [if_pos hk, if_pos ⟨hi.symm, hk⟩]
        rfl
      · rw [if_neg hk, if_neg fun hs => hk hs.2, hold]
    · rw [if_neg hi, if_neg fun hs => hi hs.1.symm, hold]
  kinds := by
    intro i
    rw [Group.paramKind_of_tag (hsilent.tags i), Group.paramKind_of_tag (hx.declared.tags i),
      last?_concat]
    have hold : (x.draft.doc.store.get i).paramKind =
        (last? ds i .param).bind (·.item.paramKind) :=
      (Group.paramKind_of_tag (hx.before.tags i)).trans (h.kinds i)
    by_cases hi : i = x.draft.group
    · rw [if_pos hi, Group.paramKind_mark]
      by_cases hk : x.item.kind = .param
      · rw [if_pos hk, if_pos ⟨hi.symm, hk⟩]
        rfl
      · rw [if_neg hk, if_neg fun hs => hk hs.2, hold]
    · rw [if_neg hi, if_neg fun hs => hi hs.1.symm, hold]
  placed := by
    intro y hy
    rcases List.mem_append.1 hy with hy | hy
    · exact hplaced (h.placed y hy)
    · rw [List.mem_singleton.1 hy]
      exact hsilent.grows.placed.subset (hx.declared.placed hx.opened)
  left := by
    intro y hy hk
    have hgroup := hx.before.group hg.placed.group
    rcases List.mem_append.1 hy with hy | hy
    · have hlt := h.left y hy hk
      by_cases hkind : x.item.kind = .param
      · obtain ⟨-, hheld, hlt'⟩ := hx.declared.param hkind
        have hle := (hsilent.group hheld).2
        omega
      · obtain ⟨-, hsame⟩ := hx.declared.other hkind
        have hle := (hsilent.group (hsame ▸ hx.declared.held _ hgroup.1)).2
        rw [hsame] at hle
        omega
    · obtain rfl := List.mem_singleton.1 hy
      obtain ⟨-, hheld, hlt⟩ := hx.declared.param hk
      exact Nat.lt_of_lt_of_le hlt (hsilent.group hheld).2
  replaced := by
    rw [List.pairwise_append]
    refine ⟨h.replaced, List.pairwise_singleton _ _, fun y hy z hz hreplaces => ?_⟩
    obtain rfl := List.mem_singleton.1 hz
    exact h.replacing hg hx hy hreplaces

theorem Documents.feed (h : g.Documents ds) (hg : g.Tracked) (hr : r.grammar = Dialect.grammar)
    (hf : r.feed g line = .ok g') : g'.Documents (ds ++ (r.declared? g line).toList) := by
  have hgrows := (hg.feed hr hf).2
  cases hx : r.declared? g line with
  | none =>
      rw [Option.toList_none, List.append_nil]
      exact h.of_sameItems hg (hg.sameItems_feed hr hf hx) hgrows
  | some x =>
      obtain ⟨g₁, e, hfinal, hmakes, hsilent⟩ := hg.declared_feed hr hf hx
      have h₁ : g₁.Documents ds := h.of_sameItems hg hfinal.calm.toSameItems hfinal.grows
      refine h₁.makes hfinal.toTracked hmakes hsilent ?_
      exact ((hfinal.toTracked.evaluate hr hfinal.evaluate).2).placed.subset

theorem Documents.feedAll (h : g.Documents ds) (hg : g.Tracked) (hr : r.grammar = Dialect.grammar)
    {lines : List String} (hf : r.feedAll g lines = .ok g') :
    g'.Documents (ds ++ r.declarations g lines) :=
  hg.feedAll_declares (P := Documents) (fun hg h hf => h.feed hg hr hf) hr h hf

theorem Documents.finish (h : g.Documents ds) (hg : g.Tracked) :
    (Reader.finish g).Documents ds :=
  h.of_sameItems hg hg.sameItems_finish g.grows_finish

end Reading

/-! ## Documents -/

/-- What a document shows of the declarations of its source. -/
structure Document.ShowsItems (doc : Document) (ds : List Declaration) : Prop where
  /-- An item is shown if and only if some declaration of it is not replaced later. -/
  shown : ∀ k n, (∃ i ∈ doc.sections.flatMap (·.groups), (doc.store.get i).item k = some n) ↔
    ∃ pre x post, ds = pre ++ x :: post ∧ x.item.kind = k ∧ x.item.name = n ∧
      ∀ y ∈ post, ¬ y.Replaces x
  /-- Only functions and constants are replaced, and only by declarations within a comment
  and by functions right after one. -/
  replaced : ds.Pairwise fun x y =>
    y.Replaces x → y.item.kind ≠ .param ∧ y.action ∈ Declaration.replacing
  /-- So no parameter is lost. -/
  params : ∀ x ∈ ds, x.item.kind = .param →
    ∃ i ∈ doc.sections.flatMap (·.groups), (doc.store.get i).param = some x.item.name

theorem Document.ShowsItems.of_last {doc : Document} {ds : List Declaration}
    (hitems : ∀ i k, (doc.store.get i).item k = (Declaration.last? ds i k).map (·.item.name))
    (hplaced : ∀ x ∈ ds, x.group ∈ doc.sections.flatMap (·.groups))
    (hreplaced : ds.Pairwise fun x y =>
      y.Replaces x → y.item.kind ≠ .param ∧ y.action ∈ Declaration.replacing) :
    doc.ShowsItems ds := by
  have hshown (k : ItemKind) (n : String) :
      (∃ i ∈ doc.sections.flatMap (·.groups), (doc.store.get i).item k = some n) ↔
        ∃ i, (Declaration.last? ds i k).map (·.item.name) = some n := by
    constructor
    · rintro ⟨i, -, h⟩
      exact ⟨i, hitems i k ▸ h⟩
    · rintro ⟨i, h⟩
      obtain ⟨x, hx, -⟩ := Option.map_eq_some_iff.1 h
      obtain ⟨hmem, rfl, -⟩ := Declaration.mem_of_last? hx
      exact ⟨x.group, hplaced x hmem, (hitems _ k).trans h⟩
  refine ⟨fun k n => (hshown k n).trans Declaration.exists_last?_iff, hreplaced, ?_⟩
  intro x hx hk
  obtain ⟨pre, post, rfl⟩ := List.append_of_mem hx
  have hlater := (List.pairwise_append.1 hreplaced).2.1
  refine (hshown .param x.item.name).2 (Declaration.exists_last?_iff.2
    ⟨pre, x, post, rfl, hk, rfl, fun y hy hreplaces => ?_⟩)
  exact ((List.pairwise_cons.1 hlater).1 y hy hreplaces).1 (hreplaces.kind.trans hk)

theorem readingAfter_documents {settings : Settings} {q : Request} {lines : List String}
    {g : Reading} (h : readingAfter settings q lines = .ok g) :
    g.Documents (declarationsOf settings q lines) := by
  obtain ⟨g₀, named, -, hdraft, hg₀, hreads, hds⟩ := exists_firstReading h
  have hempty (i : GroupId) : g₀.draft.doc.store.get i = {} := by
    have hgroups : g₀.draft.doc.store.groups = #[{}] := by
      rw [hdraft]
      rfl
    obtain ⟨n⟩ := i
    rw [GroupStore.get, hgroups]
    cases n <;> rfl
  have h₀ : g₀.Documents [] :=
    ⟨fun i k => by rw [hempty]; cases k <;> rfl, fun i => by rw [hempty]; rfl,
      fun _ hx => (by cases hx), fun _ hx => (by cases hx), .nil⟩
  rw [hds]
  exact h₀.feedAll hg₀ rfl ((hreads lines).symm.trans h)

/-- At its end the document of a source documents what was declared. -/
theorem finishReading_documents {settings : Settings} {q : Request} {lines : List String}
    {g : Reading} (h : readingAfter settings q lines = .ok g) :
    (∀ i k, ((finishReading g).1.store.get i).item k =
        (Declaration.last? (declarationsOf settings q lines) i k).map (·.item.name)) ∧
      (∀ i, ((finishReading g).1.store.get i).paramKind =
        (Declaration.last? (declarationsOf settings q lines) i .param).bind (·.item.paramKind)) ∧
      ∀ x ∈ declarationsOf settings q lines,
        x.group ∈ (finishReading g).1.sections.flatMap (·.groups) := by
  have hd := (readingAfter_documents h).finish (readingAfter_tracked h)
  have hends := (finishReading_wellFormed h).1
  refine ⟨fun i k => ?_, fun i => ?_, fun x hx => hends.groups.1 ▸ hd.placed x hx⟩
  · exact (Group.item_of_tag (hends.tags i) k).trans (hd.items i k)
  · exact (Group.paramKind_of_tag (hends.tags i)).trans (hd.kinds i)

theorem finishReading_showsItems {settings : Settings} {q : Request} {lines : List String}
    {g : Reading} (h : readingAfter settings q lines = .ok g) :
    (finishReading g).1.ShowsItems (declarationsOf settings q lines) := by
  obtain ⟨hitems, -, hplaced⟩ := finishReading_documents h
  exact .of_last hitems hplaced (readingAfter_documents h).replaced

/-- Whichever way a source is given: a declaration that `nodoc` does not keep out is shown
by the document, under its name, unless a later one takes its place. That takes a
declaration within the same comment, or a function right after it; parameters are never
lost. -/
theorem parsed_showsItems (settings : Settings) :
    (∀ q lines doc log, parseLines settings q lines = .ok (doc, log) →
      doc.ShowsItems (declarationsOf settings q lines)) ∧
    (∀ q text doc log, parse settings q text = .ok (doc, log) →
      doc.ShowsItems (declarationsOf settings q (Text.lines text))) ∧
    ∀ path encoding bytes doc log, parseFile settings path encoding bytes = .ok (doc, log) →
      ∃ bs, bytes = some bs ∧ doc.ShowsItems
        (declarationsOf settings { file := some path } (Source.readFile encoding bs).lines) :=
  forall_parsed finishReading_showsItems

/-- A function without a comment and a parameter after one. -/
theorem parsed_showsItems_function :
    ∃ doc log, parse {} { name := some "d" } "// # T\n\nlib.f = function(a)\n// x\nlib.p = 1\n" =
        .ok (doc, log) ∧
      (declarationsOf {} { name := some "d" }
        (Text.lines "// # T\n\nlib.f = function(a)\n// x\nlib.p = 1\n")).map (·.item.name) =
          ["f", "p"] ∧
      doc.ShowsItems (declarationsOf {} { name := some "d" }
        (Text.lines "// # T\n\nlib.f = function(a)\n// x\nlib.p = 1\n")) := by
  cases hp : parse {} { name := some "d" } "// # T\n\nlib.f = function(a)\n// x\nlib.p = 1\n" with
  | error f =>
      have hok : (parse {} { name := some "d" }
        "// # T\n\nlib.f = function(a)\n// x\nlib.p = 1\n").toOption.isSome := by decide +kernel
      rw [hp] at hok
      cases hok
  | ok x => exact ⟨x.1, x.2, rfl, by decide +kernel, (parsed_showsItems {}).2.1 _ _ _ _ hp⟩

/-- A function that is declared within a comment is not shown if another one follows the
comment. -/
theorem declared_item_lost :
    ∃ doc log, parse {} { name := some "d" }
        "// # T\n\n// lib.a = function()\nlib.b = function() \x7b\n" = .ok (doc, log) ∧
      (∃ x ∈ declarationsOf {} { name := some "d" }
          (Text.lines "// # T\n\n// lib.a = function()\nlib.b = function() \x7b\n"),
        x.item.kind = .function ∧ x.item.name = "a") ∧
      ∀ i ∈ doc.sections.flatMap (·.groups), (doc.store.get i).function ≠ some "a" := by
  have hdeclared : (declarationsOf {} { name := some "d" }
      (Text.lines "// # T\n\n// lib.a = function()\nlib.b = function() \x7b\n")).any fun x =>
        x.item.kind = .function ∧ x.item.name = "a" := by
    decide +kernel
  have hlost : (parse {} { name := some "d" }
      "// # T\n\n// lib.a = function()\nlib.b = function() \x7b\n").toOption.any fun x =>
        (x.1.sections.flatMap (·.groups)).all fun i => (x.1.store.get i).function ≠ some "a" := by
    decide +kernel
  cases hp : parse {} { name := some "d" }
      "// # T\n\n// lib.a = function()\nlib.b = function() \x7b\n" with
  | error f =>
      rw [hp] at hlost
      cases hlost
  | ok x =>
      rw [hp] at hlost
      obtain ⟨y, hy, hitem⟩ := List.any_eq_true.1 hdeclared
      refine ⟨x.1, x.2, rfl, ⟨y, hy, of_decide_eq_true hitem⟩, fun i hi => ?_⟩
      exact of_decide_eq_true (List.all_eq_true.1 hlost i hi)

end DocComment
