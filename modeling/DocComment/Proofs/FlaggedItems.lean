import DocComment.Proofs.Documentation

/-!
# Items without documentation

In strict mode an item without documentation is flagged: its group starts with a span that
says so. Whether an item counts as documented is decided by the place of its declaration
alone. One in source that does not come right after a comment is always flagged
(`Declaration.Made.entries_of_flagging`). One within a comment or right after it is not,
unless the comment belongs to the section above: such a declaration trusts the comment,
whatever it says.

So there is one way for an item to end up with nothing at all, and `Document.FlagsItems`
says that it is the only one: its declaration trusted a comment in which nothing was
written by then (`Declaration.Unwritten`). For a parameter this is exactly when it
happens, as nothing is added to its group later.
-/

namespace DocComment

open Text Relation Reader

/-! ## Strict mode -/

/-- Loose mode is off from the start to the end of a source. -/
def Settings.Strict (settings : Settings) (q : Request) (lines : List String) : Prop :=
  ∀ n ≤ lines.length, ∀ g ∈ (readingAfter settings q (lines.take n)).toOption,
    g.draft.doc.loose = false

instance (settings : Settings) (q : Request) (lines : List String) :
    Decidable (settings.Strict q lines) :=
  inferInstanceAs (Decidable (∀ n ≤ lines.length, _))

theorem Draft.entries_flagUndocumented {d : Draft} (hloose : d.doc.loose = false)
    (hp : d.pending = none) (hstyle : d.nextStyle = none) (hs : d.scratch = none) :
    (d.flagUndocumented.doc.store.get d.flagUndocumented.group).entries = [.span missingSpan] := by
  have hflag : d.flagUndocumented = d.freshGroup.addTodo missingDocumentation := by
    rw [flagUndocumented]
    exact if_neg (hloose ▸ Bool.false_ne_true)
  have hheld : (d.doc.store.insert {}).Holds d.doc.store.nextId :=
    GroupStore.holds_insert.2 (Or.inr rfl)
  rw [hflag, addTodo_missing (by exact hp) (by exact hstyle) (by exact hs)]
  show (((d.doc.store.insert {}).update d.doc.store.nextId _).get d.doc.store.nextId).entries = _
  rw [GroupStore.get_update_self hheld, GroupStore.get_insert_nextId]
  rfl

namespace Reading

variable {r : Reader} {g g' : Reading}

theorem Tracked.strict_declarations (hg : g.Tracked) (hr : r.grammar = Dialect.grammar)
    {lines : List String} (hf : r.feedAll g lines = .ok g')
    (hstrict : ∀ n ≤ lines.length, ∀ k, r.feedAll g (lines.take n) = .ok k →
      k.draft.doc.loose = false) :
    ∀ x ∈ r.declarations g lines, x.draft.doc.loose = false := by
  induction lines generalizing g with
  | nil => exact fun x hx => (List.not_mem_nil hx).elim
  | cons line lines ih =>
      have hloose : g.draft.doc.loose = false := hstrict 0 (Nat.zero_le _) g rfl
      rw [feedAll_cons] at hf
      obtain ⟨g₁, hline, hf⟩ := ok_of_bind hf
      intro x hx
      rw [declarations, hline, List.mem_append, Option.mem_toList] at hx
      rcases hx with hx | hx
      · obtain ⟨g₂, e, hfinal, hmakes, -⟩ := hg.declared_feed hr hline hx
        exact (hmakes.before.loose.trans hfinal.calm.loose).trans hloose
      · refine ih (hg.feed hr hline).1 hf (fun n hn k hk => ?_) x hx
        refine hstrict (n + 1) (Nat.succ_le_succ hn) k ?_
        rw [List.take_succ_cons, feedAll_cons, hline]
        exact hk

end Reading

theorem Settings.Strict.declarations {settings : Settings} {q : Request} {lines : List String}
    (hstrict : settings.Strict q lines) {g : Reading} (h : readingAfter settings q lines = .ok g) :
    ∀ x ∈ declarationsOf settings q lines, x.draft.doc.loose = false := by
  obtain ⟨g₀, named, -, -, hg₀, hreads, hds⟩ := exists_firstReading h
  rw [hds]
  refine hg₀.strict_declarations rfl ((hreads lines).symm.trans h) fun n hn k hk => ?_
  refine hstrict n hn k ?_
  rw [hreads, hk]
  rfl

/-! ## Declarations -/

namespace Action

/-- The actions that take the comment for the documentation of the item. -/
def trusting : List Action :=
  [declareFunction, documentedFunction, documentedGlobalFunction, documentedLibParam]

theorem mem_of_function {a : Action} (h : a.itemKind? = some (.function, none)) :
    a ∈ trusting ∨ a ∈ flagging := by
  cases a <;> first | decide | cases h

theorem mem_of_plainParam {a : Action} (h : a.itemKind? = some (.param, some .plain)) :
    a = documentedLibParam ∨ a ∈ flagging := by
  cases a <;> first | decide | cases h

theorem before_of_flagging {a : Action} (h : a ∈ flagging) : a.before = .source := by
  cases a <;> first | rfl | exact absurd h (by decide)

end Action

namespace Declaration.Made

variable {x : Declaration}

/-- In strict mode an item that is taken for undocumented is flagged. -/
theorem entries_of_flagging (h : x.Made) (hloose : x.draft.doc.loose = false)
    (ha : x.action ∈ Action.flagging) : x.entries = [.span missingSpan] := by
  obtain ⟨g, line, e, hg, hmakes⟩ := h
  obtain ⟨m, hm, hrule, hoff⟩ := hmakes.offered
  have hsource : g.draft.InSource := by
    have hfits := hg.before_fits hm hrule
    rwa [Action.before_of_flagging ha] at hfits
  obtain ⟨hs, hdraft⟩ := Action.offered?_of_flagging ha hoff
  rw [entries, group, hdraft]
  exact Draft.entries_flagUndocumented (hmakes.before.loose.symm.trans hloose) hsource.settled
    hsource.style hs

theorem itemKind (h : x.Made) : x.action.itemKind? = some (x.item.kind, x.item.paramKind) := by
  obtain ⟨g, line, e, -, hmakes⟩ := h
  obtain ⟨m, -, -, hoff⟩ := hmakes.offered
  exact Action.itemKind?_of_offered? hoff

end Declaration.Made

/-! ## Documents -/

/-- Which items of a document have no entries. -/
structure Document.FlagsItems (doc : Document) (ds : List Declaration) : Prop where
  /-- An item that is taken for undocumented is flagged. -/
  flagged : ∀ x ∈ ds, x.action ∈ Action.flagging →
    [.span missingSpan] <+: (doc.store.get x.group).entries
  /-- A function without entries was declared by trust in a comment in which nothing was
  written. -/
  function : ∀ i, (doc.store.get i).function.isSome → (doc.store.get i).entries = [] →
    ∃ x ∈ ds, x.group = i ∧ x.item.kind = .function ∧ x.action ∈ Action.trusting ∧ x.Unwritten
  /-- For a parameter of the library this is exactly when it has none. -/
  param : ∀ i, (doc.store.get i).paramKind = some .plain →
    ((doc.store.get i).entries = [] ↔
      ∃ x ∈ ds, x.group = i ∧ x.action = .documentedLibParam ∧ x.Unwritten)

/-- An item without entries was not flagged, and nothing was written about it. -/
theorem finishReading_unwritten {settings : Settings} {q : Request} {lines : List String}
    {g : Reading} (hstrict : settings.Strict q lines) (h : readingAfter settings q lines = .ok g)
    {x : Declaration} (hx : x ∈ declarationsOf settings q lines)
    (hempty : ((finishReading g).1.store.get x.group).entries = []) :
    x.action ∉ Action.flagging ∧ x.Unwritten := by
  have hunwritten : x.Unwritten :=
    Classical.byContradiction fun hno => (finishReading_tells h x hx).told hno hempty
  refine ⟨fun ha => ?_, hunwritten⟩
  have hentries := (made_of_mem h x hx).entries_of_flagging (hstrict.declarations h x hx) ha
  rw [hunwritten.1] at hentries
  cases hentries

theorem finishReading_flagsItems {settings : Settings} {q : Request} {lines : List String}
    {g : Reading} (hstrict : settings.Strict q lines) (h : readingAfter settings q lines = .ok g) :
    (finishReading g).1.FlagsItems (declarationsOf settings q lines) := by
  obtain ⟨hitems, hkinds, -⟩ := finishReading_documents h
  have htells := finishReading_tells h
  have hmade := made_of_mem h
  refine ⟨fun x hx ha => ?_, fun i hf hempty => ?_, fun i hp => ⟨fun hempty => ?_, ?_⟩⟩
  · have hentries := (hmade x hx).entries_of_flagging (hstrict.declarations h x hx) ha
    exact hentries ▸ (htells x hx).shown
  · obtain ⟨f, hf⟩ := Option.isSome_iff_exists.1 hf
    have hitem : ((finishReading g).1.store.get i).item .function = some f := hf
    rw [hitems, Option.map_eq_some_iff] at hitem
    obtain ⟨x, hx, -⟩ := hitem
    obtain ⟨hmem, rfl, hk⟩ := Declaration.mem_of_last? hx
    obtain ⟨hno, hunwritten⟩ := finishReading_unwritten hstrict h hmem hempty
    have hkind : x.action.itemKind? = some (.function, none) := by
      rw [(hmade x hmem).itemKind, hk]
      cases hitem : x.item <;> rw [hitem] at hk <;> first | rfl | cases hk
    exact ⟨x, hmem, rfl, hk, (Action.mem_of_function hkind).resolve_right hno, hunwritten⟩
  · rw [hkinds, Option.bind_eq_some_iff] at hp
    obtain ⟨x, hx, hplain⟩ := hp
    obtain ⟨hmem, rfl, hk⟩ := Declaration.mem_of_last? hx
    obtain ⟨hno, hunwritten⟩ := finishReading_unwritten hstrict h hmem hempty
    have hkind := (hmade x hmem).itemKind
    rw [hk, hplain] at hkind
    exact ⟨x, hmem, rfl, (Action.mem_of_plainParam hkind).resolve_right hno, hunwritten⟩
  · rintro ⟨x, hx, rfl, ha, hunwritten⟩
    have hkind := (hmade x hx).itemKind
    rw [ha] at hkind
    rw [(htells x hx).param (Prod.mk.inj (Option.some.inj hkind)).1.symm]
    exact hunwritten.1

/-- Whichever way a source is given: if loose mode is off from start to end, then every
item without documentation is flagged, unless its declaration trusts a comment in which
nothing is written. -/
theorem parsed_flagsItems (settings : Settings) :
    (∀ q lines doc log, settings.Strict q lines →
      parseLines settings q lines = .ok (doc, log) →
        doc.FlagsItems (declarationsOf settings q lines)) ∧
    (∀ q text doc log, settings.Strict q (Text.lines text) →
      parse settings q text = .ok (doc, log) →
        doc.FlagsItems (declarationsOf settings q (Text.lines text))) ∧
    ∀ path encoding bytes doc log,
      (∀ bs, bytes = some bs →
        settings.Strict { file := some path } (Source.readFile encoding bs).lines) →
      parseFile settings path encoding bytes = .ok (doc, log) →
        ∃ bs, bytes = some bs ∧ doc.FlagsItems
          (declarationsOf settings { file := some path } (Source.readFile encoding bs).lines) := by
  obtain ⟨hlines, htext, hfile⟩ := forall_parsed
    (P := fun q lines doc => settings.Strict q lines →
      doc.FlagsItems (declarationsOf settings q lines)) fun h hstrict =>
        finishReading_flagsItems hstrict h
  refine ⟨fun q lines doc log hstrict h => hlines q lines doc log h hstrict,
    fun q text doc log hstrict h => htext q text doc log h hstrict,
    fun path encoding bytes doc log hstrict h => ?_⟩
  obtain ⟨bs, hbytes, hdoc⟩ := hfile path encoding bytes doc log h
  exact ⟨bs, hbytes, hdoc (hstrict bs hbytes)⟩

/-- A function without a comment, a parameter after one, and a function within one. -/
theorem parsed_flagsItems_function :
    ∃ doc log, parse {} { name := some "d" }
        "// # T\n\nlib.f = function(a)\n// x\nlib.p = 1\n\n// y\n// lib.g = function()\n" =
          .ok (doc, log) ∧
      ({} : Settings).Strict { name := some "d" } (Text.lines
        "// # T\n\nlib.f = function(a)\n// x\nlib.p = 1\n\n// y\n// lib.g = function()\n") ∧
      (declarationsOf {} { name := some "d" } (Text.lines
        "// # T\n\nlib.f = function(a)\n// x\nlib.p = 1\n\n// y\n// lib.g = function()\n")).map
          (·.action) = [.undocumentedFunction, .documentedLibParam, .declareFunction] ∧
      doc.FlagsItems (declarationsOf {} { name := some "d" } (Text.lines
        "// # T\n\nlib.f = function(a)\n// x\nlib.p = 1\n\n// y\n// lib.g = function()\n")) := by
  generalize hsource :
    "// # T\n\nlib.f = function(a)\n// x\nlib.p = 1\n\n// y\n// lib.g = function()\n" = source
  have hstrict : ({} : Settings).Strict { name := some "d" } (Text.lines source) := by
    subst hsource
    decide +kernel
  cases hp : parse {} { name := some "d" } source with
  | error f =>
      have hok : (parse {} { name := some "d" } source).toOption.isSome := by
        subst hsource
        decide +kernel
      rw [hp] at hok
      cases hok
  | ok x =>
      refine ⟨x.1, x.2, rfl, hstrict, ?_, (parsed_flagsItems {}).2.1 _ _ _ _ hstrict hp⟩
      subst hsource
      decide +kernel

/-- A function after an empty comment is not flagged. -/
theorem empty_comment_trusted :
    ∃ doc log, parse {} { name := some "d" } "// # T\n\n/*\n*/\nlib.f = function() \x7b\n" =
        .ok (doc, log) ∧
      ({} : Settings).Strict { name := some "d" }
        (Text.lines "// # T\n\n/*\n*/\nlib.f = function() \x7b\n") ∧
      ∃ i ∈ doc.sections.flatMap (·.groups), (doc.store.get i).function = some "f" ∧
        (doc.store.get i).entries = [] := by
  have hstrict : ({} : Settings).Strict { name := some "d" }
      (Text.lines "// # T\n\n/*\n*/\nlib.f = function() \x7b\n") := by
    decide +kernel
  have hempty : (parse {} { name := some "d" }
      "// # T\n\n/*\n*/\nlib.f = function() \x7b\n").toOption.any fun x =>
        (x.1.sections.flatMap (·.groups)).any fun i =>
          (x.1.store.get i).function = some "f" ∧ (x.1.store.get i).entries = [] := by
    decide +kernel
  cases hp : parse {} { name := some "d" }
      "// # T\n\n/*\n*/\nlib.f = function() \x7b\n" with
  | error f =>
      rw [hp] at hempty
      cases hempty
  | ok x =>
      rw [hp] at hempty
      obtain ⟨i, hi, hitem⟩ := List.any_eq_true.1 hempty
      exact ⟨x.1, x.2, rfl, hstrict, i, hi, of_decide_eq_true hitem⟩

end DocComment
