import DocComment.Proofs.Declarations

/-!
# Items that are kept out

A paragraph `nodoc` at the end of the documentation keeps the next item out, and goes away
with that. The documentation ends in the pending entry, and without one in the last entry
of the current group (`Draft.lastWritten?`). `Draft.HeedsNodoc` says what is asked of a
declaration: if the documentation ends in `nodoc` then the draft loses that paragraph and
is the same otherwise, and if not then the item is let in and nothing that has been
written is lost.

A declaration looks for `nodoc` in both places, and takes away what is pending in either
case. So there is one case in which it does something else: a `nodoc` has been put into
the group, and another entry is pending (`Draft.CoversNodoc`). The item is kept out then,
and the pending entry is lost with the `nodoc`. In every other case `nodoc` is heeded
(`declare_heedsNodoc_iff`).

Declarations are asked about wherever a reader has come to, and after any further calls,
as an action may settle what is pending or start a group before it declares something. All
that has to be known of such a draft is that its current group is in the store and that,
once there is a section, one is open (`Draft.Anchored`).
-/

namespace DocComment

open Text Relation Reader

namespace Draft

variable {clean : Prop} {d e : Draft} {x : Item}

/-! ## The end of the documentation -/

/-- The entry that the documentation ends in: the pending one, and without one the last of
the current group. -/
def lastWritten? (d : Draft) : Option Entry :=
  d.pending.or d.currentGroup.entries.getLast?

/-- The draft without the entry that its documentation ends in. -/
def withoutLastWritten (d : Draft) : Draft :=
  if d.pending.isSome then { d with pending := none }
  else d.updateGroup fun g => { g with entries := g.entries.dropLast }

/-- Another entry is pending than `nodoc`, and the current group ends in `nodoc`. -/
def CoversNodoc (d : Draft) : Prop :=
  d.pending.any (!·.isNodoc) ∧ d.currentGroup.entries.getLast?.any Entry.isNodoc

instance (d : Draft) : Decidable d.CoversNodoc :=
  inferInstanceAs (Decidable (_ ∧ _))

/-- The second draft is the first one after an item was let in: every entry is still
there, also the pending one, and the group that was current is tagged. If there is a
section, that group is the last one of it. -/
structure LetsIn (d : Draft) (x : Item) (e : Draft) : Prop extends Declared d x e where
  pending : e.pending = d.pending
  last : d.hasSection → ∃ s s', d.current = some s ∧ e.current = some s' ∧ s.Extends s' ∧
    s'.groups.getLast? = some d.group

/-- The second draft is the first one after a declaration that heeds `nodoc`. -/
def HeedsNodoc (d : Draft) (x : Item) (e : Draft) : Prop :=
  if d.lastWritten?.any Entry.isNodoc then e = d.withoutLastWritten ∧ ¬ d.LetsIn x e
  else d.LetsIn x e

/-! ## Where `nodoc` is looked for -/

theorem lastWritten?_of_pending {p : Entry} (hp : d.pending = some p) :
    d.lastWritten? = some p := by
  rw [lastWritten?, hp, Option.some_or]

theorem lastWritten?_of_settled (hp : d.pending = none) :
    d.lastWritten? = d.currentGroup.entries.getLast? := by
  rw [lastWritten?, hp, Option.none_or]

theorem withoutLastWritten_of_pending {p : Entry} (hp : d.pending = some p) :
    d.withoutLastWritten = { d with pending := none } :=
  if_pos (hp ▸ rfl)

theorem withoutLastWritten_of_settled (hp : d.pending = none) :
    d.withoutLastWritten = d.updateGroup fun g => { g with entries := g.entries.dropLast } :=
  if_neg (by simp [hp])

theorem discardNodoc?_of_ends (h : d.lastWritten?.any Entry.isNodoc) :
    d.discardNodoc? = some d.withoutLastWritten := by
  cases hp : d.pending with
  | some p =>
      rw [lastWritten?_of_pending hp] at h
      rw [discardNodoc?, withoutLastWritten_of_pending hp, hp, if_pos h]
  | none =>
      rw [lastWritten?_of_settled hp] at h
      have hsame (f : Group → Group) :
          { d.updateGroup f with pending := none } = d.updateGroup f := by
        rw [updateGroup, ← hp]
      rw [discardNodoc?, withoutLastWritten_of_settled hp, hp, Option.any_none,
        if_neg Bool.false_ne_true, if_pos h, hsame]

theorem CoversNodoc.exists_pending (h : d.CoversNodoc) : ∃ p, d.pending = some p ∧ ¬ p.isNodoc := by
  obtain ⟨p, hp, hno⟩ := (Option.any_eq_true _ _).1 h.1
  exact ⟨p, hp, by simpa using hno⟩

theorem discardNodoc?_of_covers (h : d.CoversNodoc) :
    d.discardNodoc? = some
      { d.updateGroup fun g => { g with entries := g.entries.dropLast } with pending := none } := by
  obtain ⟨p, hp, hno⟩ := h.exists_pending
  rw [discardNodoc?, hp, Option.any_some, if_neg hno, if_pos h.2]

theorem discardNodoc?_of_not_ends (h : ¬ d.lastWritten?.any Entry.isNodoc) (hc : ¬ d.CoversNodoc) :
    d.discardNodoc? = none := by
  rw [discardNodoc?_eq_none]
  cases hp : d.pending with
  | some p =>
      rw [lastWritten?_of_pending hp] at h
      exact ⟨h, fun hlast => hc ⟨by simpa [hp] using h, hlast⟩⟩
  | none =>
      rw [lastWritten?_of_settled hp] at h
      exact ⟨Bool.false_ne_true, h⟩

/-- What is covered is not what the documentation ends in. -/
theorem CoversNodoc.not_ends (h : d.CoversNodoc) : ¬ d.lastWritten?.any Entry.isNodoc := by
  obtain ⟨p, hp, hno⟩ := h.exists_pending
  rw [lastWritten?_of_pending hp]
  exact hno

/-! ## Declarations -/

theorem declare_of_discard (h : d.discardNodoc? = some e) : d.declare x = .ok e := by
  cases x with
  | function => rw [declare, declareFunction, h]
  | constant => rw [declare, declareConstant, h]
  | param => rw [declare, declareParam, h]

theorem declare_ok (hx : ∀ kind, x.paramKind = some kind → kind = .plain ∨ d.table.isSome) :
    ∃ e, d.declare x = .ok e := by
  cases x with
  | function => exact ⟨_, rfl⟩
  | constant => exact ⟨_, rfl⟩
  | param key definition kind => exact declareParam_ok (hx kind rfl) key definition

/-- A declaration leaves the pending entry where it is, and puts the current group into
the open section. -/
theorem declare_place (hkeep : d.discardNodoc? = none) (h : d.declare x = .ok e) :
    e.pending = d.pending ∧ e.current = d.place.current := by
  cases x with
  | function binding name params =>
      rw [declare, declareFunction, hkeep] at h
      cases h
      exact ⟨rfl, rfl⟩
  | constant name =>
      rw [declare, declareConstant, hkeep] at h
      cases h
      exact ⟨rfl, rfl⟩
  | param key definition kind =>
      rcases declareParam_cases h with hskip | ⟨-, f, hf, rfl⟩
      · cases hkeep.symm.trans hskip
      · obtain ⟨params, libParams, rfl⟩ := register_cases hf
        exact ⟨rfl, rfl⟩

/-! ## Every draft of a reading -/

/-- The current group of a draft is in the store, and one of its sections is open if it
has any. -/
structure Anchored (d : Draft) : Prop where
  group : d.doc.store.Holds d.group
  opened : d.hasSection → d.current.isSome

namespace Anchored

theorem of_same (h : d.Anchored) (hgroup : e.doc.store.Holds e.group)
    (hcurrent : e.current.map (·.name) = d.current.map (·.name))
    (hsections : e.doc.sections = d.doc.sections) : e.Anchored := by
  have hopen : e.current.isSome = d.current.isSome := by
    simpa using congrArg Option.isSome hcurrent
  refine ⟨hgroup, fun hs => hopen ▸ h.opened ?_⟩
  rw [hasSection, hopen, hsections] at hs
  exact hs

theorem of_quiet (h : d.Anchored) (hq : Quiet d e) : e.Anchored :=
  h.of_same (hq.group h.group).1 hq.current hq.sections

theorem openSection (h : d.Anchored) (title : String) : (d.openSection title).Anchored :=
  ⟨((calm_openSection d title).group h.group).1, fun _ => rfl⟩

theorem ensureSection (h : d.Anchored) : (d.ensureSection none).1.Anchored := by
  rw [Draft.ensureSection]
  split
  · exact h
  · exact (h.openSection _).of_quiet (quiet_addEntry _ _)

theorem declare (h : d.Anchored) (hd : d.declare x = .ok e) : e.Anchored := by
  rcases declare_cases h.group hd with hskip | ⟨-, hdeclared⟩
  · exact h.of_quiet (quiet_discardNodoc? hskip)
  · refine h.of_same ?_ hdeclared.current hdeclared.sections
    by_cases hk : x.kind = .param
    · exact (hdeclared.param hk).2.1
    · exact (hdeclared.other hk).2 ▸ hdeclared.held _ h.group

theorem applyDirective (h : d.Anchored) {option : String} {enabled : Bool} {line : Option Int}
    (hd : d.applyDirective option enabled line = .ok e) : e.Anchored := by
  rw [Draft.applyDirective] at hd
  split at hd
  · split at hd
    · split at hd
      · exact Except.ok.inj hd ▸ h.of_quiet (quiet_setLiterate d _)
      · have hswitched : Anchored { d with doc := { d.doc with loose := enabled } } :=
          ⟨h.group, h.opened⟩
        exact Except.ok.inj hd ▸ hswitched.of_quiet (quiet_setLoose d enabled)
    · cases hd
  · cases hd

theorem called (h : d.Anchored) (hc : Called clean d e) : e.Anchored := by
  obtain ⟨call, ht, hrun⟩ := hc
  cases call with
  | openSection title => exact Except.ok.inj hrun ▸ h.openSection title
  | ensureSection => exact run_ensureSection hrun ▸ h.ensureSection
  | freshGroup => exact Except.ok.inj hrun ▸ h.of_quiet (quiet_freshGroup d)
  | place => exact Except.ok.inj hrun ▸ h.of_quiet (quiet_placeGroup d d.group)
  | placeGroup => cases ht.unnamed
  | addHeading | addTableStart | addTableEnd =>
      exact Except.ok.inj hrun ▸ h.of_quiet (quiet_addPlaced d _)
  | declareFunction binding name params => exact h.declare (x := .function binding name params) hrun
  | declareConstant name => exact h.declare (x := .constant name) hrun
  | declareParam key definition kind => exact h.declare (x := .param key definition kind) hrun
  | openTable => exact Except.ok.inj hrun ▸ h.of_quiet (quiet_openTable d _ _)
  | closeTable => exact Except.ok.inj hrun ▸ h.of_quiet (quiet_closeTable d)
  | addKeyword => exact h.of_quiet (quiet_addKeyword hrun)
  | addTodo => exact Except.ok.inj hrun ▸ h.of_quiet (quiet_addTodo d _)
  | appendText => exact h.of_quiet (quiet_appendText hrun)
  | appendItem => exact Except.ok.inj hrun ▸ h.of_quiet (quiet_appendItem d _)
  | openCode | openFormula => exact Except.ok.inj hrun ▸ h.of_quiet (quiet_pend d _)
  | flush => exact Except.ok.inj hrun ▸ h.of_quiet (quiet_flush d)
  | closeComment => exact Except.ok.inj hrun ▸ h.of_quiet (quiet_closeComment d)
  | applyDirective => exact h.applyDirective hrun
  | flagUndocumented => exact Except.ok.inj hrun ▸ h.of_quiet (quiet_flagUndocumented d)
  | startCapture => exact Except.ok.inj hrun ▸ h.of_quiet (quiet_startCapture d)
  | captureLine => exact Except.ok.inj hrun ▸ h.of_quiet (quiet_captureLine d _)
  | finishCapture => exact Except.ok.inj hrun ▸ h.of_quiet (quiet_finishCapture d)
  | setStyle | setBack | leaveFunction => exact Except.ok.inj hrun ▸ ⟨h.group, h.opened⟩

theorem calls (h : d.Anchored) (hc : ReflTransGen (Called clean) d e) : e.Anchored := by
  induction hc with
  | refl => exact h
  | tail _ hs ih => exact ih.called hs

end Anchored

/-! ## What a declaration does -/

theorem Anchored.letsIn (h : d.Anchored) (hkeep : d.discardNodoc? = none)
    (hd : d.declare x = .ok e) : d.LetsIn x e := by
  rcases declare_cases h.group hd with hskip | ⟨-, hdeclared⟩
  · cases hkeep.symm.trans hskip
  · obtain ⟨hpending, hcurrent⟩ := declare_place hkeep hd
    refine ⟨hdeclared, hpending, fun ho => ?_⟩
    obtain ⟨s, hs⟩ := Option.isSome_iff_exists.1 (h.opened ho)
    refine ⟨s, s.place d.group, hs, ?_, s.extends_place d.group, s.getLast?_place d.group⟩
    rw [hcurrent, place, placeGroup, hs, Option.map_some]

/-- A draft that has lost an entry did not let anything in. -/
theorem not_letsIn_withoutLastWritten (hd : d.doc.store.Holds d.group)
    (h : d.lastWritten?.any Entry.isNodoc) : ¬ d.LetsIn x d.withoutLastWritten := by
  intro hin
  cases hp : d.pending with
  | some p =>
      have hsame := hin.pending
      rw [withoutLastWritten_of_pending hp, hp] at hsame
      cases hsame
  | none =>
      have hsame := hin.entries d.group
      rw [lastWritten?_of_settled hp] at h
      rw [withoutLastWritten_of_settled hp] at hsame
      have hdrop : d.currentGroup.entries.dropLast = d.currentGroup.entries :=
        (congrArg Group.entries (GroupStore.get_update_self hd _)).symm.trans hsame
      have hlength := congrArg List.length hdrop
      rw [List.length_dropLast] at hlength
      have hnil : d.currentGroup.entries = [] := List.eq_nil_of_length_eq_zero (by omega)
      rw [hnil] at h
      cases h

theorem heedsNodoc_of_ends (h : d.Anchored) (hends : d.lastWritten?.any Entry.isNodoc) :
    d.HeedsNodoc x d.withoutLastWritten := by
  rw [HeedsNodoc, if_pos hends]
  exact ⟨rfl, not_letsIn_withoutLastWritten h.group hends⟩

theorem not_heedsNodoc_of_covers (hc : d.CoversNodoc) (hp : e.pending = none) :
    ¬ d.HeedsNodoc x e := by
  rw [HeedsNodoc, if_neg hc.not_ends]
  intro hin
  obtain ⟨p, hsome, -⟩ := hc.exists_pending
  cases hp.symm.trans (hin.pending.trans hsome)

end Draft

/-! ## Wherever a reader has come to -/

theorem Reader.Reaches.called {r : Reader} (hr : r.grammar = Dialect.grammar) {g₀ g : Reading}
    (h₀ : g₀.Coherent) (h : r.Reaches g₀ g) :
    ReflTransGen (Draft.Called False) g₀.draft g.draft := by
  induction h with
  | start => exact .refl
  | read h hf ih =>
      exact ih.trans ((h.coherent hr h₀).called_feed hr False.elim False.elim hf).1
  | @amid g g' line h hs ih =>
      have hnext : Reading.Coherent { g with line := g.line + 1 } :=
        ⟨(h.coherent hr h₀).state, (h.coherent hr h₀).fits⟩
      refine ih.trans ?_
      clear ih
      induction hs with
      | refl => exact .refl
      | tail hs he ih =>
          exact ih.trans ((hnext.of_again hr hs).1.called hr False.elim False.elim he).1

theorem Draft.anchored_start {doc : Document} (hdoc : doc.sections = []) (file : Option String)
    (language : String) (options : List String) :
    (Draft.start doc file language options).Anchored := by
  refine ⟨GroupStore.holds_insert.2 (Or.inr rfl), fun ho => ?_⟩
  have hno : (Draft.start doc file language options).hasSection = false := by
    rw [Draft.hasSection]
    show (false || !doc.sections.isEmpty) = false
    rw [hdoc]
    rfl
  rw [hno] at ho
  cases ho

theorem Reader.Reaches.anchored {r : Reader} (hr : r.grammar = Dialect.grammar) {doc : Document}
    (hdoc : doc.sections = []) {file : Option String} {language : String} {options : List String}
    {g₀ g : Reading}
    (h₀ : r.start Dialect.initial (Draft.start doc file language options) = .ok g₀)
    (h : r.Reaches g₀ g) : g.draft.Anchored := by
  have hcalls := h.called hr (coherent_of_start hr hdoc h₀)
  rw [Reader.start, hr] at h₀
  cases h₀
  exact (Draft.anchored_start hdoc file language options).calls hcalls

/-- Wherever a reader of the dialect has come to, and after any further calls: each
declaration is made, with a table open if the item needs one. It heeds `nodoc` just if no
pending entry covers a `nodoc` in the current group; and if one does, then both are taken
away and nothing else is done. -/
theorem declare_heedsNodoc_iff {r : Reader} (hr : r.grammar = Dialect.grammar) {doc : Document}
    (hdoc : doc.sections = []) {file : Option String} {language : String} {options : List String}
    {g₀ g : Reading}
    (h₀ : r.start Dialect.initial (Draft.start doc file language options) = .ok g₀)
    (h : r.Reaches g₀ g) {d : Draft} (hd : ReflTransGen (Draft.Called False) g.draft d) {x : Item}
    (hx : ∀ kind, x.paramKind = some kind → kind = .plain ∨ d.table.isSome) :
    ∃ e, d.declare x = .ok e ∧ (d.HeedsNodoc x e ↔ ¬ d.CoversNodoc) ∧
      (d.CoversNodoc → e =
        { d.updateGroup fun g => { g with entries := g.entries.dropLast } with
          pending := none }) := by
  have hanchored : d.Anchored := (h.anchored hr hdoc h₀).calls hd
  by_cases hc : d.CoversNodoc
  · refine ⟨_, Draft.declare_of_discard (Draft.discardNodoc?_of_covers hc), ?_, fun _ => rfl⟩
    exact iff_of_false (Draft.not_heedsNodoc_of_covers hc rfl) fun hno => hno hc
  by_cases hends : d.lastWritten?.any Entry.isNodoc
  · refine ⟨_, Draft.declare_of_discard (Draft.discardNodoc?_of_ends hends), ?_,
      fun hcovers => absurd hcovers hc⟩
    exact iff_of_true (Draft.heedsNodoc_of_ends hanchored hends) hc
  · obtain ⟨e, he⟩ := Draft.declare_ok hx
    refine ⟨e, he, iff_of_true ?_ hc, fun hcovers => absurd hcovers hc⟩
    rw [Draft.HeedsNodoc, if_neg hends]
    exact hanchored.letsIn (Draft.discardNodoc?_of_not_ends hends hc) he

/-- The `nodoc` above an entry of a table keeps it out, and the text above the `nodoc`
stays. -/
theorem declare_heedsNodoc_entry :
    ∃ g₀ g e, ({} : Reader).start Dialect.initial
        (Draft.start (Document.new "d" none none) none "js" []) = .ok g₀ ∧
      ({} : Reader).feedAll g₀
        ["// # T", "", "const A = \x7b // doc", "// text", "//", "// nodoc"] = .ok g ∧
      g.draft.pending.any Entry.isNodoc ∧ g.draft.table.isSome ∧ ¬ g.draft.CoversNodoc ∧
      g.draft.declare (.param "a" (some "1") .table) = .ok e ∧
      g.draft.HeedsNodoc (.param "a" (some "1") .table) e := by
  have hread : ∃ g₀ g, ({} : Reader).start Dialect.initial
        (Draft.start (Document.new "d" none none) none "js" []) = .ok g₀ ∧
      ({} : Reader).feedAll g₀
        ["// # T", "", "const A = \x7b // doc", "// text", "//", "// nodoc"] = .ok g ∧
      g.draft.pending.any Entry.isNodoc ∧ g.draft.table.isSome ∧ ¬ g.draft.CoversNodoc :=
    ⟨_, _, rfl, rfl, by decide +kernel, by decide +kernel, by decide +kernel⟩
  obtain ⟨g₀, g, h₀, hg, hpending, htable, hno⟩ := hread
  obtain ⟨e, he, hheeds, -⟩ := declare_heedsNodoc_iff rfl rfl h₀ (.of_feedAll hg) .refl
    (x := .param "a" (some "1") .table) fun _ _ => Or.inr htable
  exact ⟨g₀, g, e, h₀, hg, hpending, htable, hno, he, hheeds.2 hno⟩

/-- A paragraph after `nodoc` covers it. The documentation ends in that paragraph then,
but the function that follows in the comment is kept out, and the paragraph is lost. -/
theorem covered_nodoc_not_heeded :
    ∃ g₀ g e, ({} : Reader).start Dialect.initial
        (Draft.start (Document.new "d" none none) none "js" []) = .ok g₀ ∧
      ({} : Reader).feedAll g₀ ["// # T", "", "/*", "nodoc", "", "real"] = .ok g ∧
      g.draft.lastWritten? = some (.paragraph { text := some "real" }) ∧
      g.draft.declare (.function .classFunction "f" (some "(a)")) = .ok e ∧
      e.lastWritten? = none ∧ e.currentGroup.function = none ∧
      ¬ g.draft.HeedsNodoc (.function .classFunction "f" (some "(a)")) e :=
  ⟨_, _, _, rfl, rfl, by decide +kernel,
    Draft.declare_of_discard (Draft.discardNodoc?_of_covers (by decide +kernel)),
    by decide +kernel, by decide +kernel,
    Draft.not_heedsNodoc_of_covers (by decide +kernel) (by decide +kernel)⟩

end DocComment
