import DocComment.Proofs.Items

/-!
# The declarations of a source

`Action.declared?` says which declaration an action makes: on which draft, as an action
may start a group or settle what is pending before it declares, and of which item.
Declarations that `nodoc` keeps out are not counted. `Reader.declarations` collects them
for a list of lines, in order.

What an action does is told once, in `Action.ledger_run`. It makes a declaration and says
so, or it opens a section, leaves a function or switches loose mode, or else it is quiet;
and it never does two of these. From this follows what a line does
(`Reading.Tracked.sameItems_feed`, `Reading.Tracked.declared_feed`): without a declaration
it touches no tag, and with one it marks the current group at that time and nothing else.
-/

namespace DocComment

open Text Relation Reader

namespace Draft

/-- Declares an item. -/
def declare (d : Draft) : Item → Except Fault Draft
  | .function binding name params => .ok (d.declareFunction binding name params)
  | .constant name => .ok (d.declareConstant name)
  | .param key definition kind => d.declareParam key definition kind

/-- The second draft is the first one after a declaration. The current group of the first
one is placed and marked; a parameter leaves it behind, and any other item remembers
it. -/
structure Declared (d : Draft) (x : Item) (e : Draft) : Prop where
  tags : ∀ i, (e.doc.store.get i).tag =
    (if i = d.group then x.mark (d.doc.store.get i) else d.doc.store.get i).tag
  entries : ∀ i, (e.doc.store.get i).entries = (d.doc.store.get i).entries
  held : ∀ i, d.doc.store.Holds i → e.doc.store.Holds i
  name : e.doc.name = d.doc.name
  fullname : e.doc.fullname = d.doc.fullname
  loose : e.doc.loose = d.doc.loose
  sections : e.doc.sections = d.doc.sections
  current : e.current.map (·.name) = d.current.map (·.name)
  todos : e.todos = d.todos
  fixmes : e.fixmes = d.fixmes
  scratch : e.scratch = d.scratch
  placed : d.current.isSome → d.group ∈ e.placed
  param : x.kind = .param →
    e.functionGroup = d.functionGroup ∧ e.doc.store.Holds e.group ∧ d.group.index < e.group.index
  other : x.kind ≠ .param → e.functionGroup = some d.group ∧ e.group = d.group

variable {d e f : Draft} {x : Item}

theorem tag_updateGroup (hd : d.doc.store.Holds d.group) (f : Group → Group) (i : GroupId) :
    ((d.updateGroup f).doc.store.get i).tag =
      (if i = d.group then f (d.doc.store.get i) else d.doc.store.get i).tag := by
  split
  · next h => rw [h]; exact congrArg Group.tag (GroupStore.get_update_self hd f)
  · next h => exact congrArg Group.tag (GroupStore.get_update_of_ne h f)

theorem entries_mark (d : Draft) (x : Item) (i : GroupId) :
    ((d.updateGroup x.mark).doc.store.get i).entries = (d.doc.store.get i).entries := by
  rcases d.doc.store.get_update_cases d.group i x.mark with h | ⟨-, h⟩
  · exact congrArg Group.entries h
  · exact (congrArg Group.entries h).trans (Group.entries_mark _ x)

theorem declared_placeAs (hd : d.doc.store.Holds d.group) (hx : x.kind ≠ .param) :
    Declared d x { (d.updateGroup x.mark).place with functionGroup := some d.group } where
  tags := tag_updateGroup hd x.mark
  entries := entries_mark d x
  held := fun _ => GroupStore.holds_update.2
  name := rfl
  fullname := rfl
  loose := rfl
  sections := rfl
  current := (quiet_placeGroup (d.updateGroup x.mark) d.group).current
  todos := rfl
  fixmes := rfl
  scratch := rfl
  placed := fun ho => @mem_placed_placeGroup (d.updateGroup x.mark) ho d.group
  param := fun h => absurd h hx
  other := fun _ => ⟨rfl, rfl⟩

theorem declared_register (hd : d.doc.store.Holds d.group) (hx : x.kind = .param)
    (params : List (String × ParamTable)) (libParams : ParamTable) :
    Declared d x { d.updateGroup x.mark with
      doc := { (d.updateGroup x.mark).doc with params, libParams } }.place.freshGroup := by
  have hfresh := quiet_freshGroup { d.updateGroup x.mark with
      doc := { (d.updateGroup x.mark).doc with params, libParams } }.place
  have hheld : (d.updateGroup x.mark).doc.store.Holds d.group := GroupStore.holds_update.2 hd
  exact {
    tags := fun i => (hfresh.tags i).trans (tag_updateGroup hd x.mark i)
    entries := fun i =>
      (congrArg Group.entries (GroupStore.get_insert_empty _ i)).trans (entries_mark d x i)
    held := fun i hi => hfresh.held i (GroupStore.holds_update.2 hi)
    name := rfl
    fullname := rfl
    loose := rfl
    sections := rfl
    current := (quiet_placeGroup (d.updateGroup x.mark) d.group).current
    todos := rfl
    fixmes := rfl
    scratch := rfl
    placed := fun ho => @mem_placed_placeGroup (d.updateGroup x.mark) ho d.group
    param := fun _ => ⟨rfl, (hfresh.group hheld).1, hheld⟩
    other := fun h => absurd hx h }

/-- No group is taken up again by a declaration. -/
theorem Declared.left (h : Declared d x e) {i : GroupId} (hi : d.Left i) : e.Left i := by
  obtain ⟨hheld, hlt, hno⟩ := hi
  refine ⟨h.held i hheld, ?_, h.scratch ▸ hno⟩
  by_cases hk : x.kind = .param
  · exact Nat.lt_trans hlt (h.param hk).2.2
  · exact (h.other hk).2 ▸ hlt

theorem discardNodoc?_eq_none : d.discardNodoc? = none ↔
    ¬ d.pending.any Entry.isNodoc ∧ ¬ d.currentGroup.entries.getLast?.any Entry.isNodoc := by
  rw [discardNodoc?]
  split
  · next h => simp [h]
  · next h =>
      split
      · next h' => simp [h']
      · next h' => simp [h, h']

theorem declare_cases (hd : d.doc.store.Holds d.group) (h : d.declare x = .ok e) :
    d.discardNodoc? = some e ∨ d.discardNodoc? = none ∧ Declared d x e := by
  cases x with
  | function binding name params =>
      have h : d.declareFunction binding name params = e := Except.ok.inj h
      rw [declareFunction] at h
      split at h
      · next hskip => exact Or.inl (h ▸ hskip)
      · next hkeep => exact Or.inr ⟨hkeep, h ▸ declared_placeAs hd fun hx => by cases hx⟩
  | constant name =>
      have h : d.declareConstant name = e := Except.ok.inj h
      rw [declareConstant] at h
      split at h
      · next hskip => exact Or.inl (h ▸ hskip)
      · next hkeep => exact Or.inr ⟨hkeep, h ▸ declared_placeAs hd fun hx => by cases hx⟩
  | param key definition kind =>
      rcases declareParam_cases h with hskip | ⟨hkeep, f, hf, rfl⟩
      · exact Or.inl hskip
      · obtain ⟨params, libParams, rfl⟩ := register_cases hf
        exact Or.inr ⟨hkeep, declared_register (x := .param key definition kind) hd rfl _ _⟩

end Draft

/-! ## Actions -/

/-- A declaration that was not skipped: which action made it, on which draft, and of
what. -/
structure Declaration where
  action : Action
  draft : Draft
  item : Item

/-- The group that documents the item. -/
def Declaration.group (x : Declaration) : GroupId :=
  x.draft.group

namespace Action

open Draft

/-- The draft that an action declares something on, and the item, if it does. -/
def offered? (a : Action) (c : Captures) (d : Draft) : Option (Draft × Item) :=
  match a with
  | declareFunction => some (d, .function (bindingOf c 0) (c.text 1) (some (c.text 2)))
  | declareConstant => some (d, .constant (c.text 0))
  | documentedFunction =>
    some (splitFromSection d, .function (bindingOf c 0) (c.text 1) (some (c.text 2)))
  | documentedGlobalFunction =>
    some (splitFromSection d, .function .globalFunction (c.text 0) (some (c.text 1)))
  | documentedLibParam =>
    let g := d.currentGroup
    if tableMarker.accepts (c.text 1) || (filled g.function).isSome ||
        (filled g.constant).isSome then
      none
    else
      some (if d.opensSection || g.entries.head?.any Entry.isHeading then d.flagUndocumented else d,
        .param (c.text 0) (some (c.text 1)) .plain)
  | undocumentedFunction =>
    if d.scratch.isSome then none
    else some (d.flagUndocumented, .function (bindingOf c 1) (c.text 2) (some (c.text 3)))
  | undocumentedParam =>
    if tableMarker.accepts (c.text 2) || d.scratch.isSome then none
    else some (d.flagUndocumented, .param (c.text 1) (some (c.text 2)) .plain)
  | tableParam => some (d.flush, .param (c.text 0) (some (c.text 1)) .table)
  | listParam => some (d.flush, .param (c.text 0) none .list)
  | sameLineParam =>
    match d.flush.freshGroup.appendText (trim (c.text 1)) false with
    | .ok d => some (d.flush, .param (c.text 0) none .list)
    | .error _ => none
  | _ => none

/-- The declaration that an action makes, unless `nodoc` keeps it out. -/
def declared? (a : Action) (c : Captures) (d : Draft) : Option Declaration :=
  match a.offered? c d with
  | some (d, x) => if d.discardNodoc?.isNone then some ⟨a, d, x⟩ else none
  | none => none

/-- What an action does to a draft, as far as items, sections and modes are concerned. -/
inductive Ledger (c : Captures) (d : Draft) : Action → Draft → Prop where
  | quiet {a : Action} {e : Draft} (ha : a.declared? c d = none) (hopened : a.before ≠ .opening)
      (h : Quiet d e) : Ledger c d a e
  | declares {a : Action} {x : Declaration} {e : Draft} (ha : a.declared? c d = some x)
      (hbefore : Quiet d x.draft) (h : Declared x.draft x.item e) : Ledger c d a e
  | opens {a : Action} {title : String} {e : Draft} (ha : a.declared? c d = none)
      (htitle : a = .newSection ∧ title = c.text 0 ∨ d.hasSection = false)
      (h : Quiet (d.openSection title) e) : Ledger c d a e
  | leaves {e : Draft} (h : Quiet { d with functionGroup := none } e) : Ledger c d .endOfFunction e
  | switches {a : Action} {enabled : Bool} {e : Draft}
      (ha : a = .disableOption ∧ enabled = false ∨
        a = .enableOption ∧ enabled = true ∧ trim (c.text 0) = "loose")
      (h : Quiet { d with doc := { d.doc with loose := enabled } } e) : Ledger c d a e

variable {line : Nat} {c : Captures} {d e : Draft}

theorem offered?_of_not_declares {a : Action} (ha : a.declares = false) :
    a.offered? c d = none := by
  cases a <;> first | rfl | cases ha

/-- What an action declares, if it does declare something. -/
def itemKind? : Action → Option (ItemKind × Option ParamKind)
  | declareFunction | documentedFunction | documentedGlobalFunction | undocumentedFunction =>
    some (.function, none)
  | declareConstant => some (.constant, none)
  | documentedLibParam | undocumentedParam => some (.param, some .plain)
  | tableParam => some (.param, some .table)
  | listParam | sameLineParam => some (.param, some .list)
  | _ => none

theorem itemKind?_of_offered? {a : Action} {x : Draft × Item} (h : a.offered? c d = some x) :
    a.itemKind? = some (x.2.kind, x.2.paramKind) := by
  cases a with
  | declareFunction | declareConstant | documentedFunction | documentedGlobalFunction
  | tableParam | listParam =>
      exact Option.some.inj h ▸ rfl
  | documentedLibParam | undocumentedFunction | undocumentedParam =>
      rw [offered?] at h
      split at h
      · cases h
      · exact Option.some.inj h ▸ rfl
  | sameLineParam =>
      rw [offered?] at h
      split at h
      · exact Option.some.inj h ▸ rfl
      · cases h
  | _ => cases h

/-- Before its first section a source declares nothing. -/
theorem before_ne_opening {a : Action} {x : Draft × Item} (h : a.offered? c d = some x) :
    a.before ≠ .opening := by
  cases a <;> first | decide | cases h

theorem declared?_eq_some {a : Action} {x : Declaration} (h : a.declared? c d = some x) :
    x.action = a ∧ a.offered? c d = some (x.draft, x.item) ∧ x.draft.discardNodoc? = none := by
  rw [declared?] at h
  split at h
  · next hoff =>
      split at h
      · next hkeep =>
          cases h
          exact ⟨rfl, hoff, by simpa using hkeep⟩
      · cases h
  · cases h

theorem quiet_entryGroup (d : Draft) : Quiet d (entryGroup d) := by
  rw [entryGroup]
  split
  · exact .refl d
  · exact quiet_freshGroup d

theorem quiet_splitFromSection (d : Draft) : Quiet d (splitFromSection d) := by
  rw [splitFromSection]
  split
  · exact quiet_flagUndocumented d
  · exact .refl d

theorem quiet_addTrailing {text : String} (h : addTrailing d text = .ok e) : Quiet d e := by
  rw [addTrailing] at h
  split at h
  · exact Except.ok.inj h ▸ .refl d
  · exact quiet_appendText h

theorem quiet_addFormula {formula trailing : String}
    (h : addFormula d formula trailing = .ok e) : Quiet d e := by
  rw [addFormula] at h
  refine Quiet.trans ?_ (quiet_addTrailing h)
  split
  · exact .refl d
  · exact (quiet_pend d _).trans (quiet_flush _)

theorem quiet_closeFormula {formula trailing : String}
    (h : closeFormula d formula trailing = .ok e) : Quiet d e := by
  rw [closeFormula] at h
  split at h
  · exact (quiet_flush d).trans (quiet_addTrailing h)
  · obtain ⟨d', hd', h⟩ := ok_of_bind h
    exact ((quiet_appendText hd').trans (quiet_flush d')).trans (quiet_addTrailing h)

namespace Ledger

/-- An action that offers a declaration makes it, or it is skipped and nothing happens. -/
theorem of_offered {a : Action} {d' : Draft} {x : Item} (hoff : a.offered? c d = some (d', x))
    (hbefore : Quiet d d') (hheld : d.doc.store.Holds d.group) (h : d'.declare x = .ok e) :
    Ledger c d a e := by
  rcases declare_cases (hbefore.group hheld).1 h with hskip | ⟨hkeep, h⟩
  · refine .quiet ?_ (before_ne_opening hoff) (hbefore.trans (quiet_discardNodoc? hskip))
    rw [declared?, hoff]
    simp [hskip]
  · refine .declares (x := ⟨a, d', x⟩) ?_ hbefore h
    rw [declared?, hoff]
    simp [hkeep]

theorem of_none {a : Action} (hoff : a.offered? c d = none) (h : Quiet d e)
    (hopened : a.before ≠ .opening := by decide) : Ledger c d a e := by
  refine .quiet ?_ hopened h
  rw [declared?, hoff]

/-- The first section of a draft is opened under the name of the document. -/
theorem of_opening {a : Action} (hoff : a.offered? c d = none) (hd : d.Opening) {title : String}
    (h : Quiet (d.openSection title) e) : Ledger c d a e := by
  refine .opens (by rw [declared?, hoff]) (Or.inr ?_) h
  rw [hasSection, hd.current, hd.sections]
  rfl

end Ledger

theorem ledger_applyDirective {a : Action} {enabled : Bool} {n : Option Int}
    (ha : a = .disableOption ∧ enabled = false ∨ a = .enableOption ∧ enabled = true)
    (h : d.applyDirective (trim (c.text 0)) enabled n = .ok e) : Ledger c d a e := by
  have hoff : a.offered? c d = none := by
    rcases ha with ⟨rfl, -⟩ | ⟨rfl, -⟩ <;> rfl
  have hopened : a.before ≠ .opening := by
    rcases ha with ⟨rfl, -⟩ | ⟨rfl, -⟩ <;> decide
  rw [applyDirective] at h
  split at h
  · next mode hmode =>
      split at h
      · unfold Mode.ofOption? at hmode
        split at hmode
        · cases hmode
          exact Except.ok.inj h ▸ .of_none hoff (quiet_setLiterate d enabled) hopened
        · next hoption =>
            cases hmode
            exact Except.ok.inj h ▸
              .switches (ha.imp_right fun h => ⟨h.1, h.2, hoption⟩) (quiet_setLoose d enabled)
        · cases hmode
      · cases h
  · cases h

theorem ledger_apply {a : Action} (hd : a.before.Fits d) (hheld : d.doc.store.Holds d.group)
    (ha : a.plain) (h : a.apply line c d = .ok e) : Ledger c d a e := by
  cases a with
  | missingTitle | untitledPreamble | documentedLibParam | undocumentedParam => cases ha
  | preambleSection =>
      exact Except.ok.inj h ▸ .of_opening rfl hd (quiet_remember rfl)
  | flush => exact Except.ok.inj h ▸ .of_none rfl (quiet_flush d)
  | closeComment => exact Except.ok.inj h ▸ .of_none rfl (quiet_closeComment d)
  | newSection => exact Except.ok.inj h ▸ .opens rfl (Or.inl ⟨rfl, rfl⟩) (.refl _)
  | newTitle => exact Except.ok.inj h ▸ .of_none rfl (quiet_addPlaced d _)
  | declareFunction | declareConstant => exact .of_offered rfl (.refl d) hheld h
  | todoFixme => exact .of_none rfl (quiet_addKeyword h)
  | append | appendLine | appendBlankLine => exact .of_none rfl (quiet_appendText h)
  | bullet | definition => exact Except.ok.inj h ▸ .of_none rfl (quiet_appendItem d _)
  | startCode | mathOpen => exact Except.ok.inj h ▸ .of_none rfl (quiet_pend d _)
  | mathInline => exact .of_none rfl (quiet_addFormula h)
  | mathClose => exact .of_none rfl (quiet_closeFormula h)
  | documentedFunction | documentedGlobalFunction =>
      exact .of_offered rfl (quiet_splitFromSection d) hheld h
  | undocumentedFunction =>
      rw [apply, captureOr] at h
      split at h
      · next hs => exact Except.ok.inj h ▸ .of_none (if_pos hs) (quiet_captureLine d _)
      · next hs => exact .of_offered (if_neg hs) (quiet_flagUndocumented d) hheld h
  | endOfFunction => exact Except.ok.inj h ▸ .leaves (quiet_captureLine _ _)
  | enableOption => exact ledger_applyDirective (Or.inr ⟨rfl, rfl⟩) h
  | disableOption => exact ledger_applyDirective (Or.inl ⟨rfl, rfl⟩) h
  | openTable =>
      have hleft : Quiet d (leavePlacedGroup d.finishCapture) :=
        (quiet_finishCapture d).trans (quiet_freshIf _ _)
      exact Except.ok.inj h ▸ .of_none rfl (hleft.trans (quiet_openTable _ _ _))
  | sourceTodo =>
      obtain ⟨d', hd', h⟩ := ok_of_bind h
      exact Except.ok.inj h ▸ .of_none rfl ((quiet_addKeyword hd').trans (quiet_flush d'))
  | startComment => exact Except.ok.inj h ▸ .of_none rfl (quiet_freshGroup d)
  | sourceLine => exact Except.ok.inj h ▸ .of_none rfl (quiet_captureLine d _)
  | paramsTitle =>
      refine Except.ok.inj h ▸ .of_none rfl (((quiet_flush d).trans ?_).trans (quiet_addPlaced _ _))
      split
      · exact .refl _
      · exact quiet_freshGroup _
  | paramsComment =>
      exact Except.ok.inj h ▸ .of_none rfl ((quiet_entryGroup d).trans (quiet_remember rfl))
  | paramsBlockComment =>
      obtain ⟨d', hd', h⟩ := ok_of_bind h
      have hadd := (quiet_entryGroup d).trans (quiet_addTrailing hd')
      exact Except.ok.inj h ▸ .of_none rfl (hadd.trans (quiet_remember rfl))
  | paramsInlineComment =>
      obtain ⟨d', hd', h⟩ := ok_of_bind h
      have hadd := (quiet_entryGroup d).trans (quiet_appendText hd')
      exact Except.ok.inj h ▸ .of_none rfl (hadd.trans (quiet_flush d'))
  | tableParam | listParam => exact .of_offered rfl (quiet_flush d) hheld h
  | sameLineParam =>
      obtain ⟨d', hd', h⟩ := ok_of_bind h
      have hadd := ((quiet_flush d).trans (quiet_freshGroup _)).trans (quiet_appendText hd')
      refine .of_offered (x := .param (c.text 0) none .list) ?_
        (hadd.trans (quiet_flush d')) hheld h
      rw [offered?, hd']
  | closeTable => exact Except.ok.inj h ▸ .of_none rfl (quiet_closeTable d)
  | paramsOther =>
      exact Except.ok.inj h ▸ .of_none rfl ((quiet_flush d).trans (quiet_freshGroup _))

theorem ledger_declareLibParam (hheld : d.doc.store.Holds d.group)
    (htable : ¬ tableMarker.accepts (c.text 1))
    (h : declareLibParam d (c.text 0) (c.text 1) = .ok e) :
    Ledger c d .documentedLibParam e := by
  rw [declareLibParam] at h
  simp only [] at h
  split at h
  · next hitem =>
      refine Except.ok.inj h ▸ .of_none ?_ (.refl d)
      simp only [offered?, htable, Bool.false_or]
      exact if_pos hitem
  · next hitem =>
      refine .of_offered (x := .param (c.text 0) (some (c.text 1)) .plain) ?_ ?_ hheld h
      · simp only [offered?, htable, Bool.false_or]
        exact if_neg hitem
      · split
        · exact quiet_flagUndocumented d
        · exact .refl d

theorem ledger_run {a : Action} {x : Effect} (hd : a.before.Fits d)
    (hheld : d.doc.store.Holds d.group) (h : a.run line c d = .ok x) : Ledger c d a x.draft := by
  by_cases ha : a.plain
  · rw [run_plain ha] at h
    cases he : a.apply line c d with
    | error f =>
        rw [he] at h
        cases h
    | ok e =>
        rw [he] at h
        cases h
        exact ledger_apply hd hheld ha he
  cases a with
  | missingTitle =>
      have ho : d.Opening := hd
      have hno : d.hasSection = false := by
        rw [hasSection, ho.current, ho.sections]
        rfl
      rw [run, ensureSection, if_neg (by rw [hno]; exact Bool.false_ne_true)] at h
      cases h
      exact .of_opening rfl hd (quiet_addEntry _ _)
  | untitledPreamble =>
      cases h
      exact .of_opening rfl hd (quiet_remember rfl)
  | documentedLibParam =>
      rw [run] at h
      split at h
      · next htable =>
          cases h
          refine .of_none ?_ ((quiet_freshIf d _).trans (quiet_openTable _ _ _))
          simp [offered?, htable]
      · next htable =>
          obtain ⟨e, he, h⟩ := ok_of_bind h
          cases h
          exact ledger_declareLibParam hheld htable he
  | undocumentedParam =>
      rw [run] at h
      split at h
      · next htable =>
          cases h
          refine .of_none ?_ (((quiet_finishCapture d).trans (quiet_freshGroup _)).trans
            (quiet_openTable _ _ _))
          simp [offered?, htable]
      · next htable =>
          obtain ⟨e, he, h⟩ := ok_of_bind h
          cases h
          rw [captureOr] at he
          split at he
          · next hs =>
              refine Except.ok.inj he ▸ .of_none ?_ (quiet_captureLine d _)
              simp [offered?, hs]
          · next hs =>
              refine .of_offered (x := .param (c.text 1) (some (c.text 2)) .plain) ?_
                (quiet_flagUndocumented d) hheld he
              simp [offered?, htable, hs]
  | _ => exact absurd rfl ha

end Action

/-! ## Hooks -/

namespace Draft

/-- Nothing was listed either, and nothing was taken back. So it is when the state is
changed. -/
structure Silent (d e : Draft) : Prop extends Quiet d e where
  grows : Grows d e
  lists : SameLists d e

theorem Silent.refl (d : Draft) : Silent d d :=
  ⟨.refl d, .refl d, .refl d⟩

theorem Silent.trans {d e f : Draft} (h : Silent d e) (h' : Silent e f) : Silent d f :=
  ⟨h.toQuiet.trans h'.toQuiet, h.grows.trans h'.grows, h.lists.trans h'.lists⟩

theorem silent_finishCapture (d : Draft) : Silent d d.finishCapture :=
  ⟨quiet_finishCapture d, grows_finishCapture d, lists_finishCapture d⟩

theorem silent_enterSource (d : Draft) : Silent d (Hook.enterSource d) := by
  rw [Hook.enterSource]
  split
  · refine Silent.trans ?_
      ⟨quiet_startCapture _, grows_startCapture _, lists_startCapture _⟩
    split
    · exact .refl d
    · exact ⟨quiet_placeGroup d _, grows_place d, rfl, rfl, rfl, rfl, rfl⟩
  · exact .refl d

end Draft

namespace Dialect

/-- Only the end of a source opens a section of its own. -/
theorem hooks_cases :
    ∀ s ∈ states, (s.exit = none ∨ s.exit = some .sourceExit) ∧
      (s.enter = none ∨ s.enter = some .sourceEnter) := by
  decide

theorem silent_crossTo {s s' : State} (hs : s ∈ states) (hs' : s' ∈ states) (d : Draft) :
    Draft.Silent d (s.crossTo s' d) := by
  have hexit : Draft.Silent d (hooked s.exit d) := by
    rcases (hooks_cases s hs).1 with h | h <;> rw [h]
    · exact .refl d
    · exact Draft.silent_finishCapture d
  refine hexit.trans ?_
  rw [State.crossTo]
  rcases (hooks_cases s' hs').2 with h | h <;> rw [h]
  · exact .refl _
  · exact Draft.silent_enterSource _

end Dialect

/-- No line is evaluated again after it declared something, left a function or switched a
mode. -/
theorem Dialect.calm_of_replay :
    ∀ s ∈ states, ∀ r ∈ s.rules, r.next.replayTargets ≠ [] → ∀ a ∈ r.action,
      a.declares = false ∧ a ≠ .endOfFunction ∧ a ≠ .enableOption ∧ a ≠ .disableOption := by
  decide

/-! ## Lines -/

/-- The declaration that a line makes in a reading. -/
def Reading.declared? (g : Reading) (line : String) : Option Declaration := do
  let m ← g.state.matchLine line g.entering
  let a ← m.rule.action
  a.declared? m.captures g.draft

namespace Reader

/-- The declaration that a line makes, when it is evaluated first or when it is evaluated
again. -/
def declaredWithin (r : Reader) (line : String) (left : Nat) (g : Reading) : Option Declaration :=
  match r.evaluate line g with
  | .error _ => none
  | .ok (_, false) => g.declared? line
  | .ok (g', true) =>
    match left with
    | 0 => none
    | left + 1 => r.declaredWithin line left g'

/-- The declaration that the next line makes. -/
def declared? (r : Reader) (g : Reading) (line : String) : Option Declaration :=
  r.declaredWithin (dropLineEnd line) r.maxReplay.toNat { g with line := g.line + 1 }

/-- The declarations that lines make, in order. -/
def declarations (r : Reader) (g : Reading) : List String → List Declaration
  | [] => []
  | line :: lines =>
    (r.declared? g line).toList ++
      match r.feed g line with
      | .ok g' => r.declarations g' lines
      | .error _ => []

end Reader

/-- The declarations of a source, in order. -/
def declarationsOf (settings : Settings) (q : Request) (lines : List String) : List Declaration :=
  match readingAfter settings q [] with
  | .ok g => settings.reader.declarations g lines
  | .error _ => []

namespace Reading

open Draft

variable {r : Reader} {line : String} {g g' : Reading}

theorem Coherent.before_fits (hg : g.Coherent) {m : LineMatch}
    (hm : g.state.matchLine line g.entering = some m) {a : Action} (ha : m.rule.action = some a) :
    a.before.Fits g.draft := by
  obtain ⟨-, hrules, -⟩ := Dialect.wellPhased_of_mem hg.state
  have hrule := hrules m.rule (State.matchLine_mem hm)
  rw [Rule.wellPhased, ha, Bool.and_eq_true] at hrule
  exact hg.fits.of_below hrule.1

/-- What a reading does with a line, before the states are changed. -/
inductive Enters (g : Reading) (line : String) : Draft → Prop where
  /-- No rule takes the line, or one without an action. -/
  | idle (hnone : g.declared? line = none) : Enters g line g.draft
  /-- The rule that takes the line acts. -/
  | acts {m : LineMatch} {a : Action} {e : Draft}
      (hm : g.state.matchLine line g.entering = some m) (ha : m.rule.action = some a)
      (h : a.Ledger m.captures g.draft e) : Enters g line e

theorem declared?_of_match {m : LineMatch} (hm : g.state.matchLine line g.entering = some m)
    {a : Action} (ha : m.rule.action = some a) :
    g.declared? line = a.declared? m.captures g.draft := by
  simp [declared?, hm, ha]

theorem Tracked.enters_act (hg : g.Tracked) {m : LineMatch}
    (hm : g.state.matchLine line g.entering = some m) {x : Effect} (h : act g m = .ok x) :
    g.Enters line x.draft := by
  rw [act] at h
  cases ha : m.rule.action with
  | none =>
      rw [ha] at h
      cases h
      exact .idle (by simp [declared?, hm, ha])
  | some a =>
      rw [ha] at h
      exact .acts hm ha (Action.ledger_run (hg.before_fits hm ha) hg.placed.group h)

theorem Tracked.enters_evaluate (hg : g.Tracked) (hr : r.grammar = Dialect.grammar) {again : Bool}
    (h : r.evaluate line g = .ok (g', again)) : ∃ e, g.Enters line e ∧ Silent e g'.draft := by
  rcases evaluate_cases h with ⟨hm, -, hl⟩ | ⟨m, x, hm, ha, ⟨-, -, hl⟩ | ⟨target, s, -, hs, hl⟩⟩
  · exact ⟨g.draft, .idle (by simp [declared?, hm]), hl.draft ▸ .refl _⟩
  · exact ⟨x.draft, hg.enters_act hm ha, hl.draft ▸ .refl _⟩
  · rw [hr] at hs
    exact ⟨x.draft, hg.enters_act hm ha,
      hl.draft ▸ Dialect.silent_crossTo hg.state (Dialect.mem_of_find? hs) _⟩

theorem Enters.sameItems {e : Draft} (h : g.Enters line e) (hn : g.declared? line = none) :
    SameItems g.draft e := by
  cases h with
  | idle => exact .refl _
  | acts hm ha h =>
      cases h with
      | quiet _ _ h => exact h.toSameItems
      | declares hx =>
          rw [declared?_of_match hm ha, hx] at hn
          cases hn
      | opens _ _ h => exact ((calm_openSection _ _).trans h.toCalm).toSameItems
      | leaves h => exact { h.toSameItems with }
      | switches _ h => exact { h.toSameItems with }

/-- The reading makes a declaration, and the draft is what it is right after that. -/
structure Makes (g : Reading) (line : String) (x : Declaration) (e : Draft) : Prop where
  offered : ∃ m, g.state.matchLine line g.entering = some m ∧ m.rule.action = some x.action ∧
    x.action.offered? m.captures g.draft = some (x.draft, x.item)
  kept : x.draft.discardNodoc? = none
  opened : x.draft.current.isSome
  before : Quiet g.draft x.draft
  declared : Declared x.draft x.item e

theorem Enters.makes {e : Draft} (h : g.Enters line e) (hg : g.Coherent) {x : Declaration}
    (hx : g.declared? line = some x) : g.Makes line x e := by
  cases h with
  | idle hn =>
      rw [hn] at hx
      cases hx
  | @acts m a _ hm ha h =>
      rw [declared?_of_match hm ha] at hx
      cases h with
      | quiet hn | opens hn => cases hn.symm.trans hx
      | leaves => cases hx
      | switches ha' =>
          rcases ha' with ⟨rfl, -⟩ | ⟨rfl, -, -⟩ <;> cases hx
      | declares hy hquiet hdeclared =>
          cases hy.symm.trans hx
          obtain ⟨rfl, hoff, hkeep⟩ := Action.declared?_eq_some hx
          refine ⟨⟨m, hm, ha, hoff⟩, hkeep, ?_, hquiet, hdeclared⟩
          have hopened : g.draft.current.isSome :=
            (hg.before_fits hm ha).opened (Action.before_ne_opening hoff)
          have hcurrent := congrArg Option.isSome hquiet.current
          rw [Option.isSome_map, Option.isSome_map] at hcurrent
          exact hcurrent ▸ hopened

theorem Tracked.calm_again (hg : g.Tracked) (hr : r.grammar = Dialect.grammar)
    (h : r.Again line g g') : Calm g.draft g'.draft := by
  obtain ⟨m, hm, htarget⟩ := hg.again hr h
  obtain ⟨e, he, hsilent⟩ := hg.enters_evaluate hr h
  refine Calm.trans ?_ hsilent.toCalm
  cases he with
  | idle => exact .refl _
  | @acts m' a _ hm' ha he =>
      obtain rfl : m = m' := Option.some.inj (hm.symm.trans hm')
      have hcalm := Dialect.calm_of_replay _ hg.state _ (State.matchLine_mem hm)
        (List.ne_nil_of_mem htarget) a (ha ▸ rfl)
      cases he with
      | quiet _ _ h => exact h.toCalm
      | opens _ _ h => exact (calm_openSection _ _).trans h.toCalm
      | declares hx =>
          have hoff := (Action.declared?_eq_some hx).2.1
          rw [Action.offered?_of_not_declares hcalm.1] at hoff
          cases hoff
      | leaves => exact absurd rfl hcalm.2.1
      | switches ha' =>
          rcases ha' with ⟨ha', -⟩ | ⟨ha', -, -⟩
          · exact absurd ha' hcalm.2.2.2
          · exact absurd ha' hcalm.2.2.1

/-- The last time that a line is evaluated. Until then nothing is declared. -/
structure Final (r : Reader) (line : String) (g g₁ g' : Reading) : Prop extends Tracked g₁ where
  again : ReflTransGen (r.Again line) g g₁
  evaluate : r.evaluate line g₁ = .ok (g', false)
  calm : Calm g.draft g₁.draft
  grows : Grows g.draft g₁.draft

theorem Tracked.exists_final (hg : g.Tracked) (hr : r.grammar = Dialect.grammar) {left : Nat}
    (h : r.evaluateAll line left g = .ok g') :
    ∃ g₁, Final r line g g₁ g' ∧ r.declaredWithin line left g = g₁.declared? line := by
  induction left generalizing g with
  | zero =>
      unfold Reader.evaluateAll at h
      split at h
      · cases h
      · next he =>
          cases h
          refine ⟨g, ⟨hg, .refl, he, .refl _, .refl _⟩, ?_⟩
          unfold declaredWithin
          rw [he]
      · cases h
  | succ left ih =>
      unfold Reader.evaluateAll at h
      split at h
      · cases h
      · next he =>
          cases h
          refine ⟨g, ⟨hg, .refl, he, .refl _, .refl _⟩, ?_⟩
          unfold declaredWithin
          rw [he]
      · next g₂ he =>
          obtain ⟨ht, hgrows⟩ := hg.evaluate hr he
          obtain ⟨g₁, hfinal, hx⟩ := ih ht h
          refine ⟨g₁, ⟨hfinal.toTracked, .head he hfinal.again, hfinal.evaluate,
            (hg.calm_again hr he).trans hfinal.calm, hgrows.trans hfinal.grows⟩, ?_⟩
          unfold declaredWithin
          rw [he]
          exact hx

theorem Tracked.final_feed (hg : g.Tracked) (hr : r.grammar = Dialect.grammar)
    (h : r.feed g line = .ok g') :
    ∃ g₁, Final r (dropLineEnd line) { g with line := g.line + 1 } g₁ g' ∧
      r.declared? g line = g₁.declared? (dropLineEnd line) :=
  (hg.nextLine _).exists_final hr h

/-- A line without a declaration touches no tag. -/
theorem Tracked.sameItems_feed (hg : g.Tracked) (hr : r.grammar = Dialect.grammar)
    (h : r.feed g line = .ok g') (hn : r.declared? g line = none) :
    SameItems g.draft g'.draft := by
  obtain ⟨g₁, hfinal, hx⟩ := hg.final_feed hr h
  obtain ⟨e, he, hsilent⟩ := hfinal.enters_evaluate hr hfinal.evaluate
  exact (hfinal.calm.toSameItems.trans (he.sameItems (hx ▸ hn))).trans hsilent.toSameItems

/-- A line with a declaration marks the group that is current at that time. -/
theorem Tracked.declared_feed (hg : g.Tracked) (hr : r.grammar = Dialect.grammar)
    (h : r.feed g line = .ok g') {x : Declaration} (hx : r.declared? g line = some x) :
    ∃ g₁ e, Final r (dropLineEnd line) { g with line := g.line + 1 } g₁ g' ∧
      g₁.Makes (dropLineEnd line) x e ∧ Silent e g'.draft := by
  obtain ⟨g₁, hfinal, hx'⟩ := hg.final_feed hr h
  obtain ⟨e, he, hsilent⟩ := hfinal.enters_evaluate hr hfinal.evaluate
  rw [hx] at hx'
  exact ⟨g₁, e, hfinal, he.makes hfinal.toCoherent hx'.symm, hsilent⟩

/-- A group that has been left is not written to any more. -/
theorem Tracked.left_feed (hg : g.Tracked) (hr : r.grammar = Dialect.grammar)
    (h : r.feed g line = .ok g') {i : GroupId} (hi : g.draft.Left i) :
    g'.draft.Left i ∧ (g'.draft.doc.store.get i).entries = (g.draft.doc.store.get i).entries := by
  cases hx : r.declared? g line with
  | none => exact (hg.sameItems_feed hr h hx).left i hi
  | some x =>
      obtain ⟨g₁, e, hfinal, hmakes, hsilent⟩ := hg.declared_feed hr h hx
      obtain ⟨hi₁, hsame₁⟩ := hfinal.calm.left i hi
      obtain ⟨hbefore, hsame₂⟩ := hmakes.before.left i hi₁
      obtain ⟨hafter, hsame₃⟩ := hsilent.left i (hmakes.declared.left hbefore)
      exact ⟨hafter, ((hsame₃.trans (hmakes.declared.entries i)).trans hsame₂).trans hsame₁⟩

/-- What every line keeps, together with the declarations so far, is kept by a source. -/
theorem Tracked.feedAll_declares {P : List Declaration → Reading → Prop}
    (hP : ∀ {ds g g' line}, g.Tracked → P ds g → r.feed g line = .ok g' →
      P (ds ++ (r.declared? g line).toList) g')
    (hr : r.grammar = Dialect.grammar) (hg : g.Tracked) {ds : List Declaration} (h : P ds g)
    {lines : List String} (hf : r.feedAll g lines = .ok g') :
    P (ds ++ r.declarations g lines) g' := by
  induction lines generalizing g ds with
  | nil =>
      cases hf
      rw [declarations, List.append_nil]
      exact h
  | cons line lines ih =>
      rw [feedAll_cons] at hf
      obtain ⟨g₁, hline, hf⟩ := ok_of_bind hf
      have hrest := ih (hg.feed hr hline).1 (hP hg h hline) hf
      rw [declarations, hline, ← List.append_assoc]
      exact hrest

/-- The end of a source opens a section if there is none. -/
theorem Coherent.finish_cases (hg : g.Coherent) :
    g.draft.current.isSome ∧ Quiet g.draft (Reader.finish g).draft ∨
      g.draft.Opening ∧
        Quiet (g.draft.openSection g.draft.doc.fullname) (Reader.finish g).draft := by
  have hexit : Quiet g.draft (hooked g.state.exit g.draft) := by
    rcases (Dialect.hooks_cases _ hg.state).1 with h | h <;> rw [h]
    · exact .refl _
    · exact quiet_finishCapture _
  rw [finish_draft]
  rcases Dialect.eof_cases _ hg.state with ⟨hp, hx, heof⟩ | ⟨hp, -, heof⟩
  · right
    have ho : g.draft.Opening := by
      have hf := hg.fits
      rwa [hp] at hf
    have hno : ¬ g.draft.hasSection := by
      rw [hasSection, ho.current, ho.sections]
      exact Bool.false_ne_true
    have hensure (reason : Option Template) :
        Quiet (g.draft.openSection g.draft.doc.fullname) (g.draft.ensureSection reason).1 := by
      unfold ensureSection
      rw [if_neg hno]
      exact quiet_addEntry _ _
    rw [hx]
    rcases heof with heof | heof <;> rw [heof] <;> exact ⟨ho, hensure _⟩
  · refine Or.inl ⟨hg.fits.opened hp, ?_⟩
    rcases heof with heof | heof <;> rw [heof]
    · exact hexit
    · exact hexit.trans (quiet_flush _)

theorem Coherent.sameItems_finish (hg : g.Coherent) :
    SameItems g.draft (Reader.finish g).draft := by
  rcases hg.finish_cases with ⟨-, h⟩ | ⟨-, h⟩
  · exact h.toSameItems
  · exact ((calm_openSection _ _).trans h.toCalm).toSameItems

end Reading

/-- A source is read from its first reading on. -/
theorem exists_firstReading {settings : Settings} {q : Request} {lines : List String} {g : Reading}
    (h : readingAfter settings q lines = .ok g) :
    ∃ g₀ named, q.named = .ok named ∧ g₀.draft = firstDraft settings named.1 named.2 ∧
      g₀.Tracked ∧ (∀ lines, readingAfter settings q lines = settings.reader.feedAll g₀ lines) ∧
      declarationsOf settings q lines = settings.reader.declarations g₀ lines := by
  rw [← List.nil_append lines, readingAfter_append] at h
  obtain ⟨g₀, h₀, -⟩ := ok_of_bind h
  have hreads (lines : List String) :
      readingAfter settings q lines = settings.reader.feedAll g₀ lines := by
    rw [← List.nil_append lines, readingAfter_append, h₀]
    rfl
  have hds : declarationsOf settings q lines = settings.reader.declarations g₀ lines := by
    rw [declarationsOf, h₀]
  obtain ⟨named, hq, -⟩ := ok_of_bind h₀
  obtain ⟨g₁, -, -, hdraft, hfirst⟩ := readingAfter_eq settings hq
  have h₁ : Except.ok g₁ = Except.ok g₀ :=
    (hfirst settings.maxReplay settings.trace []).symm.trans h₀
  obtain rfl := Except.ok.inj h₁
  exact ⟨g₁, named, hq, hdraft, readingAfter_tracked h₀, hreads, hds⟩

/-- The declaration was made in some reading. -/
def Declaration.Made (x : Declaration) : Prop :=
  ∃ g line e, Reading.Tracked g ∧ Reading.Makes g line x e

theorem made_of_mem {settings : Settings} {q : Request} {lines : List String} {g : Reading}
    (h : readingAfter settings q lines = .ok g) :
    ∀ x ∈ declarationsOf settings q lines, x.Made := by
  obtain ⟨g₀, -, -, -, hg₀, hreads, hds⟩ := exists_firstReading h
  have hnothing : ∀ x ∈ ([] : List Declaration), x.Made := fun x hx => (List.not_mem_nil hx).elim
  have hmade := hg₀.feedAll_declares (P := fun ds _ => ∀ x ∈ ds, x.Made) (r := settings.reader)
    ?_ rfl hnothing ((hreads lines).symm.trans h)
  · rw [hds]
    exact hmade
  · intro ds g g' line hg hds hf x hx
    rcases List.mem_append.1 hx with hx | hx
    · exact hds x hx
    · obtain ⟨g₁, e, hfinal, hmakes, -⟩ := hg.declared_feed rfl hf (Option.mem_toList.1 hx)
      exact ⟨g₁, _, e, hfinal.toTracked, hmakes⟩

end DocComment
