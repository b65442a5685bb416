import DocComment.Proofs.Consistency
import DocComment.Proofs.Declarations

/-!
# What a span in a comment refers to

A span refers to the group of the function whose source is being read, and else to the
group that is current. The group of a function is remembered when an item is declared on
it, and it is forgotten at a line that ends a function. So if the last function above a
comment was not ended by such a line, the spans of the comment refer to that function,
until an item is declared within the comment itself.

The group of a comment is the one that is made when the comment starts. Where is the
reading while that group is current? It is in the comment at first (`Reading.Within`), and
then in source, and it does not come back: what leads from source into a comment makes a
new group (`Reading.Past`). A function that a line declares on that group after the
comment shows that the reading had not passed on before, so within the comment the group
was current all the time.
-/

namespace DocComment

open Text Relation Reader

namespace Group

/-- Whether the group documents a function or a constant, as spans refer to these. -/
def hasItem (g : Group) : Bool :=
  g.function.isSome || g.constant.isSome

theorem hasItem_of_tag {g g' : Group} (h : g'.tag = g.tag) : g'.hasItem = g.hasItem := by
  have hf : g'.function = g.function := item_of_tag h .function
  have hc : g'.constant = g.constant := item_of_tag h .constant
  rw [hasItem, hasItem, hf, hc]

theorem hasItem_mark (g : Group) {x : Item} (hx : x.kind ≠ .param) : (x.mark g).hasItem := by
  cases x with
  | function => rfl
  | constant => exact Bool.or_true _
  | param => exact absurd rfl hx

end Group

theorem GroupId.eq_of_index {i j : GroupId} (h : i.index = j.index) : i = j := by
  cases i
  cases h
  rfl

/-! ## Where the current group is left behind -/

namespace Draft

variable {d e : Draft}

theorem lt_freshGroup (h : Quiet d e) (hd : d.doc.store.Holds d.group) :
    d.group.index < e.freshGroup.group.index := by
  obtain ⟨hheld, hle⟩ := h.group hd
  exact Nat.lt_of_le_of_lt hle hheld

theorem lt_openSection (hd : d.doc.store.Holds d.group) (title : String) :
    d.group.index < (d.openSection title).group.index :=
  lt_freshGroup (quiet_flush d) hd

theorem lt_openTable (h : Quiet d e) (hd : d.doc.store.Holds d.group) (key : String)
    (lead : Option String) : d.group.index < (e.openTable key lead).group.index := by
  rw [openTable]
  exact lt_freshGroup (h.trans (Quiet.trans (quiet_remember rfl) (quiet_addPlaced _ _))) hd

/-- The second draft lists what the first one does, and then spans that refer to the given
group. -/
structure ListsFor (i : GroupId) (d e : Draft) : Prop where
  todos : ∃ new, e.todos = d.todos ++ new ∧ ∀ s ∈ new, s.origin = some i
  fixmes : ∃ new, e.fixmes = d.fixmes ++ new ∧ ∀ s ∈ new, s.origin = some i

namespace ListsFor

variable {f : Draft} {i : GroupId}

theorem of_same (h : SameLists d e) : ListsFor i d e :=
  ⟨⟨[], by rw [h.todos, List.append_nil], fun _ hs => by cases hs⟩,
    ⟨[], by rw [h.fixmes, List.append_nil], fun _ hs => by cases hs⟩⟩

theorem trans (h : ListsFor i d e) (h' : ListsFor i e f) : ListsFor i d f := by
  obtain ⟨⟨todos, htodos, ht⟩, fixmes, hfixmes, hf⟩ := h
  obtain ⟨⟨todos', htodos', ht'⟩, fixmes', hfixmes', hf'⟩ := h'
  refine ⟨⟨todos ++ todos', by rw [htodos', htodos, List.append_assoc], fun s hs => ?_⟩,
    fixmes ++ fixmes', by rw [hfixmes', hfixmes, List.append_assoc], fun s hs => ?_⟩
  · exact (List.mem_append.1 hs).elim (ht s) (ht' s)
  · exact (List.mem_append.1 hs).elim (hf s) (hf' s)

/-- While one group stays current, spans refer to it or to the group of a function. -/
theorem of_quiet (h : Quiet d e) (hd : d.doc.store.Holds d.group) (hgroup : e.group = d.group) :
    ListsFor (d.functionGroup.getD d.group) d e := by
  have horigin {before after : List Span} (hl : ListsBetween d e before after) :
      ∃ new, after = before ++ new ∧
        ∀ s ∈ new, s.origin = some (d.functionGroup.getD d.group) := by
    obtain ⟨new, hafter, hnew⟩ := hl
    refine ⟨new, hafter, fun s hs => ?_⟩
    obtain ⟨i, hi, hbetween⟩ := (hnew s hs).origin
    obtain ⟨hle, hle'⟩ := hbetween hd
    rw [hgroup] at hle'
    rw [hi, GroupId.eq_of_index (Nat.le_antisymm hle' hle)]
  exact ⟨horigin h.todos, horigin h.fixmes⟩

end ListsFor

end Draft

namespace Action

/-- The actions that always leave the current group behind. -/
def renews : Action → Bool
  | newSection | startComment | openTable => true
  | _ => false

theorem lt_of_run {a : Action} {line : Nat} {c : Captures} {d : Draft} {x : Effect}
    (hd : d.doc.store.Holds d.group) (ha : a.renews ∨ x.next ≠ none)
    (h : a.run line c d = .ok x) : d.group.index < x.draft.group.index := by
  obtain ⟨e, next, log⟩ := x
  cases leads_of_run h with
  | applied hplain he =>
      have ha := ha.resolve_right fun hno => hno rfl
      cases a with
      | newSection => exact Except.ok.inj he ▸ Draft.lt_openSection hd _
      | startComment => exact Except.ok.inj he ▸ Draft.lt_freshGroup (.refl d) hd
      | openTable =>
          exact Except.ok.inj he ▸
            Draft.lt_openTable
              ((Draft.quiet_finishCapture d).trans (Draft.quiet_freshIf _ _)) hd _ _
      | _ => cases ha
  | documentedTable => exact Draft.lt_openTable (Draft.quiet_freshIf d _) hd _ _
  | undocumentedTable =>
      exact Draft.lt_openTable
        ((Draft.quiet_finishCapture d).trans (Draft.quiet_freshGroup _)) hd _ _
  | warned | untitled | documentedParam | undocumentedParam =>
      rcases ha with ha | ha
      · cases ha
      · exact absurd rfl ha

end Action

namespace Reading

open Draft

variable {r : Reader} {line : String} {g g' : Reading} {G : GroupId}

/-- Groups become current in the order in which they are made. -/
theorem Enters.group {e : Draft} (he : g.Enters line e) (hg : g.Tracked) :
    e.doc.store.Holds e.group ∧ g.draft.group.index ≤ e.group.index := by
  have hheld := hg.placed.group
  cases he with
  | idle => exact ⟨hheld, Nat.le_refl _⟩
  | acts _ _ h =>
      cases h with
      | quiet _ _ h => exact h.group hheld
      | @declares _ x _ _ hbefore h =>
          obtain ⟨hheld, hle⟩ := hbefore.group hheld
          by_cases hk : x.item.kind = .param
          · obtain ⟨-, hheld', hlt⟩ := h.param hk
            exact ⟨hheld', Nat.le_trans hle (Nat.le_of_lt hlt)⟩
          · obtain ⟨-, hsame⟩ := h.other hk
            exact hsame ▸ ⟨h.held _ hheld, hle⟩
      | @opens _ title _ _ _ h =>
          obtain ⟨hheld, hle⟩ := (calm_openSection g.draft title).group hheld
          obtain ⟨hheld', hle'⟩ := h.group hheld
          exact ⟨hheld', Nat.le_trans hle hle'⟩
      | leaves h => exact h.group hheld
      | switches _ h => exact h.group hheld

theorem Tracked.group_le (hg : g.Tracked) (hr : r.grammar = Dialect.grammar) {again : Bool}
    (h : r.evaluate line g = .ok (g', again)) : g.draft.group.index ≤ g'.draft.group.index := by
  obtain ⟨e, he, hsilent⟩ := hg.enters_evaluate hr h
  obtain ⟨hheld, hle⟩ := he.group hg
  exact Nat.le_trans hle (hsilent.group hheld).2

theorem Tracked.lt_act (hg : g.Tracked) {m : LineMatch} {x : Effect} (hx : act g m = .ok x)
    (hnew : m.rule.action.any Action.renews ∨ x.next ≠ none) :
    g.draft.group.index < x.draft.group.index := by
  rw [act] at hx
  cases ha : m.rule.action with
  | none =>
      rw [ha] at hx hnew
      cases hx
      exact hnew.elim (fun hno => by cases hno) fun hno => absurd rfl hno
  | some a =>
      rw [ha] at hx hnew
      exact Action.lt_of_run hg.placed.group hnew hx

/-- What an action leaves behind is not brought back when the state is changed. -/
theorem Tracked.lt_crossTo (hg : g.Tracked) {m : LineMatch}
    (hm : g.state.matchLine line g.entering = some m) {x : Effect} (hx : act g m = .ok x)
    (hnew : m.rule.action.any Action.renews ∨ x.next ≠ none) {target : String} {s : State}
    (hs : Dialect.grammar.find? target = some s) :
    g.draft.group.index < (g.state.crossTo s x.draft).group.index := by
  obtain ⟨hheld, -⟩ := (hg.enters_act hm hx).group hg
  have hsilent := Dialect.silent_crossTo hg.state (Dialect.mem_of_find? hs) x.draft
  exact Nat.lt_of_lt_of_le (hg.lt_act hx hnew) (hsilent.group hheld).2

end Reading

/-! ## Past the comment -/

/-- A line of source is followed by source, unless it gets a group of its own. -/
theorem Dialect.lua_next :
    ∀ rule ∈ lua.rules, rule.next = .stay ∨ rule.action.any Action.renews := by
  decide

namespace Reading

open Draft

variable {r : Reader} {line : String} {g g' : Reading} {G : GroupId}

/-- The reading is past a comment with the given group. -/
def Past (G : GroupId) (g : Reading) : Prop :=
  G.index < g.draft.group.index ∨ g.draft.group = G ∧ g.state.name = "lua"

theorem Tracked.lua_evaluate (hg : g.Tracked) (hr : r.grammar = Dialect.grammar)
    (hlua : g.state.name = "lua") {again : Bool} (h : r.evaluate line g = .ok (g', again)) :
    g'.state.name = "lua" ∨ g.draft.group.index < g'.draft.group.index := by
  have hstate : g.state = Dialect.lua := hg.in_source hlua
  rcases evaluate_cases h with ⟨-, -, hl⟩ | ⟨m, x, hm, ha, ⟨-, -, hl⟩ | ⟨target, s, ht, hs, hl⟩⟩
  · exact Or.inl (hl.state ▸ hlua)
  · exact Or.inl (hl.state ▸ hlua)
  · right
    rw [hr] at hs
    rw [hl.draft]
    refine hg.lt_crossTo hm ha ?_ hs
    have hmem := State.matchLine_mem hm
    rw [hstate] at hmem
    by_cases hn : x.next = none
    · left
      rcases Dialect.lua_next _ hmem with hstay | hnew
      · rw [hn, hstay] at ht
        cases ht
      · exact hnew
    · exact Or.inr hn

theorem Past.evaluate (hp : g.Past G) (hg : g.Tracked) (hr : r.grammar = Dialect.grammar)
    {again : Bool} (h : r.evaluate line g = .ok (g', again)) : g'.Past G := by
  have hle := hg.group_le hr h
  rcases hp with hlt | ⟨rfl, hlua⟩
  · exact Or.inl (Nat.lt_of_lt_of_le hlt hle)
  · rcases hg.lua_evaluate hr hlua h with hlua | hlt
    · rcases Nat.lt_or_eq_of_le hle with hlt | heq
      · exact Or.inl hlt
      · exact Or.inr ⟨GroupId.eq_of_index heq.symm, hlua⟩
    · exact Or.inl hlt

theorem Past.feed (hp : g.Past G) (hg : g.Tracked) (hr : r.grammar = Dialect.grammar)
    (h : r.feed g line = .ok g') : g'.Past G := by
  refine (evaluateAll_keeps (P := fun g => g.Tracked ∧ g.Past G) ?_
    ⟨hg.nextLine (g.line + 1), hp⟩ h).2
  intro g₁ g₂ again hg₁ he
  exact ⟨(hg₁.1.evaluate hr he).1, hg₁.2.evaluate hg₁.1 hr he⟩

theorem Past.feedAll (hp : g.Past G) (hg : g.Tracked) (hr : r.grammar = Dialect.grammar)
    {lines : List String} (h : r.feedAll g lines = .ok g') : g'.Past G := by
  refine (feedAll_keeps (P := fun g => g.Tracked ∧ g.Past G) ?_ ⟨hg, hp⟩ h).2
  intro g₁ g₂ line hg₁ hf
  exact ⟨(hg₁.1.feed hr hf).1, hg₁.2.feed hg₁.1 hr hf⟩

theorem Past.again (hp : g.Past G) (hg : g.Tracked) (hr : r.grammar = Dialect.grammar)
    (h : ReflTransGen (r.Again line) g g') : g'.Tracked ∧ g'.Past G := by
  induction h with
  | refl => exact ⟨hg, hp⟩
  | tail _ he ih => exact ⟨(ih.1.evaluate hr he).1, ih.2.evaluate ih.1 hr he⟩

end Reading

/-! ## Within the comment -/

/-- The phases of a comment that is not inside a table, up to the line after it. -/
def Phase.inside : Phase → Bool
  | writing | pausing | leaving => true
  | _ => false

/-- Whether a transition names no state but those within a comment. -/
def Transition.inside : Transition → Bool
  | .goTo target _ => target ∈ Dialect.commentStates
  | .stay | .resolve _ => true

/-- Whether a transition leads to source. -/
def Transition.toSource : Transition → Bool
  | .goTo target _ => target = "lua"
  | .stay | .resolve _ => false

/-- A comment that is not inside a table does not lead to one. -/
theorem Resolver.target_of_none {resolver : Resolver} {d : Draft} (hd : d.back = none)
    {target : String} {again : Bool} (h : resolver.target d = (target, again)) :
    target = "end_comment" ∨ target = "lua" := by
  unfold Resolver.target at h
  rw [hd] at h
  cases resolver with
  | afterBlockComment | afterLineComment =>
      cases h
      exact Or.inl rfl
  | afterBlankLine =>
      cases h
      exact Or.inr rfl

theorem Transition.target_of_toSource {t : Transition} (ht : t.toSource) (d : Draft) :
    ∃ again, t.target? d = some ("lua", again) := by
  cases t with
  | stay | resolve => cases ht
  | goTo target again =>
      obtain rfl : target = "lua" := of_decide_eq_true ht
      exact ⟨again, rfl⟩

theorem Transition.target_of_inside {t : Transition} (ht : t.inside) {d : Draft}
    (hd : d.back = none) {target : String} {again : Bool}
    (h : t.target? d = some (target, again)) :
    target = "lua" ∨ target ∈ "end_comment" :: Dialect.commentStates := by
  cases t with
  | stay => cases h
  | goTo =>
      cases h
      exact Or.inr (List.mem_cons_of_mem _ (of_decide_eq_true ht))
  | resolve =>
      rcases Resolver.target_of_none hd (Option.some.inj h) with rfl | rfl
      · exact Or.inr List.mem_cons_self
      · exact Or.inl rfl

namespace Dialect

theorem inside_of_name :
    ∀ s ∈ states, s.name ∈ "end_comment" :: commentStates →
      s.phase.inside ∧ s.exit = none ∧ s.enter = none := by
  decide

theorem exit_of_inside : ∀ s ∈ states, s.phase.inside → s.exit = none := by
  decide

/-- Within a comment actions only write, and the lines after the comment lead to
source. -/
theorem inside_next :
    ∀ s ∈ states, s.phase.inside → ∀ rule ∈ s.rules,
      rule.action ≠ some .endOfFunction ∧ (rule.next.toSource ∨
        rule.next.inside ∧ rule.action.all fun a => a.plain && a.onlyWrites) := by
  decide

end Dialect

namespace Reading

open Draft

variable {r : Reader} {line : String} {g g' : Reading} {G : GroupId} {above : Option GroupId}

/-- The reading is in a comment with the given group, or right after it. The group that
spans refer to is that one if an item was declared on it, and else the one from above. -/
structure Within (G : GroupId) (above : Option GroupId) (g : Reading) : Prop where
  group : g.draft.group = G
  inside : g.state.phase.inside
  back : g.draft.back = none
  recalled : g.draft.functionGroup =
    if (g.draft.doc.store.get G).hasItem then some G else above

theorem frame_act {m : LineMatch} {x : Effect} (h : act g m = .ok x)
    (ha : m.rule.action.all fun a => a.plain && a.onlyWrites) :
    Frame g.draft x.draft ∧ x.next = none := by
  rw [act] at h
  cases hm : m.rule.action with
  | none =>
      rw [hm] at h
      cases h
      exact ⟨.refl _, rfl⟩
  | some a =>
      rw [hm] at h ha
      obtain ⟨hplain, hwrites⟩ := (Bool.and_eq_true _ _).mp ha
      have h : a.run g.line m.captures g.draft = .ok x := h
      rw [Action.run_plain hplain] at h
      cases he : a.apply g.line m.captures g.draft with
      | error f =>
          rw [he] at h
          cases h
      | ok e =>
          rw [he] at h
          cases h
          exact ⟨Action.frame_apply hwrites he, rfl⟩

/-- A state within a comment is entered without further ado. -/
theorem Tracked.enter_inside (hg : g.Tracked) (hin : g.state.phase.inside) {target : String}
    {s : State} (hs : Dialect.grammar.find? target = some s)
    (ht : target ∈ "end_comment" :: Dialect.commentStates) (d : Draft) :
    s.phase.inside ∧ g.state.crossTo s d = d := by
  obtain ⟨hphase, -, henter⟩ := Dialect.inside_of_name s (Dialect.mem_of_find? hs)
    (Dialect.name_of_find? hs ▸ ht)
  refine ⟨hphase, ?_⟩
  rw [State.crossTo, Dialect.exit_of_inside _ hg.state hin, henter]
  rfl

/-- From within a comment a reading stays there or goes on to source, unless it gets to
another group. -/
theorem Tracked.inside_evaluate (hg : g.Tracked) (hr : r.grammar = Dialect.grammar)
    (hin : g.state.phase.inside) (hback : g.draft.back = none) {again : Bool}
    (h : r.evaluate line g = .ok (g', again)) :
    g'.state.phase.inside ∧ g'.draft.back = none ∨ g'.state.name = "lua" ∨
      g.draft.group.index < g'.draft.group.index := by
  rcases evaluate_cases h with ⟨-, -, hl⟩ | ⟨m, x, hm, ha, hcases⟩
  · exact Or.inl ⟨hl.state ▸ hin, hl.draft ▸ hback⟩
  rw [hr] at hcases
  by_cases hnone : x.next = none
  · rw [hnone, Option.getD_none] at hcases
    obtain ⟨-, hsource | ⟨hnext, hwrites⟩⟩ :=
      Dialect.inside_next _ hg.state hin _ (State.matchLine_mem hm)
    · obtain ⟨again', hlua⟩ := Transition.target_of_toSource hsource x.draft
      rcases hcases with ⟨ht, -, -⟩ | ⟨target, s, ht, hs, hl⟩
      · cases hlua.symm.trans ht
      · cases hlua.symm.trans ht
        exact Or.inr (Or.inl (by rw [hl.state]; exact Dialect.name_of_find? hs))
    · have hx : x.draft.back = none := (frame_act ha hwrites).1.back.trans hback
      rcases hcases with ⟨-, -, hl⟩ | ⟨target, s, ht, hs, hl⟩
      · exact Or.inl ⟨hl.state ▸ hin, hl.draft ▸ hx⟩
      · rcases Transition.target_of_inside hnext hx ht with rfl | htarget
        · exact Or.inr (Or.inl (by rw [hl.state]; exact Dialect.name_of_find? hs))
        · obtain ⟨hphase, hdraft⟩ := hg.enter_inside hin hs htarget x.draft
          exact Or.inl ⟨hl.state ▸ hphase, by rw [hl.draft]; exact hdraft.symm ▸ hx⟩
  · -- the action goes on to a table, where it is not the current group any more
    right; right
    rcases hcases with ⟨-, -, hl⟩ | ⟨target, s, -, hs, hl⟩
    · exact hl.draft ▸ hg.lt_act ha (Or.inr hnone)
    · exact hl.draft ▸ hg.lt_crossTo hm ha (Or.inr hnone) hs

/-- What a line within a comment does while the group of the comment stays current. -/
theorem Enters.recalled {e : Draft} (he : g.Enters line e) (hg : g.Tracked)
    (hw : g.Within G above) (hgroup : e.group = G) :
    e.functionGroup = (if (e.doc.store.get G).hasItem then some G else above) ∧
      ListsFor (g.draft.functionGroup.getD G) g.draft e := by
  obtain ⟨rfl, hin, -, hrecalled⟩ := hw
  have hheld := hg.placed.group
  have hquiet {d e : Draft} (h : Quiet d e) (hd : d.doc.store.Holds d.group)
      (hgroup : e.group = d.group) (hrecalled : d.functionGroup =
        if (d.doc.store.get d.group).hasItem then some d.group else above) :
      e.functionGroup = (if (e.doc.store.get d.group).hasItem then some d.group else above) ∧
        ListsFor (d.functionGroup.getD d.group) d e := by
    rw [Group.hasItem_of_tag (h.tags d.group), h.functionGroup]
    exact ⟨hrecalled, .of_quiet h hd hgroup⟩
  cases he with
  | idle => exact ⟨hrecalled, .of_same (.refl _)⟩
  | @acts m a _ hm ha h =>
      cases h with
      | quiet _ _ h => exact hquiet h hheld hgroup hrecalled
      | @declares _ x _ _ hbefore h =>
          obtain ⟨hheld', hle⟩ := hbefore.group hheld
          -- a parameter would leave the group behind
          have hk : x.item.kind ≠ .param := fun hk => by
            have hlt := (h.param hk).2.2
            rw [hgroup] at hlt
            omega
          obtain ⟨hfunction, hsame⟩ := h.other hk
          have hx : x.draft.group = g.draft.group := hsame.symm.trans hgroup
          have hlists := ListsFor.of_quiet hbefore hheld hx
          refine ⟨?_, by rw [h.todos]; exact hlists.todos, by rw [h.fixmes]; exact hlists.fixmes⟩
          have htag := h.tags g.draft.group
          rw [if_pos hx.symm] at htag
          rw [hfunction, Group.hasItem_of_tag htag, Group.hasItem_mark _ hk, hx, if_pos rfl]
      | @opens _ title _ _ _ h =>
          have hlt := lt_openSection hheld title
          obtain ⟨-, hle⟩ := h.group ((calm_openSection g.draft title).group hheld).1
          rw [hgroup] at hle
          omega
      | leaves =>
          exact absurd ha (Dialect.inside_next _ hg.state hin _ (State.matchLine_mem hm)).1
      | switches _ h =>
          obtain ⟨hfunction, hlists⟩ := hquiet h hheld hgroup hrecalled
          exact ⟨hfunction, hlists.todos, hlists.fixmes⟩

/-- From within a comment the reading went on in it, and its spans refer to what was
recalled, or it went past it. -/
def Proceeds (G : GroupId) (above : Option GroupId) (g g' : Reading) : Prop :=
  g'.Past G ∨ g'.Within G above ∧ ListsFor (g.draft.functionGroup.getD G) g.draft g'.draft

theorem Within.evaluate (hw : g.Within G above) (hg : g.Tracked) (hr : r.grammar = Dialect.grammar)
    {again : Bool} (h : r.evaluate line g = .ok (g', again)) : Proceeds G above g g' := by
  obtain ⟨e, he, hsilent⟩ := hg.enters_evaluate hr h
  obtain ⟨hheld, hle⟩ := he.group hg
  have hle' := (hsilent.group hheld).2
  rw [hw.group] at hle
  rcases Nat.lt_or_eq_of_le (Nat.le_trans hle hle') with hlt | heq
  · exact Or.inl (Or.inl hlt)
  have hgroup : g'.draft.group = G := GroupId.eq_of_index heq.symm
  have hgroup' : e.group = G := GroupId.eq_of_index (by omega)
  rcases hg.inside_evaluate hr hw.inside hw.back h with ⟨hin, hback⟩ | hlua | hlt
  · right
    obtain ⟨hrecalled, hlists⟩ := he.recalled hg hw hgroup'
    refine ⟨⟨hgroup, hin, hback, ?_⟩, hlists.trans (.of_same hsilent.lists)⟩
    rw [Group.hasItem_of_tag (hsilent.tags G), hsilent.functionGroup]
    exact hrecalled
  · exact Or.inl (Or.inr ⟨hgroup, hlua⟩)
  · rw [hw.group] at hlt
    exact Or.inl (Or.inl (hgroup ▸ hlt))

theorem Proceeds.evaluate {k : Reading} (h : Proceeds G above g k) (hk : k.Tracked)
    (hfunction : k.draft.functionGroup = g.draft.functionGroup) (hr : r.grammar = Dialect.grammar)
    {again : Bool} (he : r.evaluate line k = .ok (g', again)) : Proceeds G above g g' := by
  rcases h with hp | ⟨hw, hlists⟩
  · exact Or.inl (hp.evaluate hk hr he)
  · exact (hw.evaluate hk hr he).imp_right fun ⟨hw', hlists'⟩ =>
      ⟨hw', hlists.trans (hfunction ▸ hlists')⟩

/-- However often a line is evaluated, what is recalled does not change before the last
time. -/
theorem Proceeds.evaluateAll {k : Reading} (h : Proceeds G above g k) (hk : k.Tracked)
    (hfunction : k.draft.functionGroup = g.draft.functionGroup) (hr : r.grammar = Dialect.grammar)
    {left : Nat} (he : r.evaluateAll line left k = .ok g') : Proceeds G above g g' := by
  refine Reader.evaluateAll_leads (Q := Proceeds G above g)
    (P := fun k => k.Tracked ∧ k.draft.functionGroup = g.draft.functionGroup ∧
      Proceeds G above g k) ?_ (fun hk he => hk.2.2.evaluate hk.1 hk.2.1 hr he)
    ⟨hk, hfunction, h⟩ he
  rintro k k' ⟨hk, hfunction, h⟩ he
  exact ⟨(hk.evaluate hr he).1, (hk.calm_again hr he).functionGroup.trans hfunction,
    h.evaluate hk hfunction hr he⟩

theorem Within.feed (hw : g.Within G above) (hg : g.Tracked) (hr : r.grammar = Dialect.grammar)
    (h : r.feed g line = .ok g') : Proceeds G above g g' := by
  have hstart : Proceeds G above g { g with line := g.line + 1 } :=
    Or.inr ⟨⟨hw.group, hw.inside, hw.back, hw.recalled⟩, .of_same (.refl _)⟩
  exact hstart.evaluateAll (hg.nextLine _) rfl hr h

theorem Within.feedAll (hw : g.Within G above) (hg : g.Tracked) (hr : r.grammar = Dialect.grammar)
    {lines : List String} (h : r.feedAll g lines = .ok g') : g'.Past G ∨ g'.Within G above := by
  refine (feedAll_keeps (P := fun g => g.Tracked ∧ (g.Past G ∨ g.Within G above)) ?_
    ⟨hg, Or.inr hw⟩ h).2
  rintro g₁ g₂ line ⟨hg₁, hcases⟩ hf
  refine ⟨(hg₁.feed hr hf).1, ?_⟩
  rcases hcases with hp | hw
  · exact Or.inl (hp.feed hg₁ hr hf)
  · exact (hw.feed hg₁ hr hf).imp_right And.left

end Reading

/-! ## The start of the comment -/

theorem Dialect.startComment_next :
    ∀ rule ∈ lua.rules, rule.action = some .startComment →
      rule.next = .goTo "group" true ∨ rule.next = .goTo "mgroup" false := by
  decide

namespace Reading

open Draft

variable {r : Reader} {line : String} {g g' : Reading}

/-- The reading is in source, and the line starts a comment. -/
structure Starts (g : Reading) (line : String) : Prop where
  source : g.state.name = "lua"
  starts : ∃ m, g.state.matchLine (dropLineEnd line) g.entering = some m ∧
    m.rule.action = some .startComment

instance {g : Reading} {line : String} : Decidable (g.Starts line) :=
  decidable_of_iff (g.state.name = "lua" ∧ (g.state.matchLine (dropLineEnd line) g.entering).any
      fun m => m.rule.action = some .startComment)
    ⟨fun ⟨hlua, hm⟩ => ⟨hlua, by simpa [Option.any_eq_true] using hm⟩,
      fun ⟨hlua, hm⟩ => ⟨hlua, by simpa [Option.any_eq_true] using hm⟩⟩

theorem Starts.evaluate (hs : g.Starts line) (hg : g.Tracked) (hr : r.grammar = Dialect.grammar)
    {again : Bool} (h : r.evaluate (dropLineEnd line) g = .ok (g', again)) :
    g'.Within g.draft.doc.store.nextId g.draft.functionGroup ∧ SameLists g.draft g'.draft ∧
      g'.draft.functionGroup = g.draft.functionGroup := by
  obtain ⟨hlua, m, hm, ha⟩ := hs
  have hstate : g.state = Dialect.lua := hg.in_source hlua
  have hnext := Dialect.startComment_next m.rule (hstate ▸ State.matchLine_mem hm) ha
  rcases evaluate_cases h with ⟨hno, -, -⟩ | ⟨m', x, hm', hx, hcases⟩
  · rw [hm] at hno
    cases hno
  obtain rfl : m = m' := Option.some.inj (hm.symm.trans hm')
  rw [act, ha] at hx
  cases hx
  rcases hcases with ⟨ht, -, -⟩ | ⟨target, s, ht, hs, hl⟩
  · rcases hnext with hnext | hnext <;> rw [hnext] at ht <;> cases ht
  have hmem : target ∈ "end_comment" :: Dialect.commentStates := by
    rcases hnext with hnext | hnext <;> rw [hnext] at ht <;> cases ht <;> decide
  rw [hr] at hs
  obtain ⟨hphase, -, henter⟩ := Dialect.inside_of_name s (Dialect.mem_of_find? hs)
    (Dialect.name_of_find? hs ▸ hmem)
  have hdraft : g'.draft = g.draft.freshGroup.finishCapture := by
    rw [hl.draft, State.crossTo, hstate, henter]
    rfl
  have hsilent : Silent g.draft.freshGroup g'.draft := hdraft ▸ silent_finishCapture _
  have huntabled := hg.consistent.untabled (hlua ▸ by decide)
  have hlists := hsilent.lists
  refine ⟨⟨?_, hl.state ▸ hphase, ?_, ?_⟩,
    ⟨hlists.todos, hlists.fixmes, hlists.told, hlists.todo, hlists.fixme⟩, hsilent.functionGroup⟩
  · rw [hdraft, finishCapture_group]
    rfl
  · rw [hdraft, (frame_finishCapture _).back]
    exact huntabled.2
  · rw [hsilent.functionGroup, Group.hasItem_of_tag (hsilent.tags _),
      Group.hasItem_of_tag ((quiet_freshGroup g.draft).tags _),
      GroupStore.get_of_not_holds (GroupStore.not_holds_nextId _)]
    rfl

theorem Starts.feed (hs : g.Starts line) (hg : g.Tracked) (hr : r.grammar = Dialect.grammar)
    (h : r.feed g line = .ok g') :
    g'.Past g.draft.doc.store.nextId ∨
      g'.Within g.draft.doc.store.nextId g.draft.functionGroup ∧
        ListsFor (g.draft.functionGroup.getD g.draft.doc.store.nextId) g.draft g'.draft := by
  have hs' : Starts { g with line := g.line + 1 } line := ⟨hs.source, hs.starts⟩
  have hg' := hg.nextLine (g.line + 1)
  rcases evaluateAll_cases h with he | ⟨k, left, he, hk⟩
  · obtain ⟨hw, hlists, -⟩ := hs'.evaluate hg' hr he
    exact Or.inr ⟨hw, .of_same hlists⟩
  · obtain ⟨hw, hlists, hfunction⟩ := hs'.evaluate hg' hr he
    have hk' := (hg'.evaluate hr he).1
    have hstart : Proceeds g.draft.doc.store.nextId g.draft.functionGroup k k :=
      Or.inr ⟨hw, .of_same (.refl _)⟩
    refine (hstart.evaluateAll hk' rfl hr hk).imp_right fun ⟨hw', hlists'⟩ => ⟨hw', ?_⟩
    exact (ListsFor.of_same hlists).trans (hfunction ▸ hlists')

end Reading

/-! ## The function after the comment -/

/-- Only the line right after a comment may declare a function that the comment
documents. -/
theorem Dialect.not_documentedFunction :
    ∀ rule ∈ lua.rules, rule.action ≠ some .documentedFunction := by
  decide

/-- The evaluation of a line that makes the declaration. -/
theorem Reader.exists_of_declared? {r : Reader} {g : Reading} {line : String} {x : Declaration}
    (h : r.declared? g line = some x) :
    ∃ g₁ g', ReflTransGen (r.Again (dropLineEnd line)) { g with line := g.line + 1 } g₁ ∧
      r.evaluate (dropLineEnd line) g₁ = .ok (g', false) ∧
      g₁.declared? (dropLineEnd line) = some x := by
  have hwithin {line : String} {left : Nat} {g : Reading}
      (h : r.declaredWithin line left g = some x) :
      ∃ g₁ g', ReflTransGen (r.Again line) g g₁ ∧ r.evaluate line g₁ = .ok (g', false) ∧
        g₁.declared? line = some x := by
    induction left generalizing g with
    | zero =>
        unfold declaredWithin at h
        split at h
        · cases h
        · next he => exact ⟨g, _, .refl, he, h⟩
        · cases h
    | succ left ih =>
        unfold declaredWithin at h
        split at h
        · cases h
        · next he => exact ⟨g, _, .refl, he, h⟩
        · next he =>
            obtain ⟨g₁, g', hagain, hdone, hx⟩ := ih h
            exact ⟨g₁, g', .head he hagain, hdone, hx⟩
  exact hwithin h

namespace Reading

open Draft

variable {r : Reader} {line : String} {g g' : Reading} {G : GroupId}

/-- A function that is documented by the group of a comment comes right after the
comment. -/
theorem Past.not_documents (hp : g.Past G) (hg : g.Tracked) (hr : r.grammar = Dialect.grammar)
    {x : Declaration} (hx : r.declared? g line = some x) (ha : x.action = .documentedFunction) :
    x.group ≠ G := by
  rintro rfl
  obtain ⟨g₁, g', hagain, he, hx⟩ := exists_of_declared? hx
  have hnext : Past x.group { g with line := g.line + 1 } := hp
  obtain ⟨hg₁, hp₁⟩ := hnext.again (hg.nextLine _) hr hagain
  obtain ⟨e, henters, -⟩ := hg₁.enters_evaluate hr he
  have hmakes := henters.makes hg₁.toCoherent hx
  rcases hp₁ with hlt | ⟨-, hlua⟩
  · have hle := (hmakes.before.group hg₁.placed.group).2
    exact absurd hlt (Nat.not_lt.2 hle)
  · obtain ⟨m, hm, hrule, -⟩ := hmakes.offered
    have hstate : g₁.state = Dialect.lua := hg₁.in_source hlua
    exact Dialect.not_documentedFunction m.rule (hstate ▸ State.matchLine_mem hm) (ha ▸ hrule)

/-- The group that spans refer to is in a section. -/
structure Recalls (g : Reading) : Prop extends Tracked g where
  placed_function : ∀ i, g.draft.functionGroup = some i → i ∈ g.draft.placed

theorem Recalls.evaluate (hg : g.Recalls) (hr : r.grammar = Dialect.grammar) {again : Bool}
    (h : r.evaluate line g = .ok (g', again)) : g'.Recalls := by
  obtain ⟨hg', hgrows⟩ := hg.toTracked.evaluate hr h
  obtain ⟨e, he, hsilent⟩ := hg.enters_evaluate hr h
  refine ⟨hg', fun i hi => ?_⟩
  rw [hsilent.functionGroup] at hi
  have hkept : e.functionGroup = g.draft.functionGroup → i ∈ g'.draft.placed := fun hsame =>
    hgrows.placed.subset (hg.placed_function i (hsame ▸ hi))
  cases hx : g.declared? line with
  | some x =>
      have hmakes := he.makes hg.toCoherent hx
      by_cases hk : x.item.kind = .param
      · exact hkept ((hmakes.declared.param hk).1.trans hmakes.before.functionGroup)
      · rw [(hmakes.declared.other hk).1] at hi
        cases hi
        exact hsilent.grows.placed.subset (hmakes.declared.placed hmakes.opened)
  | none =>
      cases he with
      | idle => exact hkept rfl
      | acts hm ha h =>
          cases h with
          | quiet _ _ h => exact hkept h.functionGroup
          | declares hy =>
              rw [declared?_of_match hm ha, hy] at hx
              cases hx
          | @opens _ title _ _ _ h =>
              exact hkept (h.functionGroup.trans (calm_openSection g.draft title).functionGroup)
          | leaves h =>
              rw [h.functionGroup] at hi
              cases hi
          | switches _ h => exact hkept h.functionGroup

end Reading

/-- Wherever a reader comes to, it keeps track of groups. -/
theorem Reader.Reaches.recalls {r : Reader} (hr : r.grammar = Dialect.grammar) {g₀ g : Reading}
    (h₀ : g₀.Recalls) (h : r.Reaches g₀ g) : g.Recalls := by
  have hnext {g : Reading} (hg : g.Recalls) : Reading.Recalls { g with line := g.line + 1 } :=
    ⟨hg.nextLine _, hg.placed_function⟩
  induction h with
  | start => exact h₀
  | read _ hf ih =>
      exact evaluateAll_keeps (fun hg he => Reading.Recalls.evaluate hg hr he) (hnext ih) hf
  | amid _ hs ih =>
      induction hs with
      | refl => exact hnext ih
      | tail _ he ih => exact ih.evaluate hr he

/-- The first reading of a document without sections and lists. -/
theorem Reader.recalls_of_start {r : Reader} (hr : r.grammar = Dialect.grammar) {doc : Document}
    (hdoc : doc.sections = []) (htodo : doc.todo = none) (hfixme : doc.fixme = none)
    {file : Option String} {language : String} {options : List String} {g₀ : Reading}
    (h₀ : r.start Dialect.initial (Draft.start doc file language options) = .ok g₀) :
    g₀.Recalls := by
  have hg := coherent_of_start hr hdoc h₀
  rw [Reader.start, hr] at h₀
  cases h₀
  have hplaced : (Draft.start doc file language options).placed = [] := by
    show (doc.sections ++ []).flatMap _ = []
    rw [hdoc]
    rfl
  refine ⟨⟨hg, ?_, htodo, hfixme, GroupStore.holds_insert.2 (Or.inr rfl), ?_, ?_⟩, ?_⟩
  · show GroupStore.Lists _ (Draft.start doc file language options).placed
    rw [hplaced]
    exact ⟨fun i hi => (by cases hi), List.nodup_nil⟩
  · intro hi
    have hi : _ ∈ (Draft.start doc file language options).placed := hi
    rw [hplaced] at hi
    cases hi
  · rintro s ⟨⟩
  · rintro i ⟨⟩

/-! ## The spans of the comment -/

/-- The lines are a comment that starts in source, and the line after them declares a
function on the group of the comment, which is the one that is made when the comment
starts. -/
structure Reader.DocumentsFunction (r : Reader) (g : Reading) (opening : String)
    (lines : List String) (line : String) : Prop where
  starts : g.Starts opening
  documents : ∃ h x, r.feedAll g (opening :: lines) = .ok h ∧ r.declared? h line = some x ∧
    x.action = .documentedFunction ∧ x.group = g.draft.doc.store.nextId

instance {r : Reader} {g : Reading} {opening line : String} {lines : List String} :
    Decidable (r.DocumentsFunction g opening lines line) :=
  decidable_of_iff (g.Starts opening ∧ (r.feedAll g (opening :: lines)).toOption.any fun h =>
      (r.declared? h line).any fun x =>
        x.action = .documentedFunction ∧ x.group = g.draft.doc.store.nextId) <| by
    constructor
    · rintro ⟨hs, hdoc⟩
      cases hk : r.feedAll g (opening :: lines) with
      | error f =>
          rw [hk] at hdoc
          cases hdoc
      | ok k =>
          rw [hk] at hdoc
          have hdoc : (r.declared? k line).any _ := hdoc
          obtain ⟨x, hx, hdoc⟩ := (Option.any_eq_true _ _).1 hdoc
          obtain ⟨ha, hgroup⟩ := of_decide_eq_true hdoc
          exact ⟨hs, k, x, hk, hx, ha, hgroup⟩
    · rintro ⟨hs, k, x, hk, hx, ha, hgroup⟩
      refine ⟨hs, ?_⟩
      rw [hk]
      show (r.declared? k line).any _
      exact (Option.any_eq_true _ _).2 ⟨x, hx, decide_eq_true ⟨ha, hgroup⟩⟩

/-- The lines of the comment are read within it. -/
theorem Reader.DocumentsFunction.recalled {r : Reader} (hr : r.grammar = Dialect.grammar)
    {g : Reading} (hg : g.Tracked) {opening line : String} {lines : List String}
    (hc : r.DocumentsFunction g opening lines line) {pre post : List String} {l : String}
    (hsplit : opening :: lines = pre ++ l :: post) {a b : Reading} (ha : r.feedAll g pre = .ok a)
    (hb : r.feed a l = .ok b) :
    Draft.ListsFor ((if (a.draft.doc.store.get g.draft.doc.store.nextId).hasItem then
      some g.draft.doc.store.nextId else g.draft.functionGroup).getD g.draft.doc.store.nextId)
      a.draft b.draft := by
  obtain ⟨hs, k, x, hk, hx, haction, hgroup⟩ := hc
  have ha' := (hg.feedAll hr ha).1
  have hb' := (ha'.feed hr hb).1
  rw [hsplit, feedAll_append, ha] at hk
  have hk : r.feedAll a (l :: post) = .ok k := hk
  rw [feedAll_cons, hb] at hk
  have hk : r.feedAll b post = .ok k := hk
  -- the function after the comment shows that the reading was not past it before
  have hpast : ¬ b.Past g.draft.doc.store.nextId := fun hp =>
    (hp.feedAll hb' hr hk).not_documents (hb'.feedAll hr hk).1 hr hx haction hgroup
  cases pre with
  | nil =>
      cases ha
      obtain ⟨rfl, -⟩ := List.cons.inj hsplit
      rw [GroupStore.get_of_not_holds (GroupStore.not_holds_nextId _)]
      exact ((hs.feed hg hr hb).resolve_left hpast).2
  | cons p pre =>
      obtain ⟨rfl, -⟩ := List.cons.inj hsplit
      rw [feedAll_cons] at ha
      obtain ⟨g₁, hopening, ha⟩ := ok_of_bind ha
      have hg₁ := (hg.feed hr hopening).1
      have hpast' : ¬ a.Past g.draft.doc.store.nextId := fun hp => hpast (hp.feed ha' hr hb)
      obtain ⟨hw₁, -⟩ := (hs.feed hg hr hopening).resolve_left fun hp =>
        hpast' (hp.feedAll hg₁ hr ha)
      have hw := (hw₁.feedAll hg₁ hr ha).resolve_left hpast'
      rw [← hw.recalled]
      exact ((hw.feed ha' hr hb).resolve_left hpast).2

/-- From wherever in source a comment starts that documents a function: the spans that a
line of the comment lists refer to the group of the comment if and only if no function
above was left open, or an item was declared within the comment before. If not, they refer
to the function that was left open. -/
theorem comment_spans_refer {r : Reader} (hr : r.grammar = Dialect.grammar) {doc : Document}
    (hdoc : doc.sections = []) (htodo : doc.todo = none) (hfixme : doc.fixme = none)
    {file : Option String} {language : String} {options : List String} {g₀ g : Reading}
    (h₀ : r.start Dialect.initial (Draft.start doc file language options) = .ok g₀)
    (h : r.Reaches g₀ g) {opening line : String} {lines : List String}
    (hc : r.DocumentsFunction g opening lines line) {pre post : List String} {l : String}
    (hsplit : opening :: lines = pre ++ l :: post) {a b : Reading} (ha : r.feedAll g pre = .ok a)
    (hb : r.feed a l = .ok b) :
    ∃ i, Draft.ListsFor i a.draft b.draft ∧
      (i = g.draft.doc.store.nextId ↔ g.draft.functionGroup = none ∨
        (a.draft.doc.store.get g.draft.doc.store.nextId).hasItem) ∧
      (i ≠ g.draft.doc.store.nextId → g.draft.functionGroup = some i) := by
  have hg := h.recalls hr (recalls_of_start hr hdoc htodo hfixme h₀)
  refine ⟨_, hc.recalled hr hg.toTracked hsplit ha hb, ?_⟩
  cases hitem : (a.draft.doc.store.get g.draft.doc.store.nextId).hasItem with
  | true => simp
  | false =>
      cases hf : g.draft.functionGroup with
      | none => simp
      | some j =>
          have hheld := hg.placed.lists.held j (hg.placed_function j hf)
          have hne : j ≠ g.draft.doc.store.nextId := fun heq =>
            GroupStore.not_holds_nextId _ (heq ▸ hheld)
          simp [hne]

/-- A comment after no function. -/
theorem comment_spans_refer_first :
    ∃ g₀ g a b, ({} : Reader).start Dialect.initial
        (Draft.start (Document.new "d" none none) none "js" []) = .ok g₀ ∧
      ({} : Reader).feedAll g₀ ["// # T", ""] = .ok g ∧
      ({} : Reader).DocumentsFunction g "// x" ["// TODO fix"] "lib.b = function() \x7b" ∧
      ({} : Reader).feedAll g ["// x"] = .ok a ∧ ({} : Reader).feed a "// TODO fix" = .ok b ∧
      b.draft.todos.length = a.draft.todos.length + 1 ∧
      Draft.ListsFor g.draft.doc.store.nextId a.draft b.draft := by
  let run : Except Fault (Reading × Reading × Reading × Reading) := do
    let g₀ ← ({} : Reader).start Dialect.initial
      (Draft.start (Document.new "d" none none) none "js" [])
    let g ← ({} : Reader).feedAll g₀ ["// # T", ""]
    let a ← ({} : Reader).feedAll g ["// x"]
    let b ← ({} : Reader).feed a "// TODO fix"
    return (g₀, g, a, b)
  have hrun : run.toOption.any fun (_, g, a, b) =>
      ({} : Reader).DocumentsFunction g "// x" ["// TODO fix"] "lib.b = function() \x7b" ∧
        b.draft.todos.length = a.draft.todos.length + 1 ∧ g.draft.functionGroup = none := by
    decide +kernel
  cases hread : run with
  | error f =>
      rw [hread] at hrun
      cases hrun
  | ok x =>
      rw [hread] at hrun
      obtain ⟨g₀, h₀, hread⟩ := ok_of_bind hread
      obtain ⟨g, hg, hread⟩ := ok_of_bind hread
      obtain ⟨a, ha, hread⟩ := ok_of_bind hread
      obtain ⟨b, hb, hread⟩ := ok_of_bind hread
      cases hread
      obtain ⟨hc, hlisted, hnone⟩ := of_decide_eq_true hrun
      have hsplit : ["// x", "// TODO fix"] = ["// x"] ++ "// TODO fix" :: [] := rfl
      obtain ⟨i, hlists, hi, -⟩ :=
        comment_spans_refer rfl rfl rfl rfl h₀ (.of_feedAll hg) hc hsplit ha hb
      exact ⟨g₀, g, a, b, h₀, hg, hc, ha, hb, hlisted, hi.2 (Or.inl hnone) ▸ hlists⟩

/-- A function on one line is not ended, and the span in the comment of the next one
refers to it. -/
theorem comment_span_refers_above :
    ∃ g₀ g a b s, ({} : Reader).start Dialect.initial
        (Draft.start (Document.new "d" none none) none "js" []) = .ok g₀ ∧
      ({} : Reader).feedAll g₀ ["// # T", "", "lib.a = function() \x7b\x7d"] = .ok g ∧
      ({} : Reader).DocumentsFunction g "// x" ["// TODO fix"] "lib.b = function() \x7b" ∧
      ({} : Reader).feedAll g ["// x"] = .ok a ∧ ({} : Reader).feed a "// TODO fix" = .ok b ∧
      b.draft.todos.drop a.draft.todos.length = [s] ∧
      s.origin ≠ some g.draft.doc.store.nextId ∧
      ∀ i ∈ s.origin, (b.draft.doc.store.get i).function = some "a" := by
  let run : Except Fault (Reading × Reading × Reading × Reading) := do
    let g₀ ← ({} : Reader).start Dialect.initial
      (Draft.start (Document.new "d" none none) none "js" [])
    let g ← ({} : Reader).feedAll g₀ ["// # T", "", "lib.a = function() \x7b\x7d"]
    let a ← ({} : Reader).feedAll g ["// x"]
    let b ← ({} : Reader).feed a "// TODO fix"
    return (g₀, g, a, b)
  have hrun : run.toOption.any fun (_, g, a, b) =>
      ({} : Reader).DocumentsFunction g "// x" ["// TODO fix"] "lib.b = function() \x7b" ∧
        ∃ s ∈ (b.draft.todos.drop a.draft.todos.length).head?,
          b.draft.todos.drop a.draft.todos.length = [s] ∧
          s.origin ≠ some g.draft.doc.store.nextId ∧
          ∀ i ∈ s.origin, (b.draft.doc.store.get i).function = some "a" := by
    decide +kernel
  cases hread : run with
  | error f =>
      rw [hread] at hrun
      cases hrun
  | ok x =>
      rw [hread] at hrun
      obtain ⟨g₀, h₀, hread⟩ := ok_of_bind hread
      obtain ⟨g, hg, hread⟩ := ok_of_bind hread
      obtain ⟨a, ha, hread⟩ := ok_of_bind hread
      obtain ⟨b, hb, hread⟩ := ok_of_bind hread
      cases hread
      obtain ⟨hc, s, -, hlisted, hrefers⟩ := of_decide_eq_true hrun
      exact ⟨g₀, g, a, b, s, h₀, hg, hc, ha, hb, hlisted, hrefers⟩

end DocComment
