import DocComment.Proofs.LooseDrafts
import DocComment.Proofs.ShownItems

/-!
# What is written about an item

Nobody has to write about an item in one go. When it is declared, its group may have
entries already, the last of them may still be pending, and further lines may add to it.
What is there at that moment stays (`Draft.Told`): entries stay if they do not end in
`nodoc`, and a pending entry gets into its group sooner or later. Between two comments
nothing is pending, and within one the current group is only left after what is pending
was put into it. So it is enough to look at the actions of comments (`Draft.Told.apply`);
everything else is growth.

The group of a parameter is left for good when the parameter is declared, so nothing is
added to it either. It shows in the end exactly what was there (`Draft.Left`).
-/

namespace DocComment

open Text Relation Reader

/-! ## Entries that stay entries -/

theorem joinText_ne_nodoc {t : String} (ht : t ≠ "") (text : String) (onNewLine : Bool) :
    joinText (some t) text onNewLine ≠ "" ∧ joinText (some t) text onNewLine ≠ "nodoc" := by
  have hsep : ' ' ∈ (joinText (some t) text onNewLine).toList ∨
      '\n' ∈ (joinText (some t) text onNewLine).toList := by
    cases onNewLine with
    | true => exact Or.inr (by simp [joinText])
    | false => exact Or.inl (by simp [joinText, filled_of_ne ht])
  constructor <;> intro h <;> rw [h] at hsep <;> revert hsep <;> decide

namespace Entry

/-- Whether no line that goes on with the entry makes it say `nodoc`. -/
def lasts : Entry → Bool
  | paragraph p => p.text.any fun t => t ≠ "" && t ≠ "nodoc"
  | _ => true

theorem lasts_extend {e e' : Entry} (h : e.lasts) {text : String} {onNewLine : Bool}
    (hx : e.extend text onNewLine = .ok e') : e'.lasts := by
  cases e with
  | heading | edge | blank => cases hx
  | span | formula | code | list =>
      cases hx
      rfl
  | paragraph p =>
      cases hx
      cases ht : p.text with
      | none => simp [lasts, ht] at h
      | some t =>
          have hne : t ≠ "" := by
            have ht : t ≠ "" ∧ t ≠ "nodoc" := by simpa [lasts, ht] using h
            exact ht.1
          have hjoin := joinText_ne_nodoc hne text onNewLine
          simp [lasts, hjoin]

theorem not_isNodoc_of_lasts {e : Entry} (h : e.lasts) : ¬ e.isNodoc := by
  cases e with
  | paragraph p =>
      cases ht : p.text with
      | none => simp [lasts, ht] at h
      | some t =>
          have ht' : t ≠ "" ∧ t ≠ "nodoc" := by simpa [lasts, ht] using h
          simp [isNodoc, ht, ht'.2]
  | _ => exact Bool.false_ne_true

theorem isNodoc_settled (e : Entry) : e.settled.isNodoc = e.isNodoc := by
  cases e <;> rfl

end Entry

/-! ## Drafts -/

namespace Draft

/-- Something is written about the group, and it will stay there. -/
inductive Told (i : GroupId) (d : Draft) : Prop where
  | shown {kept : List Entry} (hk : kept ≠ []) (h : d.doc.store.Shows i kept) : Told i d
  /-- The group is the current one, and what is pending will be added to it. -/
  | pending {p : Entry} (hheld : d.doc.store.Holds i) (hgroup : d.group = i)
      (hp : d.pending = some p) (hl : p.lasts)
      (hlast : ¬ (d.doc.store.get i).entries.getLast?.any Entry.isNodoc) : Told i d

variable {d e : Draft} {i : GroupId}

namespace Told

theorem of_grows (h : Told i d) (hp : d.pending = none) (hg : Grows d e) : Told i e := by
  cases h with
  | shown hk h => exact .shown hk (hg.entries _ _ h)
  | pending _ _ hsome =>
      rw [hp] at hsome
      cases hsome

theorem flush (h : Told i d) : Told i d.flush := by
  cases h with
  | shown hk h => exact .shown hk ((grows_flush d).entries _ _ h)
  | @pending p hheld hgroup hp hl hlast =>
      have hentries : (d.flush.doc.store.get i).entries =
          (d.doc.store.get i).entries ++ [p.settled] := by
        rw [Draft.flush, hp, ← hgroup]
        exact congrArg Group.entries (GroupStore.get_update_self (hgroup ▸ hheld) _)
      have hk : (d.doc.store.get i).entries ++ [p.settled] ≠ [] := by simp
      refine .shown hk ⟨hentries ▸ List.prefix_refl _, ?_⟩
      rw [List.getLast?_concat, Option.any_some]
      exact Entry.isNodoc_settled p ▸ Entry.not_isNodoc_of_lasts hl

/-- What is pending is put into the group before anything else happens. -/
theorem after_flush (h : Told i d) (hg : Grows d.flush e) : Told i e :=
  h.flush.of_grows (flush_pending d) hg

theorem grows_pending (d : Draft) (p : Option Entry) : Grows d { d with pending := p } :=
  .of_rest ⟨rfl, rfl, rfl, rfl, rfl, rfl, fun _ => id⟩ rfl

theorem pend (h : Told i d) (p : Option Entry) : Told i { d.flush with pending := p } :=
  h.after_flush (grows_pending _ p)

theorem openSection (h : Told i d) (title : String) : Told i (d.openSection title) := by
  have hsame : d.flush.openSection title = d.openSection title := by
    rw [Draft.openSection, Draft.openSection, flush_of_settled (flush_pending d)]
  exact hsame ▸ h.after_flush (grows_openSection d.flush title)

theorem appendText (h : Told i d) {text : String} {onNewLine : Bool}
    (he : d.appendText text onNewLine = .ok e) : Told i e := by
  cases h with
  | shown hk h => exact .shown hk ((grows_appendText he).entries _ _ h)
  | @pending p hheld hgroup hp hl hlast =>
      rcases appendText_cases he with ⟨hnone, -⟩ | ⟨p, p', hp', hx, rfl⟩
      · rw [hp] at hnone
        cases hnone
      · cases hp.symm.trans hp'
        exact .pending hheld hgroup rfl (Entry.lasts_extend hl hx) hlast

theorem appendItem (h : Told i d) (item : ListItem) : Told i (d.appendItem item) := by
  rw [Draft.appendItem]
  split
  · cases h with
    | shown hk h => exact .shown hk h
    | pending hheld hgroup _ _ hlast => exact .pending hheld hgroup rfl rfl hlast
  · exact h.pend _

theorem addKeyword (h : Told i d) (hs : d.scratch = none) {whole keyword text : String}
    (he : d.addKeyword whole keyword text = .ok e) : Told i e := by
  rw [Draft.addKeyword] at he
  split at he
  · have hsplit : d.splitCapture = d := by rw [splitCapture, hs]
    rw [← Except.ok.inj he, addSpan, hsplit]
    split
    · exact h.pend _
    · refine h.after_flush ((grows_pending _ _).trans (.of_rest (same_listSpan _ _) ?_))
      rw [listSpan]
      split <;> rfl
  · exact h.appendText he

theorem addTrailing (h : Told i d) {text : String} (he : Action.addTrailing d text = .ok e) :
    Told i e := by
  rw [Action.addTrailing] at he
  split at he
  · exact Except.ok.inj he ▸ h
  · exact h.appendText he

theorem addFormula (h : Told i d) {formula trailing : String}
    (he : Action.addFormula d formula trailing = .ok e) : Told i e := by
  rw [Action.addFormula] at he
  refine addTrailing ?_ he
  split
  · exact h
  · exact (h.pend _).flush

theorem closeFormula (h : Told i d) {formula trailing : String}
    (he : Action.closeFormula d formula trailing = .ok e) : Told i e := by
  rw [Action.closeFormula] at he
  split at he
  · exact h.flush.addTrailing he
  · obtain ⟨d', hd', he⟩ := ok_of_bind he
    exact (h.appendText hd').flush.addTrailing he

theorem declare (h : Told i d) {x : Item} (hx : x.kind ≠ .param) (he : d.declare x = .ok e) :
    Told i e := by
  cases h with
  | shown hk h =>
      cases x with
      | function =>
          exact Except.ok.inj he ▸ .shown hk ((grows_declareFunction d _ _ _).entries _ _ h)
      | constant => exact Except.ok.inj he ▸ .shown hk ((grows_declareConstant d _).entries _ _ h)
      | param => exact absurd rfl hx
  | @pending p hheld hgroup hp hl hlast =>
      have hkeep : d.discardNodoc? = none := by
        rw [discardNodoc?_eq_none, hp, Option.any_some, currentGroup, hgroup]
        exact ⟨Entry.not_isNodoc_of_lasts hl, hlast⟩
      have hdecl := declared_placeAs (hgroup ▸ hheld) hx
      have hkept := Told.pending (hdecl.held _ hheld) hgroup hp hl (hdecl.entries i ▸ hlast)
      cases x with
      | function | constant =>
          rw [Draft.declare] at he
          first | rw [declareFunction, hkeep] at he | rw [declareConstant, hkeep] at he
          cases he
          exact hkept
      | param => exact absurd rfl hx

end Told

/-- Nothing that is done within a comment takes away what is written. -/
theorem Told.apply (h : Told i d) {a : Action} (ha : a.before = .writing) (hd : d.Writing)
    {line : Nat} {c : Captures} (he : a.apply line c d = .ok e) : Told i e := by
  cases a with
  | flush => exact Except.ok.inj he ▸ h.flush
  | closeComment =>
      exact Except.ok.inj he ▸
        h.after_flush (.of_rest ⟨rfl, rfl, rfl, rfl, rfl, rfl, fun _ => id⟩ rfl)
  | newSection => exact Except.ok.inj he ▸ h.openSection _
  | newTitle =>
      exact Except.ok.inj he ▸ h.after_flush ((grows_addEntry _ _).trans (grows_place _))
  | declareFunction =>
      exact h.declare (x := .function (Action.bindingOf c 0) (c.text 1) (some (c.text 2)))
        (fun hk => by cases hk) he
  | declareConstant => exact h.declare (x := .constant (c.text 0)) (fun hk => by cases hk) he
  | todoFixme => exact h.addKeyword hd.scratch he
  | append | appendLine | appendBlankLine => exact h.appendText he
  | bullet | definition => exact Except.ok.inj he ▸ h.appendItem _
  | startCode | mathOpen => exact Except.ok.inj he ▸ h.pend _
  | mathInline => exact h.addFormula he
  | mathClose => exact h.closeFormula he
  | _ => cases ha

end Draft

/-! ## Readings -/

/-- Only within comments anything is pending. -/
theorem Phase.Fits.settled {p : Phase} {d : Draft} (h : p.Fits d) (hp : p ≠ .writing) :
    d.pending = none := by
  cases p with
  | writing => exact absurd rfl hp
  | opening => exact Draft.Opening.pending h
  | pausing => exact Draft.Pausing.settled h
  | closed => exact (Draft.Closed.toPausing h).settled
  | leaving => exact (Draft.Leaving.toClosed h).settled
  | source => exact (Draft.InSource.toDeparting h).settled
  | departing => exact (Draft.Departing.toBetween h).settled
  | table => exact Draft.InTable.settled h

/-- A state in which something may be pending is entered and left without further ado, and
its rules act within the comment. -/
theorem Dialect.writing_rules :
    ∀ s ∈ states, s.phase = .writing → s.exit = none ∧ s.enter = none ∧ s.eof = some .flush ∧
      ∀ r ∈ s.rules, ∀ a ∈ r.action, a.plain ∧ a.before = .writing := by
  decide

theorem Hook.enterSource_pending (d : Draft) : (enterSource d).pending = d.pending := by
  rw [enterSource]
  split
  · rw [Draft.startCapture]
    split <;> split <;> rfl
  · rfl

namespace Reading

open Draft

variable {r : Reader} {line : String} {g g' : Reading} {i : GroupId}

theorem Coherent.told_act (hg : g.Coherent) (hw : g.state.phase = .writing) {m : LineMatch}
    (hm : g.state.matchLine line g.entering = some m) {x : Effect} (hx : act g m = .ok x)
    (h : Told i g.draft) : Told i x.draft := by
  obtain ⟨-, -, -, hrules⟩ := Dialect.writing_rules _ hg.state hw
  have hwriting : g.draft.Writing := by
    have hfits := hg.fits
    rwa [hw] at hfits
  rw [act] at hx
  cases ha : m.rule.action with
  | none =>
      rw [ha] at hx
      exact Except.ok.inj hx ▸ h
  | some a =>
      rw [ha] at hx
      obtain ⟨hplain, hbefore⟩ := hrules _ (State.matchLine_mem hm) a ha
      have hx : a.run g.line m.captures g.draft = .ok x := hx
      rw [Action.run_plain hplain] at hx
      cases he : a.apply g.line m.captures g.draft with
      | error f =>
          rw [he] at hx
          cases hx
      | ok e =>
          rw [he] at hx
          cases hx
          exact h.apply hbefore hwriting he

/-- A comment is left with nothing pending. -/
theorem told_crossTo {s s' : State} (hs : s ∈ Dialect.states) (hw : s.phase = .writing)
    (hs' : s' ∈ Dialect.states) {d : Draft} (h : Told i d)
    (hp : s'.phase ≠ .writing → (s.crossTo s' d).pending = none) : Told i (s.crossTo s' d) := by
  have hcross : s.crossTo s' d = hooked s'.enter d := by
    rw [State.crossTo, (Dialect.writing_rules s hs hw).1]
    rfl
  by_cases hw' : s'.phase = .writing
  · rw [hcross, (Dialect.writing_rules s' hs' hw').2.1]
    exact h
  · refine h.of_grows ?_ (State.grows_crossTo s s' d)
    have hpending := hp hw'
    rw [hcross] at hpending
    rcases (Dialect.hooks_cases s' hs').2 with henter | henter <;> rw [henter] at hpending
    · exact hpending
    · exact (Hook.enterSource_pending d).symm.trans hpending

/-- What is written about a group stays, whatever a line does. -/
theorem Tracked.told_evaluate (hg : g.Tracked) (hr : r.grammar = Dialect.grammar) {again : Bool}
    (he : r.evaluate line g = .ok (g', again)) (h : Told i g.draft) : Told i g'.draft := by
  obtain ⟨hg', hgrows⟩ := hg.evaluate hr he
  by_cases hw : g.state.phase = .writing
  · rcases evaluate_cases he with ⟨-, -, hl⟩ | ⟨m, x, hm, hx, ⟨-, -, hl⟩ | ⟨target, s, -, hs, hl⟩⟩
    · exact hl.draft ▸ h
    · exact hl.draft ▸ hg.told_act hw hm hx h
    · rw [hr] at hs
      rw [hl.draft]
      refine told_crossTo hg.state hw (Dialect.mem_of_find? hs) (hg.told_act hw hm hx h)
        fun hw' => ?_
      have hstate : g'.state = s := hl.state
      have hsettled := hg'.fits.settled (hstate ▸ hw')
      rwa [hl.draft] at hsettled
  · exact h.of_grows (hg.fits.settled hw) hgrows

theorem Tracked.told_feed (hg : g.Tracked) (hr : r.grammar = Dialect.grammar)
    (hf : r.feed g line = .ok g') (h : Told i g.draft) : Told i g'.draft := by
  refine (evaluateAll_keeps (P := fun g => g.Tracked ∧ Told i g.draft) ?_
    ⟨hg.nextLine (g.line + 1), h⟩ hf).2
  intro g₁ g₂ again hg₁ he
  exact ⟨(hg₁.1.evaluate hr he).1, hg₁.1.told_evaluate hr he hg₁.2⟩

/-- When the source ends nothing is pending any more. -/
theorem Tracked.told_finish (hg : g.Tracked) (h : Told i g.draft) :
    Told i (Reader.finish g).draft := by
  by_cases hw : g.state.phase = .writing
  · obtain ⟨hexit, -, heof, -⟩ := Dialect.writing_rules _ hg.state hw
    rw [finish_draft, hexit, heof]
    exact h.flush
  · exact h.of_grows (hg.fits.settled hw) g.grows_finish

end Reading

/-! ## Declarations -/

namespace Declaration

/-- The entries that the group of the item has when the item is declared. -/
def entries (x : Declaration) : List Entry :=
  (x.draft.doc.store.get x.group).entries

/-- Nothing is written about the item when it is declared: there are no entries, and none
is pending that lasts. -/
def Unwritten (x : Declaration) : Prop :=
  x.entries = [] ∧ ∀ p ∈ x.draft.pending, ¬ p.lasts

instance (x : Declaration) : Decidable x.Unwritten :=
  inferInstanceAs (Decidable (_ ∧ _))

theorem told_of_kept {x : Declaration} (hkept : x.draft.discardNodoc? = none)
    (hheld : x.draft.doc.store.Holds x.group) (h : ¬ x.Unwritten) : Draft.Told x.group x.draft := by
  obtain ⟨-, hlast⟩ := Draft.discardNodoc?_eq_none.1 hkept
  by_cases hentries : x.entries = []
  · cases hp : x.draft.pending with
    | none => exact absurd ⟨hentries, fun p hmem => by rw [hp] at hmem; cases hmem⟩ h
    | some p =>
        by_cases hl : p.lasts
        · exact .pending hheld rfl hp hl hlast
        · refine absurd ⟨hentries, fun q hq => ?_⟩ h
          rw [hp, Option.mem_some] at hq
          exact hq ▸ hl
  · exact .shown hentries ⟨List.prefix_refl _, hlast⟩

end Declaration

namespace Action

open Draft

variable {a : Action} {c : Captures} {d d' : Draft} {x : Item}

/-- The actions that take an item for undocumented. -/
def flagging : List Action :=
  [undocumentedFunction, undocumentedParam]

/-- They flag it, and do so only where no source is being captured. -/
theorem offered?_of_flagging (ha : a ∈ flagging) (h : a.offered? c d = some (d', x)) :
    d.scratch = none ∧ d' = d.flagUndocumented := by
  cases a with
  | undocumentedFunction =>
      rw [offered?] at h
      split at h
      · cases h
      · next hs => exact ⟨by simpa using hs, (Prod.mk.inj (Option.some.inj h)).1.symm⟩
  | undocumentedParam =>
      rw [offered?] at h
      split at h
      · cases h
      · next hno =>
          have hno : tableMarker.accepts (c.text 2) = false ∧ d.scratch = none := by simpa using hno
          exact ⟨hno.2, (Prod.mk.inj (Option.some.inj h)).1.symm⟩
  | _ => exact absurd ha (by decide)

/-- An action that prepares the draft for the declaration leaves nothing pending. -/
theorem offered?_pending (hd : a.before.Fits d) (h : a.offered? c d = some (d', x)) :
    d' = d ∨ d'.pending = none := by
  have hsettled : a.before ≠ .writing → d.pending = none := hd.settled
  cases a with
  | declareFunction | declareConstant =>
      exact Or.inl (Prod.mk.inj (Option.some.inj h)).1.symm
  | documentedFunction | documentedGlobalFunction =>
      right
      rw [← (Prod.mk.inj (Option.some.inj h)).1]
      exact splitFromSection_pending (hsettled (by decide))
  | documentedLibParam =>
      rw [offered?] at h
      split at h
      · cases h
      · rw [← (Prod.mk.inj (Option.some.inj h)).1]
        split
        · exact Or.inr (flagUndocumented_pending (hsettled (by decide)))
        · exact Or.inl rfl
  | undocumentedFunction | undocumentedParam =>
      obtain ⟨-, rfl⟩ := offered?_of_flagging (by decide) h
      exact Or.inr (flagUndocumented_pending (hsettled (by decide)))
  | tableParam | listParam =>
      right
      rw [← (Prod.mk.inj (Option.some.inj h)).1]
      exact flush_pending d
  | sameLineParam =>
      right
      rw [offered?] at h
      split at h
      · rw [← (Prod.mk.inj (Option.some.inj h)).1]
        exact flush_pending _
      · cases h
  | _ => cases h

/-- A parameter is not declared while source is being captured. -/
theorem offered?_scratch (hd : a.before.Fits d) (h : a.offered? c d = some (d', x))
    (hx : x.kind = .param) : d'.scratch = none := by
  have hitem := itemKind?_of_offered? h
  rw [hx] at hitem
  cases a with
  | documentedLibParam =>
      have hs : d.scratch = none := (Draft.Leaving.toClosed hd).scratch
      rw [offered?] at h
      split at h
      · cases h
      · rw [← (Prod.mk.inj (Option.some.inj h)).1]
        split
        · exact (frame_flagUndocumented d).scratch_eq_none hs
        · exact hs
  | undocumentedParam =>
      obtain ⟨hs, rfl⟩ := offered?_of_flagging (by decide) h
      exact (frame_flagUndocumented d).scratch_eq_none hs
  | tableParam | listParam =>
      rw [← (Prod.mk.inj (Option.some.inj h)).1]
      exact (frame_flush d).scratch_eq_none (Draft.InTable.scratch hd)
  | sameLineParam =>
      rw [offered?] at h
      split at h
      · next d₁ hd₁ =>
          have hframe := ((frame_flush d).trans (frame_freshGroup _)).trans (frame_appendText hd₁)
          rw [← (Prod.mk.inj (Option.some.inj h)).1]
          exact (hframe.trans (frame_flush d₁)).scratch_eq_none (Draft.InTable.scratch hd)
      · cases h
  | _ => cases hitem

end Action

namespace Reading

open Draft

/-- What was written about the items that have been declared before the reading is still
there, and the groups of parameters have been left. -/
structure Tells (ds : List Declaration) (g : Reading) : Prop where
  shown : ∀ x ∈ ds, g.draft.doc.store.Shows x.group x.entries
  told : ∀ x ∈ ds, ¬ x.Unwritten → Told x.group g.draft
  left : ∀ x ∈ ds, x.item.kind = .param →
    g.draft.Left x.group ∧ (g.draft.doc.store.get x.group).entries = x.entries

variable {r : Reader} {line : String} {g g' : Reading} {ds : List Declaration}

theorem Makes.tells {g₁ : Reading} {x : Declaration} {e : Draft} (hx : g₁.Makes line x e)
    (hg₁ : g₁.Tracked) (hr : r.grammar = Dialect.grammar) {again : Bool}
    (he : r.evaluate line g₁ = .ok (g', again)) (hsilent : Silent e g'.draft) :
    g'.Tells [x] := by
  obtain ⟨m, hm, ha, hoff⟩ := hx.offered
  have hfits := hg₁.before_fits hm ha
  have hheld : x.draft.doc.store.Holds x.group := (hx.before.group hg₁.placed.group).1
  have hshown {kept : List Entry} (h : x.draft.doc.store.Shows x.group kept) :
      g'.draft.doc.store.Shows x.group kept :=
    hsilent.grows.entries _ _ ⟨(hx.declared.entries x.group).symm ▸ h.1, h.2⟩
  constructor <;> intro y hy <;> obtain rfl := List.mem_singleton.1 hy
  · exact hshown ⟨List.prefix_refl _, (discardNodoc?_eq_none.1 hx.kept).2⟩
  · intro hno
    have htold := Declaration.told_of_kept hx.kept hheld hno
    rcases Action.offered?_pending hfits hoff with hsame | hp
    · exact hg₁.told_evaluate hr he (hsame ▸ htold)
    · cases htold with
      | shown hk h => exact .shown hk (hshown h)
      | pending _ _ hsome =>
          rw [hp] at hsome
          cases hsome
  · intro hk
    obtain ⟨-, -, hlt⟩ := hx.declared.param hk
    have hscratch := hx.declared.scratch.trans (Action.offered?_scratch hfits hoff hk)
    have hleft : e.Left y.group := by
      refine ⟨hx.declared.held _ hheld, hlt, fun s hs => ?_⟩
      rw [hscratch] at hs
      cases hs
    obtain ⟨hleft', hsame⟩ := hsilent.left _ hleft
    exact ⟨hleft', hsame.trans (hx.declared.entries _)⟩

theorem Tells.append {ds' : List Declaration} (h : g.Tells ds) (h' : g.Tells ds') :
    g.Tells (ds ++ ds') where
  shown := fun x hx => (List.mem_append.1 hx).elim (h.shown x) (h'.shown x)
  told := fun x hx => (List.mem_append.1 hx).elim (h.told x) (h'.told x)
  left := fun x hx => (List.mem_append.1 hx).elim (h.left x) (h'.left x)

theorem Tells.feed (h : g.Tells ds) (hg : g.Tracked) (hr : r.grammar = Dialect.grammar)
    (hf : r.feed g line = .ok g') : g'.Tells (ds ++ (r.declared? g line).toList) := by
  refine Tells.append ⟨fun x hx => ?_, fun x hx hno => ?_, fun x hx hk => ?_⟩ ?_
  · exact (hg.feed hr hf).2.entries _ _ (h.shown x hx)
  · exact hg.told_feed hr hf (h.told x hx hno)
  · obtain ⟨hleft, hentries⟩ := h.left x hx hk
    obtain ⟨hleft', hsame⟩ := hg.left_feed hr hf hleft
    exact ⟨hleft', hsame.trans hentries⟩
  · cases hx : r.declared? g line with
    | none => constructor <;> intro x hx <;> cases hx
    | some x =>
        obtain ⟨g₁, e, hfinal, hmakes, hsilent⟩ := hg.declared_feed hr hf hx
        exact hmakes.tells hfinal.toTracked hr hfinal.evaluate hsilent

theorem Tells.finish (h : g.Tells ds) (hg : g.Tracked) : (Reader.finish g).Tells ds where
  shown := fun x hx => g.grows_finish.entries _ _ (h.shown x hx)
  told := fun x hx hno => hg.told_finish (h.told x hx hno)
  left := fun x hx hk => by
    obtain ⟨hleft, hentries⟩ := h.left x hx hk
    obtain ⟨hleft', hsame⟩ := hg.sameItems_finish.left _ hleft
    exact ⟨hleft', hsame.trans hentries⟩

end Reading

/-! ## Documents -/

/-- What a document shows of what was written about an item, at the latest when it was
declared. -/
structure Document.Tells (doc : Document) (x : Declaration) : Prop where
  /-- The entries at that time come first. -/
  shown : x.entries <+: (doc.store.get x.group).entries
  /-- There are some, unless nothing was written by then. -/
  told : ¬ x.Unwritten → (doc.store.get x.group).entries ≠ []
  /-- For a parameter there are no others. -/
  param : x.item.kind = .param → (doc.store.get x.group).entries = x.entries

theorem finishReading_tells {settings : Settings} {q : Request} {lines : List String} {g : Reading}
    (h : readingAfter settings q lines = .ok g) :
    ∀ x ∈ declarationsOf settings q lines, (finishReading g).1.Tells x := by
  obtain ⟨g₀, named, -, -, hg₀, hreads, hds⟩ := exists_firstReading h
  have hg := readingAfter_tracked h
  have hnothing : g₀.Tells [] := by constructor <;> intro x hx <;> cases hx
  have hread := hg₀.feedAll_declares (P := Reading.Tells) (fun hg h hf => h.feed hg rfl hf) rfl
    hnothing ((hreads lines).symm.trans h)
  have hends := (finishReading_wellFormed h).1
  have htells : (Reader.finish g).Tells (declarationsOf settings q lines) := by
    rw [hds]
    exact hread.finish hg
  intro x hx
  have hheld : (Reader.finish g).draft.doc.store.Holds x.group := by
    have hplaced := ((readingAfter_documents h).finish hg).placed x hx
    exact (hg.placed.steps hg.finish.1).lists.held _ hplaced
  have hget := congrArg Group.entries (hends.groups.2 x.group hheld)
  refine ⟨?_, fun hno => ?_, fun hk => ?_⟩ <;> rw [hget]
  · exact (htells.shown x hx).1
  · cases htells.told x hx hno with
    | shown hk h =>
        intro hnil
        rw [GroupStore.Shows, hnil, List.prefix_nil] at h
        exact hk h.1
    | pending _ _ hsome =>
        rw [hends.pending] at hsome
        cases hsome
  · exact (htells.left x hx hk).2

end DocComment
