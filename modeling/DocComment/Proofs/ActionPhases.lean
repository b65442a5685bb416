import DocComment.Proofs.Phases

/-!
# Actions keep to their phases

Two theorems about all actions at once. `Action.fits_of_run` says that an action that is
used in its phase leads to the phase that it declares, or opens a table and says so.
`Action.run_error` says that it meets a fault only as a directive that asks for an option
which is not there: text is never added to an entry that takes none, and entries of a
table are never declared without one.

Most actions are frames (`Action.frame_apply`), so what they do to a phase is settled by a
lemma per phase. The others are followed by hand.
-/

namespace DocComment

open Text

namespace Draft

/-! ## Phases under frames -/

theorem Writing.of_frame {d e : Draft} (h : Writing d) (hf : Frame d e) : Writing e := by
  refine ⟨hf.opened h.opened, hf.scratch_eq_none h.scratch, ?_, hf.pending h.pending⟩
  rw [hf.back, hf.table, h.back]

theorem Leaving.of_frame {d e : Draft} (h : Leaving d) (hf : Frame d e) (hp : e.pending = none) :
    Leaving e :=
  { h.toWriting.of_frame hf with
    settled := hp, style := hf.style_eq_none h.style, outside := hf.table.trans h.outside }

theorem Between.of_frame {d e : Draft} (h : Between d) (hf : Frame d e)
    (hp : e.pending = none) : Between e :=
  ⟨hf.opened h.opened, hp, hf.style_eq_none h.style, hf.table.trans h.table,
    hf.back.trans h.back⟩

theorem Leaving.between {d : Draft} (h : Leaving d) : Between d := by
  refine ⟨h.opened, h.settled, h.style, h.outside, ?_⟩
  rw [h.back, h.outside, Option.map_none]

theorem Departing.of_frame {d e : Draft} (h : Departing d) (hf : Frame d e)
    (hp : e.pending = none) : Departing e := by
  refine { h.toBetween.of_frame hf hp with literate := ?_ }
  rw [hf.scratch_isSome, hf.literate, h.literate]

theorem InSource.of_frame {d e : Draft} (h : InSource d) (hf : Frame d e) (hp : e.pending = none)
    (hg : e.group = d.group) : InSource e := by
  refine { h.toDeparting.of_frame hf hp with group := fun s hs => ?_ }
  have hm := hf.scratch
  rw [hs, Option.map_some, eq_comm, Option.map_eq_some_iff] at hm
  obtain ⟨s', hs', hm⟩ := hm
  rw [hg, ← hm, h.group s' hs']

/-- While nothing is captured, source may go on with any group. -/
theorem InSource.of_frame_of_none {d e : Draft} (h : InSource d) (hf : Frame d e)
    (hp : e.pending = none) (hs : d.scratch = none) : InSource e := by
  refine { h.toDeparting.of_frame hf hp with group := fun s he => ?_ }
  rw [hf.scratch_eq_none hs] at he
  cases he

theorem InTable.of_frame {d e : Draft} (h : InTable d) (hf : Frame d e) (hp : e.pending = none) :
    InTable e := by
  refine ⟨hf.opened h.opened, hf.scratch_eq_none h.scratch, hp, hf.style_eq_none h.style, ?_, ?_⟩
  · rw [hf.table]
    exact h.table
  · rw [hf.back]
    exact h.back

/-- A comment inside a table, once the way back is set. -/
theorem InTable.toWriting {d e : Draft} (h : InTable d) (hf : Frame d e) :
    Writing { e with back := some Action.tableState } := by
  refine ⟨hf.opened h.opened, hf.scratch_eq_none h.scratch, ?_, hf.pending ?_⟩
  · obtain ⟨key, hk⟩ := Option.isSome_iff_exists.1 h.table
    show some Action.tableState = e.table.map _
    rw [hf.table, hk, Option.map_some]
  · rw [h.settled]
    rfl

theorem closeComment_closed {d : Draft} (h : Writing d) : Closed d.closeComment :=
  { h.of_frame (frame_closeComment d) with settled := flush_pending d, style := rfl }

/-- A comment inside a table leads back to the table. -/
theorem Closed.inTable {d : Draft} (h : Closed d) {back : String} (hb : d.back = some back) :
    back = Action.tableState ∧ InTable d := by
  have hm := h.back
  rw [hb, eq_comm, Option.map_eq_some_iff] at hm
  obtain ⟨key, hk, rfl⟩ := hm
  refine ⟨rfl, h.opened, h.scratch, h.settled, h.style, ?_, Or.inr hb⟩
  rw [hk]
  rfl

/-- Any other comment leads to the line after it. -/
theorem Closed.leaving {d : Draft} (h : Closed d) (hb : d.back = none) : Leaving d := by
  have hm := h.back
  rw [hb, eq_comm, Option.map_eq_none_iff] at hm
  exact { h with outside := hm }

/-! ## Captures and tables -/

theorem finishCapture_scratch (d : Draft) : d.finishCapture.scratch = none := by
  rw [finishCapture]
  split
  · next h => exact h
  · next s h =>
      simp only []
      split <;> exact attachCode_scratch _ _

theorem finishCapture_of_none {d : Draft} (h : d.scratch = none) : d.finishCapture = d := by
  rw [finishCapture, h]

theorem finishCapture_group (d : Draft) : d.finishCapture.group = d.group := by
  rw [finishCapture]
  split
  · rfl
  · simp only []
    split <;> exact attachCode_group _ _

theorem frame_placeGroup (d : Draft) (i : GroupId) : Frame d (d.placeGroup i) := by
  refine ⟨fun hd => ?_, rfl, rfl, rfl, rfl, Or.inr rfl, id⟩
  rw [placeGroup, Option.isSome_map]
  exact hd

/-- Apart from the capture itself, the end of a capture is a frame. -/
theorem frame_finishCapture (d : Draft) : Frame { d with scratch := none } d.finishCapture := by
  rw [finishCapture]
  split
  · next h => rw [← h]; exact Frame.refl d
  · next s h =>
      simp only []
      split
      · exact frame_attachCode _ s
      · exact (frame_attachCode _ s).trans (frame_placeGroup _ _)

theorem finishCapture_pending (d : Draft) : d.finishCapture.pending = d.pending := by
  rw [finishCapture]
  split
  · rfl
  · next s h =>
      simp only [attachCode]
      split <;> split <;> rfl

theorem finishCapture_store {d : Draft} {s : Scratch} (hs : d.scratch = some s) :
    d.finishCapture.doc.store = (({ d with scratch := none } : Draft).attachCode s).doc.store := by
  rw [finishCapture, hs]
  simp only []
  split <;> rfl

/-- The end of a capture writes to the group of the capture only. -/
theorem finishCapture_get (d : Draft) {i : GroupId} (hi : ∀ s, d.scratch = some s → i ≠ s.group) :
    d.finishCapture.doc.store.get i = d.doc.store.get i := by
  cases hs : d.scratch with
  | none => rw [finishCapture_of_none hs]
  | some s =>
      rw [finishCapture_store hs, attachCode]
      split
      · exact GroupStore.get_update_of_ne (hi s hs) _
      · rfl

theorem Between.finishCapture {d : Draft} (h : Between d) : Between d.finishCapture := by
  have hd : Between { d with scratch := none } := ⟨h.opened, h.settled, h.style, h.table, h.back⟩
  exact hd.of_frame (frame_finishCapture d) ((finishCapture_pending d).trans h.settled)

theorem Between.leaving {d : Draft} (h : Between d) (hs : d.scratch = none) : Leaving d := by
  refine ⟨⟨⟨⟨h.opened, hs, ?_, ?_⟩, h.settled⟩, h.style⟩, h.table⟩
  · rw [h.back, h.table, Option.map_none]
  · rw [h.settled]
    rfl

theorem Departing.finishCapture {d : Draft} (h : Departing d) : Leaving d.finishCapture :=
  h.toBetween.finishCapture.leaving (finishCapture_scratch d)

/-- In literate mode source is captured, and what is captured goes to the current
group. -/
theorem Between.startCapture {d : Draft} (h : Between d) (hl : d.doc.literate = true)
    (hg : ∀ s, d.scratch = some s → s.group = d.group) : InSource d.startCapture := by
  rw [Draft.startCapture]
  split
  · next s hs => exact ⟨⟨h, by rw [hs, hl]; rfl⟩, hg⟩
  · next hs =>
      refine ⟨⟨⟨h.opened, h.settled, h.style, h.table, h.back⟩, hl.symm⟩, fun s he => ?_⟩
      injection he with he
      rw [← he]

end Draft

/-- Between comments the end of a capture changes the phase only if there was one. -/
theorem Phase.Fits.finishCapture {p : Phase} {d : Draft} (h : p.Fits d) :
    p.uncaptured.Fits d.finishCapture := by
  cases p with
  | opening => rw [Draft.finishCapture_of_none (Draft.Opening.scratch h)]; exact h
  | writing => rw [Draft.finishCapture_of_none (Draft.Writing.scratch h)]; exact h
  | pausing => rw [Draft.finishCapture_of_none (Draft.Pausing.toWriting h).scratch]; exact h
  | closed => rw [Draft.finishCapture_of_none (Draft.Closed.toPausing h).scratch]; exact h
  | leaving => rw [Draft.finishCapture_of_none (Draft.Leaving.toClosed h).scratch]; exact h
  | source => exact Draft.Departing.finishCapture (Draft.InSource.toDeparting h)
  | departing => exact Draft.Departing.finishCapture h
  | table => rw [Draft.finishCapture_of_none (Draft.InTable.scratch h)]; exact h

namespace Draft

theorem Leaving.enterSource {d : Draft} (h : Leaving d) : InSource (Hook.enterSource d) := by
  rw [Hook.enterSource]
  split
  · next hl =>
      simp only []
      split
      · refine h.between.startCapture hl fun s hs => ?_
        rw [h.scratch] at hs
        cases hs
      · refine (h.between.of_frame (frame_place d) h.settled).startCapture hl fun s hs => ?_
        rw [(frame_place d).scratch_eq_none h.scratch] at hs
        cases hs
  · next hl =>
      refine ⟨⟨h.between, ?_⟩, fun s hs => ?_⟩
      · rw [h.scratch, Bool.eq_false_iff.2 hl]
        rfl
      · rw [h.scratch] at hs
        cases hs

/-- A section that is put in the place of a missing one has no comment to go on with. -/
theorem Opening.ensureSection {d : Draft} (h : Opening d) (reason : Option Template) :
    Leaving (d.ensureSection reason).1 := by
  have hno : d.hasSection = false := by
    rw [hasSection, h.current, h.sections]
    rfl
  have hf := (frame_openSection d d.doc.fullname).trans
    (frame_addEntry _ (.paragraph ⟨some "", some summaryStyle⟩))
  have hp := openSection_pending d d.doc.fullname
  unfold Draft.ensureSection
  rw [hno]
  refine ⟨⟨⟨⟨rfl, hf.scratch_eq_none h.scratch, ?_, ?_⟩, hp⟩, hf.style_eq_none h.style⟩,
    hf.table.trans h.table⟩
  · show (d.openSection d.doc.fullname).back = (d.openSection d.doc.fullname).table.map _
    rw [(frame_openSection d _).back, (frame_openSection d _).table, h.back, h.table]
    rfl
  · exact hf.pending (by rw [h.pending]; rfl)

/-! ## Directives -/

theorem InSource.setLiterate {d : Draft} (h : InSource d) (enabled : Bool) :
    InSource (d.setLiterate enabled) := by
  have hb : Between { d with doc := { d.doc with literate := enabled } } :=
    ⟨h.opened, h.settled, h.style, h.table, h.back⟩
  cases enabled with
  | true => exact hb.startCapture rfl h.group
  | false =>
      have hs := finishCapture_scratch { d with doc := { d.doc with literate := false } }
      have hl := (frame_finishCapture { d with doc := { d.doc with literate := false } }).literate
      refine ⟨⟨hb.finishCapture, (congrArg Option.isSome hs).trans hl.symm⟩, fun s he => ?_⟩
      exact absurd (hs.symm.trans he) (by simp)

theorem frame_setLoose (d : Draft) (enabled : Bool) : Frame d (d.setLoose enabled) := by
  rw [setLoose]
  split
  · exact Frame.trans
      (e := { d with doc := { d.doc with loose := enabled }, looseReported := true })
      ⟨id, rfl, rfl, rfl, rfl, Or.inr rfl, id⟩ (frame_addTodo _ _)
  · exact ⟨id, rfl, rfl, rfl, rfl, Or.inr rfl, id⟩

theorem InSource.setLoose {d : Draft} (h : InSource d) (enabled : Bool) :
    InSource (d.setLoose enabled) := by
  refine h.of_frame (frame_setLoose d enabled) ?_ ?_
  · rw [Draft.setLoose]
    split
    · exact addTodo_pending _ _
    · exact h.settled
  · rw [Draft.setLoose]
    split
    · exact addTodo_group _ _
    · rfl

theorem InSource.applyDirective {d e : Draft} (h : InSource d) {option : String} {enabled : Bool}
    {line : Option Int} (he : d.applyDirective option enabled line = .ok e) : InSource e := by
  rw [Draft.applyDirective] at he
  split at he
  · split at he
    · split at he
      · exact Except.ok.inj he ▸ h.setLiterate enabled
      · exact Except.ok.inj he ▸ h.setLoose enabled
    · cases he
  · cases he

theorem applyDirective_error {d : Draft} {option : String} {enabled : Bool} {line : Option Int}
    {f : Fault} (he : d.applyDirective option enabled line = .error f) :
    f = .source (.badOption option) ⟨line, some d.file⟩ := by
  rw [applyDirective] at he
  split at he
  · split at he
    · split at he <;> cases he
    · exact (Except.error.inj he).symm
  · exact (Except.error.inj he).symm

/-! ## Tables -/

theorem Leaving.openTable {d : Draft} (h : Leaving d) (key : String) (lead : Option String) :
    InTable (d.openTable key lead) := by
  let d' : Draft :=
    { d with
      doc := { d.doc with params := putKey (stripDeclaration key) {} d.doc.params }
      table := some (stripDeclaration key) }
  have hd : InTable d' := ⟨h.opened, h.scratch, h.settled, h.style, rfl, Or.inl h.between.back⟩
  exact hd.of_frame
    ((frame_addTableStart d' (stripDeclaration key) lead).trans (frame_freshGroup _))
    (flush_pending d')

theorem InTable.closeTable {d : Draft} (h : InTable d) : Leaving d.closeTable := by
  have hf := frame_addTableEnd d
  exact ⟨⟨⟨⟨hf.opened h.opened, hf.scratch_eq_none h.scratch, rfl,
    hf.pending (by rw [h.settled]; rfl)⟩, flush_pending d⟩, hf.style_eq_none h.style⟩, rfl⟩

end Draft

namespace Action

open Draft

/-! ## The pieces of actions -/

theorem addTrailing_ok {d : Draft} (h : d.pending.all Entry.takesText) (text : String) :
    ∃ e, addTrailing d text = .ok e := by
  rw [addTrailing]
  split
  · exact ⟨d, rfl⟩
  · exact appendText_ok h _ _

theorem frame_addTrailing {d e : Draft} {text : String} (h : addTrailing d text = .ok e) :
    Frame d e := by
  rw [addTrailing] at h
  split at h
  · exact Except.ok.inj h ▸ Frame.refl d
  · exact frame_appendText h

theorem frame_splitFromSection (d : Draft) : Frame d (splitFromSection d) := by
  rw [splitFromSection]
  split
  · exact frame_flagUndocumented d
  · exact Frame.refl d

theorem splitFromSection_pending {d : Draft} (h : d.pending = none) :
    (splitFromSection d).pending = none := by
  rw [splitFromSection]
  split
  · exact flagUndocumented_pending h
  · exact h

theorem frame_leavePlacedGroup (d : Draft) : Frame d (leavePlacedGroup d) := by
  rw [leavePlacedGroup]
  split
  · exact frame_freshGroup d
  · exact Frame.refl d

theorem leavePlacedGroup_pending (d : Draft) : (leavePlacedGroup d).pending = d.pending := by
  rw [leavePlacedGroup]
  split <;> rfl

theorem frame_entryGroup (d : Draft) : Frame d (entryGroup d) := by
  rw [entryGroup]
  split
  · exact Frame.refl d
  · exact frame_freshGroup d

theorem entryGroup_pending (d : Draft) : (entryGroup d).pending = d.pending := by
  rw [entryGroup]
  split <;> rfl

theorem addFormula_ok {d : Draft} (h : d.pending.all Entry.takesText) (formula trailing : String) :
    ∃ e, addFormula d formula trailing = .ok e := by
  rw [addFormula]
  refine addTrailing_ok ?_ trailing
  split
  · exact h
  · rw [flush_pending]
    rfl

theorem frame_addFormula {d e : Draft} {formula trailing : String}
    (h : addFormula d formula trailing = .ok e) : Frame d e := by
  rw [addFormula] at h
  refine Frame.trans ?_ (frame_addTrailing h)
  split
  · exact Frame.refl d
  · exact (frame_openFormula d _ _).trans (frame_flush _)

theorem closeFormula_ok {d : Draft} (h : d.pending.all Entry.takesText)
    (formula trailing : String) : ∃ e, closeFormula d formula trailing = .ok e := by
  have hlast (d' : Draft) : ∃ e, addTrailing d'.flush trailing = .ok e :=
    addTrailing_ok (by rw [flush_pending]; rfl) trailing
  rw [closeFormula]
  split
  · exact hlast d
  · obtain ⟨d', hd'⟩ := appendText_ok h (trim formula) true
    rw [hd']
    exact hlast d'

theorem frame_closeFormula {d e : Draft} {formula trailing : String}
    (h : closeFormula d formula trailing = .ok e) : Frame d e := by
  rw [closeFormula] at h
  split at h
  · exact (frame_flush d).trans (frame_addTrailing h)
  · obtain ⟨d', hd', h⟩ := ok_of_bind h
    exact ((frame_appendText hd').trans (frame_flush d')).trans (frame_addTrailing h)

theorem frame_declareLibParam {d e : Draft} {key value : String}
    (h : declareLibParam d key value = .ok e) : Frame d e := by
  rw [declareLibParam] at h
  simp only [] at h
  split at h
  · exact Except.ok.inj h ▸ Frame.refl d
  · split at h
    · exact (frame_flagUndocumented d).trans (frame_declareParam h)
    · exact frame_declareParam h

theorem declareLibParam_ok (d : Draft) (key value : String) :
    ∃ e, declareLibParam d key value = .ok e := by
  rw [declareLibParam]
  simp only []
  split
  · exact ⟨d, rfl⟩
  · exact declareParam_ok (Or.inl rfl) _ _

theorem declareLibParam_pending {d e : Draft} {key value : String} (hp : d.pending = none)
    (h : declareLibParam d key value = .ok e) : e.pending = none := by
  rw [declareLibParam] at h
  simp only [] at h
  split at h
  · exact Except.ok.inj h ▸ hp
  · split at h
    · exact declareParam_pending (flagUndocumented_pending hp) h
    · exact declareParam_pending hp h

/-- A source line that is not captured is a declaration of its own. -/
theorem captureOr_cases {d e : Draft} {line : String} {declare : Draft → Except Fault Draft}
    (h : captureOr d line declare = .ok e) :
    e = d.captureLine line ∨ d.scratch = none ∧ declare d.flagUndocumented = .ok e := by
  rw [captureOr] at h
  split at h
  · exact Or.inl (Except.ok.inj h).symm
  · next hs => exact Or.inr ⟨by simpa using hs, h⟩

/-! ## All actions -/

/-- Whether an action does nothing to the state of the reading. -/
def onlyWrites : Action → Bool
  | preambleSection | enableOption | disableOption | openTable | paramsComment
  | paramsBlockComment | closeTable => false
  | _ => true

/-- What an action does that only writes documentation is a frame. -/
theorem frame_apply {a : Action} (ha : a.onlyWrites) {line : Nat} {c : Captures} {d e : Draft}
    (h : a.apply line c d = .ok e) : Frame d e := by
  cases a with
  | preambleSection | enableOption | disableOption | openTable | paramsComment
  | paramsBlockComment | closeTable => cases ha
  | missingTitle | untitledPreamble | documentedLibParam | undocumentedParam =>
      exact Except.ok.inj h ▸ Frame.refl d
  | flush => exact Except.ok.inj h ▸ frame_flush d
  | closeComment => exact Except.ok.inj h ▸ frame_closeComment d
  | newSection => exact Except.ok.inj h ▸ frame_openSection d _
  | newTitle => exact Except.ok.inj h ▸ frame_addHeading d _ _
  | declareFunction => exact Except.ok.inj h ▸ frame_declareFunction d _ _ _
  | declareConstant => exact Except.ok.inj h ▸ frame_declareConstant d _
  | todoFixme => exact frame_addKeyword h
  | append | appendLine | appendBlankLine => exact frame_appendText h
  | bullet | definition => exact Except.ok.inj h ▸ frame_appendItem d _
  | startCode => exact Except.ok.inj h ▸ frame_openCode d _
  | mathInline => exact frame_addFormula h
  | mathOpen => exact Except.ok.inj h ▸ frame_openFormula d _ _
  | mathClose => exact frame_closeFormula h
  | documentedFunction | documentedGlobalFunction =>
      exact Except.ok.inj h ▸ (frame_splitFromSection d).trans (frame_declareFunction _ _ _ _)
  | undocumentedFunction =>
      rw [apply] at h
      rcases captureOr_cases h with rfl | ⟨-, h⟩
      · exact frame_captureLine d _
      · exact Except.ok.inj h ▸ (frame_flagUndocumented d).trans (frame_declareFunction _ _ _ _)
  | endOfFunction =>
      refine Except.ok.inj h ▸ Frame.trans ?_ (frame_captureLine _ _)
      exact ⟨id, rfl, rfl, rfl, rfl, Or.inr rfl, id⟩
  | sourceTodo =>
      obtain ⟨d', hd', h⟩ := ok_of_bind h
      exact Except.ok.inj h ▸ (frame_addKeyword hd').trans (frame_flush d')
  | startComment => exact Except.ok.inj h ▸ frame_freshGroup d
  | sourceLine => exact Except.ok.inj h ▸ frame_captureLine d _
  | paramsTitle =>
      refine Except.ok.inj h ▸ ((frame_flush d).trans ?_).trans (frame_addHeading _ _ _)
      split
      · exact Frame.refl _
      · exact frame_freshGroup _
  | paramsInlineComment =>
      obtain ⟨d', hd', h⟩ := ok_of_bind h
      exact Except.ok.inj h ▸
        ((frame_entryGroup d).trans (frame_appendText hd')).trans (frame_flush d')
  | tableParam | listParam => exact (frame_flush d).trans (frame_declareParam h)
  | sameLineParam =>
      obtain ⟨d', hd', h⟩ := ok_of_bind h
      exact (((frame_flush d).trans (frame_freshGroup _)).trans (frame_appendText hd')).trans
        ((frame_flush d').trans (frame_declareParam h))
  | paramsOther => exact Except.ok.inj h ▸ (frame_flush d).trans (frame_freshGroup _)

/-- Outside of comments an action leaves nothing pending. -/
theorem apply_pending {a : Action} (ha : a.after = .leaving ∨ a.after = .source ∨ a.after = .table)
    (hw : a.onlyWrites) {line : Nat} {c : Captures} {d e : Draft} (hd : d.pending = none)
    (h : a.apply line c d = .ok e) : e.pending = none := by
  cases a with
  | preambleSection | enableOption | disableOption | openTable | paramsComment
  | paramsBlockComment | closeTable => cases hw
  | flush | closeComment | newSection | newTitle | declareFunction | declareConstant | todoFixme
  | append | appendLine | appendBlankLine | bullet | definition | startCode | mathInline
  | mathOpen | mathClose | untitledPreamble | startComment =>
      rcases ha with ha | ha | ha <;> cases ha
  | missingTitle | documentedLibParam | undocumentedParam => exact Except.ok.inj h ▸ hd
  | documentedFunction | documentedGlobalFunction =>
      exact Except.ok.inj h ▸ declareFunction_pending (splitFromSection_pending hd) _ _ _
  | undocumentedFunction =>
      rw [apply] at h
      rcases captureOr_cases h with rfl | ⟨-, h⟩
      · exact (captureLine_pending d _).trans hd
      · exact Except.ok.inj h ▸ declareFunction_pending (flagUndocumented_pending hd) _ _ _
  | endOfFunction => exact Except.ok.inj h ▸ (captureLine_pending _ _).trans hd
  | sourceTodo =>
      obtain ⟨d', -, h⟩ := ok_of_bind h
      exact Except.ok.inj h ▸ flush_pending d'
  | sourceLine => exact Except.ok.inj h ▸ (captureLine_pending d _).trans hd
  | paramsTitle => exact Except.ok.inj h ▸ flush_pending _
  | paramsInlineComment =>
      obtain ⟨d', -, h⟩ := ok_of_bind h
      exact Except.ok.inj h ▸ flush_pending d'
  | tableParam | listParam => exact declareParam_pending (flush_pending d) h
  | sameLineParam =>
      obtain ⟨d', -, h⟩ := ok_of_bind h
      exact declareParam_pending (flush_pending d') h
  | paramsOther => exact Except.ok.inj h ▸ flush_pending d

/-- In its phase an action that is no directive meets no fault. -/
theorem apply_ok {a : Action} (he : a ≠ .enableOption) (hd : a ≠ .disableOption) {d : Draft}
    (h : a.before.Fits d) (line : Nat) (c : Captures) : ∃ e, a.apply line c d = .ok e := by
  cases a with
  | enableOption => exact absurd rfl he
  | disableOption => exact absurd rfl hd
  | preambleSection | missingTitle | untitledPreamble | flush | closeComment | newSection
  | newTitle | declareFunction | declareConstant | bullet | definition | startCode | mathOpen
  | documentedFunction | documentedGlobalFunction | documentedLibParam | undocumentedParam
  | endOfFunction | openTable | startComment | sourceLine | paramsTitle | paramsComment
  | closeTable | paramsOther => exact ⟨_, rfl⟩
  | todoFixme => exact addKeyword_ok (Writing.pending h) _ _ _
  | append | appendLine | appendBlankLine => exact appendText_ok (Writing.pending h) _ _
  | mathInline => exact addFormula_ok (Writing.pending h) _ _
  | mathClose => exact closeFormula_ok (Writing.pending h) _ _
  | undocumentedFunction =>
      rw [apply, captureOr]
      split <;> exact ⟨_, rfl⟩
  | sourceTodo =>
      have hp : d.pending = none := (InSource.toDeparting h).settled
      obtain ⟨d', hd'⟩ := addKeyword_ok (d := d) (by rw [hp]; rfl) (c.text 0) (c.text 1) (c.text 2)
      exact ⟨d'.flush, by simp only [apply, hd']; rfl⟩
  | paramsBlockComment =>
      have hp := (entryGroup_pending d).trans (InTable.settled h)
      obtain ⟨d', hd'⟩ := addTrailing_ok (d := entryGroup d) (by rw [hp]; rfl) (c.text 0)
      exact ⟨{ d' with back := some tableState }, by simp only [apply, hd']; rfl⟩
  | paramsInlineComment =>
      have hp := (entryGroup_pending d).trans (InTable.settled h)
      obtain ⟨d', hd'⟩ :=
        appendText_ok (d := entryGroup d) (by rw [hp]; rfl) (trim (c.text 0)) false
      exact ⟨d'.flush, by simp only [apply, hd']; rfl⟩
  | tableParam | listParam =>
      have ht := InTable.table h
      rw [← (frame_flush d).table] at ht
      exact declareParam_ok (Or.inr ht) _ _
  | sameLineParam =>
      have hp := flush_pending d
      obtain ⟨d', hd'⟩ := appendText_ok (d := d.flush.freshGroup) (by
        show d.flush.pending.all _
        rw [hp]
        rfl) (trim (c.text 1)) false
      have hf := ((frame_flush d).trans (frame_freshGroup _)).trans
        ((frame_appendText hd').trans (frame_flush d'))
      have ht := InTable.table h
      rw [← hf.table] at ht
      obtain ⟨e, he'⟩ := @declareParam_ok d'.flush .list (Or.inr ht) (c.text 0) none
      exact ⟨e, by simp only [apply, hd']; exact he'⟩

/-- Whether an action neither logs nor chooses the transition. -/
def plain : Action → Bool
  | missingTitle | untitledPreamble | documentedLibParam | undocumentedParam => false
  | _ => true

theorem run_plain {a : Action} (ha : a.plain) (line : Nat) (c : Captures) (d : Draft) :
    a.run line c d = (a.apply line c d).map fun e => { draft := e } := by
  have h : a.run line c d = do return { draft := ← a.apply line c d } := by
    cases a <;> first | rfl | cases ha
  rw [h]
  cases a.apply line c d <;> rfl

/-- What an action leads to: a draft, and a transition if it chooses one. -/
inductive Leads (line : Nat) (c : Captures) (d : Draft) :
    Action → Draft → Option Transition → Prop where
  | applied {a : Action} {e : Draft} (ha : a.plain) (h : a.apply line c d = .ok e) :
      Leads line c d a e none
  | warned (reason : Option Template) :
      Leads line c d .missingTitle (d.ensureSection reason).1 none
  | untitled : Leads line c d .untitledPreamble (openPreamble d d.doc.fullname) none
  | documentedTable :
      Leads line c d .documentedLibParam ((leavePlacedGroup d).openTable (c.text 0) (some "."))
        (some (.goTo tableState false))
  | documentedParam {e : Draft} (h : declareLibParam d (c.text 0) (c.text 1) = .ok e) :
      Leads line c d .documentedLibParam e none
  | undocumentedTable :
      Leads line c d .undocumentedParam
        (d.finishCapture.freshGroup.openTable (c.text 1) (some ".")) (some (.goTo tableState false))
  | undocumentedParam {e : Draft}
      (h : captureOr d (c.text 0)
        (fun d => d.declareParam (c.text 1) (some (c.text 2)) .plain) = .ok e) :
      Leads line c d .undocumentedParam e none

theorem leads_of_run {a : Action} {line : Nat} {c : Captures} {d : Draft} {x : Effect}
    (h : a.run line c d = .ok x) : Leads line c d a x.draft x.next := by
  by_cases ha : a.plain
  · rw [run_plain ha] at h
    cases hx : a.apply line c d with
    | error f =>
        rw [hx] at h
        cases h
    | ok e =>
        rw [hx] at h
        cases h
        exact .applied ha hx
  · cases a with
    | missingTitle =>
        rw [run] at h
        generalize hx : d.ensureSection _ = y at h
        cases h
        exact hx ▸ .warned _
    | untitledPreamble =>
        cases h
        exact .untitled
    | documentedLibParam =>
        rw [run] at h
        split at h
        · cases h
          exact .documentedTable
        · obtain ⟨e, he, h⟩ := ok_of_bind h
          cases h
          exact .documentedParam he
    | undocumentedParam =>
        rw [run] at h
        split at h
        · cases h
          exact .undocumentedTable
        · obtain ⟨e, he, h⟩ := ok_of_bind h
          cases h
          exact .undocumentedParam he
    | _ => exact absurd rfl ha

theorem openPreamble_writing {d : Draft} (h : Opening d) (title : String) :
    Writing (openPreamble d title) := by
  have hf := frame_openSection d title
  refine ⟨rfl, hf.scratch_eq_none h.scratch, ?_, ?_⟩
  · show (d.openSection title).back = (d.openSection title).table.map _
    rw [hf.back, hf.table, h.back, h.table]
    rfl
  · show (d.openSection title).pending.all _
    rw [openSection_pending]
    rfl

/-- An action that is used in its phase leads to the phase that it declares. -/
theorem fits_of_apply {a : Action} (ha : a.plain) {line : Nat} {c : Captures} {d e : Draft}
    (hd : a.before.Fits d) (h : a.apply line c d = .ok e) : a.after.Fits e := by
  cases a with
  | missingTitle | untitledPreamble | documentedLibParam | undocumentedParam => cases ha
  | preambleSection => exact Except.ok.inj h ▸ openPreamble_writing hd _
  | flush =>
      exact { Writing.of_frame hd (frame_apply rfl h) with
        settled := Except.ok.inj h ▸ flush_pending d }
  | closeComment => exact Except.ok.inj h ▸ closeComment_closed hd
  | newSection | newTitle | declareFunction | declareConstant | todoFixme | append | appendLine
  | appendBlankLine | bullet | definition | startCode | mathInline | mathOpen | mathClose =>
      exact Writing.of_frame hd (frame_apply rfl h)
  | documentedFunction | documentedGlobalFunction =>
      have hp : d.pending = none := (Leaving.toClosed hd).settled
      exact Leaving.of_frame hd (frame_apply rfl h) (apply_pending (Or.inl rfl) rfl hp h)
  | undocumentedFunction =>
      have hp := apply_pending (Or.inr (Or.inl rfl)) rfl (InSource.toDeparting hd).settled h
      have hf := frame_apply rfl h
      rw [apply] at h
      rcases captureOr_cases h with rfl | ⟨hs, -⟩
      · exact InSource.of_frame hd hf hp (captureLine_group d _)
      · exact InSource.of_frame_of_none hd hf hp hs
  | endOfFunction =>
      have hp := apply_pending (Or.inr (Or.inl rfl)) rfl (InSource.toDeparting hd).settled h
      refine InSource.of_frame hd (frame_apply rfl h) hp ?_
      exact Except.ok.inj h ▸ captureLine_group _ _
  | enableOption | disableOption => exact InSource.applyDirective hd h
  | openTable =>
      have hl := Departing.finishCapture (InSource.toDeparting hd)
      have hp := (leavePlacedGroup_pending d.finishCapture).trans hl.settled
      exact Except.ok.inj h ▸ (hl.of_frame (frame_leavePlacedGroup _) hp).openTable _ _
  | sourceTodo =>
      have hp := apply_pending (Or.inr (Or.inl rfl)) rfl (InSource.toDeparting hd).settled h
      have hf := frame_apply rfl h
      obtain ⟨d', hd', h⟩ := ok_of_bind h
      refine InSource.of_frame hd hf hp ?_
      exact Except.ok.inj h ▸ (flush_group d').trans (addKeyword_group hd')
  | startComment =>
      exact Departing.of_frame (InSource.toDeparting hd) (frame_apply rfl h)
        (Except.ok.inj h ▸ (InSource.toDeparting hd).settled)
  | sourceLine =>
      have hp := apply_pending (Or.inr (Or.inl rfl)) rfl (InSource.toDeparting hd).settled h
      refine InSource.of_frame hd (frame_apply rfl h) hp ?_
      exact Except.ok.inj h ▸ captureLine_group d _
  | paramsTitle | paramsInlineComment | tableParam | listParam | sameLineParam | paramsOther =>
      have hp := apply_pending (Or.inr (Or.inr rfl)) rfl (InTable.settled hd) h
      exact InTable.of_frame hd (frame_apply rfl h) hp
  | paramsComment =>
      have hp := (entryGroup_pending d).trans (InTable.settled hd)
      have hf := frame_entryGroup d
      exact Except.ok.inj h ▸ { InTable.toWriting hd hf with
        settled := hp, style := hf.style_eq_none (InTable.style hd) }
  | paramsBlockComment =>
      obtain ⟨d', hd', h⟩ := ok_of_bind h
      exact Except.ok.inj h ▸
        InTable.toWriting hd ((frame_entryGroup d).trans (frame_addTrailing hd'))
  | closeTable => exact Except.ok.inj h ▸ InTable.closeTable hd

/-- The same for actions that choose the transition themselves. What they choose are the
entries of a table, and then a table is open. -/
theorem fits_of_run {a : Action} {line : Nat} {c : Captures} {d : Draft} {e : Effect}
    (hd : a.before.Fits d) (h : a.run line c d = .ok e) :
    e.next = none ∧ a.after.Fits e.draft ∨
      e.next = some (.goTo tableState false) ∧ Phase.table.Fits e.draft := by
  obtain ⟨e, next, log⟩ := e
  cases leads_of_run h with
  | applied ha h => exact Or.inl ⟨rfl, fits_of_apply ha hd h⟩
  | warned reason => exact Or.inl ⟨rfl, Opening.ensureSection hd reason⟩
  | untitled => exact Or.inl ⟨rfl, openPreamble_writing hd _⟩
  | documentedTable =>
      have hp : d.pending = none := (Leaving.toClosed hd).settled
      have hg := Leaving.of_frame hd (frame_leavePlacedGroup d)
        ((leavePlacedGroup_pending d).trans hp)
      exact Or.inr ⟨rfl, hg.openTable _ _⟩
  | documentedParam h =>
      have hp : d.pending = none := (Leaving.toClosed hd).settled
      exact Or.inl ⟨rfl, Leaving.of_frame hd (frame_declareLibParam h)
        (declareLibParam_pending hp h)⟩
  | undocumentedTable =>
      have hl := Departing.finishCapture (InSource.toDeparting hd)
      exact Or.inr ⟨rfl, (hl.of_frame (frame_freshGroup _) hl.settled).openTable _ _⟩
  | undocumentedParam h =>
      have hp : d.pending = none := (InSource.toDeparting hd).settled
      rcases captureOr_cases h with rfl | ⟨hs, h⟩
      · exact Or.inl ⟨rfl, InSource.of_frame hd (frame_captureLine d _)
          ((captureLine_pending d _).trans hp) (captureLine_group d _)⟩
      · exact Or.inl ⟨rfl, InSource.of_frame_of_none hd
          ((frame_flagUndocumented d).trans (frame_declareParam h))
          (declareParam_pending (flagUndocumented_pending hp) h) hs⟩

/-- In its phase an action meets no fault, unless it is a directive that asks for an
option which is not there. -/
theorem run_error {a : Action} {line : Nat} {c : Captures} {d : Draft} {f : Fault}
    (hd : a.before.Fits d) (h : a.run line c d = .error f) :
    (a = .enableOption ∨ a = .disableOption) ∧
      f = .source (.badOption (trim (c.text 0))) ⟨some line, some d.file⟩ := by
  by_cases ha : a.plain
  · rw [run_plain ha] at h
    by_cases he : a = .enableOption
    · subst he
      cases hx : apply .enableOption line c d with
      | error f' =>
          rw [hx] at h
          cases h
          exact ⟨Or.inl rfl, applyDirective_error hx⟩
      | ok d' => rw [hx] at h; cases h
    · by_cases hdis : a = .disableOption
      · subst hdis
        cases hx : apply .disableOption line c d with
        | error f' =>
            rw [hx] at h
            cases h
            exact ⟨Or.inr rfl, applyDirective_error hx⟩
        | ok d' => rw [hx] at h; cases h
      · obtain ⟨d', hx⟩ := apply_ok he hdis hd line c
        rw [hx] at h
        cases h
  · cases a with
    | missingTitle | untitledPreamble => cases h
    | documentedLibParam =>
        rw [run] at h
        split at h
        · cases h
        · obtain ⟨d', hd'⟩ := declareLibParam_ok d (c.text 0) (c.text 1)
          rw [hd'] at h
          cases h
    | undocumentedParam =>
        rw [run] at h
        split at h
        · cases h
        · rw [captureOr] at h
          split at h
          · cases h
          · obtain ⟨d', hd'⟩ := @declareParam_ok d.flagUndocumented .plain
              (Or.inl rfl) (c.text 1) (some (c.text 2))
            rw [hd'] at h
            cases h
    | _ => exact absurd rfl ha

end Action

end DocComment
