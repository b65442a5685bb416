import DocComment.Draft.Directive

/-!
# What writing leaves alone

Most operations on a draft write documentation: they settle what is pending, add entries,
open groups and sections and say what a group documents. The state of the reading is kept
elsewhere in the draft, in the open table, the way back to it, the capture of source and
literate mode, and `Frame` says that an operation leaves all of that alone. It is proved
once for every operation; what an action does to the state of the reading is then read off
the few operations that are no frames: opening and closing a table, and starting and
ending a capture.

The second part says when text can be added. Only an entry that takes text is ever
pending, so the one fault that `appendText` knows of never arises.
-/

namespace DocComment

/-- Whether lines may go on with an entry. -/
def Entry.takesText : Entry → Bool
  | heading _ | edge _ | blank => false
  | paragraph _ | formula _ | code _ | span _ | list _ => true

namespace Draft

/-- The second draft is the first one with documentation written to it. -/
structure Frame (d e : Draft) : Prop where
  opened : d.current.isSome → e.current.isSome
  table : e.table = d.table
  back : e.back = d.back
  scratch : e.scratch.map (·.group) = d.scratch.map (·.group)
  literate : e.doc.literate = d.doc.literate
  style : e.nextStyle = none ∨ e.nextStyle = d.nextStyle
  pending : d.pending.all Entry.takesText → e.pending.all Entry.takesText

namespace Frame

theorem refl (d : Draft) : Frame d d :=
  ⟨id, rfl, rfl, rfl, rfl, Or.inr rfl, id⟩

theorem trans {d e f : Draft} (h : Frame d e) (h' : Frame e f) : Frame d f := by
  refine ⟨fun hd => h'.opened (h.opened hd), h'.table.trans h.table, h'.back.trans h.back,
    h'.scratch.trans h.scratch, h'.literate.trans h.literate, ?_,
    fun hd => h'.pending (h.pending hd)⟩
  rcases h'.style with hs | hs
  · exact Or.inl hs
  · rw [hs]
    exact h.style

theorem scratch_eq_none {d e : Draft} (h : Frame d e) (hd : d.scratch = none) :
    e.scratch = none := by
  have hs := h.scratch
  rw [hd] at hs
  exact Option.map_eq_none_iff.1 hs

theorem scratch_isSome {d e : Draft} (h : Frame d e) : e.scratch.isSome = d.scratch.isSome := by
  have hs := congrArg Option.isSome h.scratch
  rwa [Option.isSome_map, Option.isSome_map] at hs

theorem style_eq_none {d e : Draft} (h : Frame d e) (hd : d.nextStyle = none) :
    e.nextStyle = none := by
  rcases h.style with hs | hs
  · exact hs
  · rw [hs, hd]

end Frame

/-! ## Groups and sections -/

theorem frame_updateGroup (d : Draft) (f : Group → Group) : Frame d (d.updateGroup f) :=
  ⟨id, rfl, rfl, rfl, rfl, Or.inr rfl, id⟩

theorem frame_addEntry (d : Draft) (e : Entry) : Frame d (d.addEntry e) :=
  ⟨id, rfl, rfl, rfl, rfl, Or.inr rfl, id⟩

theorem frame_freshGroup (d : Draft) : Frame d d.freshGroup :=
  ⟨id, rfl, rfl, rfl, rfl, Or.inr rfl, id⟩

theorem frame_place (d : Draft) : Frame d d.place := by
  refine ⟨fun hd => ?_, rfl, rfl, rfl, rfl, Or.inr rfl, id⟩
  rw [place, placeGroup, Option.isSome_map]
  exact hd

theorem flush_pending (d : Draft) : d.flush.pending = none := by
  rw [flush]
  split
  · next h => exact h
  · rfl

theorem flush_group (d : Draft) : d.flush.group = d.group := by
  rw [flush]
  split <;> rfl

theorem flush_of_settled {d : Draft} (h : d.pending = none) : d.flush = d := by
  rw [flush, h]

theorem frame_flush (d : Draft) : Frame d d.flush := by
  cases h : d.pending with
  | none =>
      rw [flush_of_settled h]
      exact Frame.refl d
  | some e =>
      rw [flush, h]
      exact ⟨id, rfl, rfl, rfl, rfl, Or.inl rfl, fun _ => rfl⟩

theorem frame_openSection (d : Draft) (title : String) : Frame d (d.openSection title) := by
  refine ((frame_flush d).trans (frame_freshGroup _)).trans ?_
  exact ⟨fun _ => rfl, rfl, rfl, rfl, rfl, Or.inr rfl, id⟩

theorem openSection_pending (d : Draft) (title : String) : (d.openSection title).pending = none :=
  flush_pending d

theorem frame_closeComment (d : Draft) : Frame d d.closeComment := by
  refine (frame_flush d).trans ?_
  exact ⟨id, rfl, rfl, rfl, rfl, Or.inl rfl, id⟩

/-! ## Text -/

theorem extend_ok {e : Entry} (h : e.takesText) (text : String) (onNewLine : Bool) :
    ∃ e', e.extend text onNewLine = .ok e' ∧ e'.takesText := by
  cases e with
  | heading | edge | blank => cases h
  | paragraph | formula | code | span | list => exact ⟨_, rfl, rfl⟩

theorem appendText_ok {d : Draft} (h : d.pending.all Entry.takesText) (text : String)
    (onNewLine : Bool) : ∃ e, d.appendText text onNewLine = .ok e := by
  cases hp : d.pending with
  | none => exact ⟨_, by rw [appendText, hp]⟩
  | some p =>
      rw [hp, Option.all_some] at h
      obtain ⟨p', hp', -⟩ := extend_ok h text onNewLine
      exact ⟨_, by rw [appendText, hp]; simp only [hp']; rfl⟩

theorem appendText_cases {d e : Draft} {text : String} {onNewLine : Bool}
    (h : d.appendText text onNewLine = .ok e) :
    (d.pending = none ∧
      e = { d with pending := some (.paragraph ⟨some text, d.nextStyle⟩), nextStyle := none }) ∨
    ∃ p p', d.pending = some p ∧ p.extend text onNewLine = .ok p' ∧
      e = { d with pending := some p' } := by
  cases hp : d.pending with
  | none =>
      rw [appendText, hp] at h
      injection h with h
      exact Or.inl ⟨rfl, h.symm⟩
  | some p =>
      rw [appendText, hp] at h
      cases hx : p.extend text onNewLine with
      | error f => simp only [hx] at h; cases h
      | ok p' =>
          simp only [hx] at h
          injection h with h
          exact Or.inr ⟨p, p', rfl, hx, h.symm⟩

theorem frame_appendText {d e : Draft} {text : String} {onNewLine : Bool}
    (h : d.appendText text onNewLine = .ok e) : Frame d e := by
  rcases appendText_cases h with ⟨-, rfl⟩ | ⟨p, p', hp, hx, rfl⟩
  · exact ⟨id, rfl, rfl, rfl, rfl, Or.inl rfl, fun _ => rfl⟩
  · refine ⟨id, rfl, rfl, rfl, rfl, Or.inr rfl, fun hd => ?_⟩
    rw [hp, Option.all_some] at hd
    obtain ⟨p'', hp'', ht⟩ := extend_ok hd text onNewLine
    rw [hx] at hp''
    injection hp'' with hp''
    rw [Option.all_some, hp'']
    exact ht

theorem appendText_group {d e : Draft} {text : String} {onNewLine : Bool}
    (h : d.appendText text onNewLine = .ok e) : e.group = d.group := by
  rcases appendText_cases h with ⟨-, rfl⟩ | ⟨p, p', -, -, rfl⟩ <;> rfl

/-- A pending entry that takes text, and nothing else, put in the place of what was
pending. -/
theorem frame_pend (d : Draft) {p : Entry} (h : p.takesText) :
    Frame d { d.flush with pending := some p } := by
  refine (frame_flush d).trans ⟨id, rfl, rfl, rfl, rfl, Or.inr rfl, fun _ => ?_⟩
  exact h

theorem frame_appendItem (d : Draft) (item : ListItem) : Frame d (d.appendItem item) := by
  rw [appendItem]
  split
  · exact ⟨id, rfl, rfl, rfl, rfl, Or.inr rfl, fun _ => rfl⟩
  · exact frame_pend d rfl

theorem frame_openCode (d : Draft) (line : String) : Frame d (d.openCode line) :=
  frame_pend d rfl

theorem frame_openFormula (d : Draft) (mode : MathMode) (text : Option String) :
    Frame d (d.openFormula mode text) :=
  frame_pend d rfl

theorem frame_addHeading (d : Draft) (text : String) (level : HeadingLevel) :
    Frame d (d.addHeading text level) :=
  ((frame_flush d).trans (frame_addEntry _ _)).trans (frame_place _)

theorem frame_addTableStart (d : Draft) (name : String) (lead : Option String) :
    Frame d (d.addTableStart name lead) :=
  ((frame_flush d).trans (frame_addEntry _ _)).trans (frame_place _)

theorem frame_addTableEnd (d : Draft) : Frame d d.addTableEnd :=
  ((frame_flush d).trans (frame_addEntry _ _)).trans (frame_place _)

/-! ## Captures and spans -/

theorem captureLine_group (d : Draft) (line : String) : (d.captureLine line).group = d.group := by
  rw [captureLine]
  split <;> rfl

theorem captureLine_pending (d : Draft) (line : String) :
    (d.captureLine line).pending = d.pending := by
  rw [captureLine]
  split <;> rfl

theorem frame_captureLine (d : Draft) (line : String) : Frame d (d.captureLine line) := by
  rw [captureLine]
  split
  · exact Frame.refl d
  · next s h => exact ⟨id, rfl, rfl, by rw [h]; rfl, rfl, Or.inr rfl, id⟩

theorem frame_attachCode (d : Draft) (s : Scratch) : Frame d (d.attachCode s) := by
  rw [attachCode]
  split
  · exact ⟨id, rfl, rfl, rfl, rfl, Or.inr rfl, id⟩
  · exact Frame.refl d

theorem attachCode_group (d : Draft) (s : Scratch) : (d.attachCode s).group = d.group := by
  rw [attachCode]
  split <;> rfl

theorem attachCode_scratch (d : Draft) (s : Scratch) : (d.attachCode s).scratch = d.scratch := by
  rw [attachCode]
  split <;> rfl

theorem frame_splitCapture (d : Draft) : Frame d d.splitCapture := by
  rw [splitCapture]
  split
  · exact Frame.refl d
  · next s h =>
      split
      · refine (frame_attachCode d s).trans ⟨id, rfl, rfl, ?_, rfl, Or.inr rfl, id⟩
        rw [attachCode_scratch, h]
        rfl
      · exact Frame.refl d

theorem splitCapture_group (d : Draft) : d.splitCapture.group = d.group := by
  rw [splitCapture]
  split
  · rfl
  · next s _ =>
      split
      · exact attachCode_group d s
      · rfl

theorem frame_listSpan (d : Draft) (s : Span) : Frame d (d.listSpan s) := by
  rw [listSpan]
  split <;> exact ⟨id, rfl, rfl, rfl, rfl, Or.inr rfl, id⟩

theorem listSpan_group (d : Draft) (s : Span) : (d.listSpan s).group = d.group := by
  rw [listSpan]
  split <;> rfl

theorem frame_addSpan (d : Draft) (kind : SpanKind) (text : String) :
    Frame d (d.addSpan kind text) := by
  refine (frame_splitCapture d).trans ?_
  rw [addSpan]
  split
  · exact frame_pend _ rfl
  · exact (frame_pend _ rfl).trans (frame_listSpan _ _)

theorem addSpan_group (d : Draft) (kind : SpanKind) (text : String) :
    (d.addSpan kind text).group = d.group := by
  rw [addSpan]
  split
  · exact (flush_group _).trans (splitCapture_group d)
  · exact (listSpan_group _ _).trans ((flush_group _).trans (splitCapture_group d))

theorem frame_addTodo (d : Draft) (text : String) : Frame d (d.addTodo text) :=
  (frame_addSpan d .todo text).trans (frame_flush _)

theorem addTodo_group (d : Draft) (text : String) : (d.addTodo text).group = d.group :=
  (flush_group _).trans (addSpan_group d .todo text)

theorem addTodo_pending (d : Draft) (text : String) : (d.addTodo text).pending = none :=
  flush_pending _

theorem flagUndocumented_group (d : Draft) : d.flagUndocumented.group = d.doc.store.nextId := by
  rw [flagUndocumented]
  split
  · rfl
  · exact addTodo_group _ _

theorem frame_addKeyword {d e : Draft} {whole keyword text : String}
    (h : d.addKeyword whole keyword text = .ok e) : Frame d e := by
  rw [addKeyword] at h
  split at h
  · injection h with h
    subst h
    exact frame_addSpan d _ text
  · exact frame_appendText h

theorem addKeyword_ok {d : Draft} (h : d.pending.all Entry.takesText)
    (whole keyword text : String) : ∃ e, d.addKeyword whole keyword text = .ok e := by
  rw [addKeyword]
  split
  · exact ⟨_, rfl⟩
  · exact appendText_ok h whole false

theorem addKeyword_group {d e : Draft} {whole keyword text : String}
    (h : d.addKeyword whole keyword text = .ok e) : e.group = d.group := by
  rw [addKeyword] at h
  split at h
  · injection h with h
    subst h
    exact addSpan_group d _ text
  · exact appendText_group h

/-! ## Declarations -/

theorem frame_discardNodoc? {d e : Draft} (h : d.discardNodoc? = some e) : Frame d e := by
  rw [discardNodoc?] at h
  split at h
  · injection h with h
    subst h
    exact ⟨id, rfl, rfl, rfl, rfl, Or.inr rfl, fun _ => rfl⟩
  · split at h
    · injection h with h
      subst h
      exact ⟨id, rfl, rfl, rfl, rfl, Or.inr rfl, fun _ => rfl⟩
    · cases h

theorem discardNodoc?_pending {d e : Draft} (h : d.discardNodoc? = some e) :
    e.pending = none := by
  rw [discardNodoc?] at h
  split at h
  · injection h with h
    subst h
    rfl
  · split at h
    · injection h with h
      subst h
      rfl
    · cases h

theorem frame_declareFunction (d : Draft) (binding : Binding) (name : String)
    (params : Option String) : Frame d (d.declareFunction binding name params) := by
  rw [declareFunction]
  split
  · next h => exact frame_discardNodoc? h
  · exact ((frame_updateGroup d _).trans (frame_place _)).trans
      ⟨id, rfl, rfl, rfl, rfl, Or.inr rfl, id⟩

theorem declareFunction_pending {d : Draft} (h : d.pending = none) (binding : Binding)
    (name : String) (params : Option String) :
    (d.declareFunction binding name params).pending = none := by
  rw [declareFunction]
  split
  · next hd => exact discardNodoc?_pending hd
  · exact h

theorem frame_declareConstant (d : Draft) (name : String) : Frame d (d.declareConstant name) := by
  rw [declareConstant]
  split
  · next h => exact frame_discardNodoc? h
  · exact ((frame_updateGroup d _).trans (frame_place _)).trans
      ⟨id, rfl, rfl, rfl, rfl, Or.inr rfl, id⟩

theorem register_cases {d e : Draft} {key : String} {kind : ParamKind}
    (h : d.register key kind = .ok e) :
    ∃ params libParams, e = { d with doc := { d.doc with params, libParams } } := by
  unfold register at h
  split at h
  · exact ⟨d.doc.params, _, (Except.ok.inj h).symm⟩
  · exact ⟨_, d.doc.libParams, (Except.ok.inj h).symm⟩
  · cases h

/-- Entries of a table can be declared where a table is open, and other parameters
anywhere. -/
theorem register_ok {d : Draft} {kind : ParamKind} (h : kind = .plain ∨ d.table.isSome)
    (key : String) : ∃ e, d.register key kind = .ok e := by
  unfold register
  split
  · exact ⟨_, rfl⟩
  · exact ⟨_, rfl⟩
  · next hk ht =>
      rw [ht] at h
      rcases h with h | h
      · exact absurd h hk
      · cases h

theorem declareParam_cases {d e : Draft} {key : String} {definition : Option String}
    {kind : ParamKind} (h : d.declareParam key definition kind = .ok e) :
    d.discardNodoc? = some e ∨
    d.discardNodoc? = none ∧ ∃ f,
      (d.updateGroup fun g =>
        { g with param := some key, paramKind := some kind, params := definition }).register
          key kind = .ok f ∧ e = f.place.freshGroup := by
  rw [declareParam] at h
  split at h
  · next hd =>
      injection h with h
      exact Or.inl (h ▸ hd)
  · next hd =>
      refine Or.inr ⟨hd, ?_⟩
      cases hr : (d.updateGroup fun g =>
        { g with param := some key, paramKind := some kind, params := definition }).register
          key kind with
      | error f => simp only [hr] at h; cases h
      | ok f =>
          simp only [hr] at h
          injection h with h
          exact ⟨f, rfl, h.symm⟩

theorem frame_declareParam {d e : Draft} {key : String} {definition : Option String}
    {kind : ParamKind} (h : d.declareParam key definition kind = .ok e) : Frame d e := by
  rcases declareParam_cases h with hd | ⟨-, f, hf, rfl⟩
  · exact frame_discardNodoc? hd
  · obtain ⟨params, libParams, rfl⟩ := register_cases hf
    refine Frame.trans ?_ ((frame_place _).trans (frame_freshGroup _))
    exact ⟨id, rfl, rfl, rfl, rfl, Or.inr rfl, id⟩

theorem declareParam_pending {d e : Draft} {key : String} {definition : Option String}
    {kind : ParamKind} (hp : d.pending = none)
    (h : d.declareParam key definition kind = .ok e) : e.pending = none := by
  rcases declareParam_cases h with hd | ⟨-, f, hf, rfl⟩
  · exact discardNodoc?_pending hd
  · obtain ⟨params, libParams, rfl⟩ := register_cases hf
    exact hp

theorem declareParam_ok {d : Draft} {kind : ParamKind} (h : kind = .plain ∨ d.table.isSome)
    (key : String) (definition : Option String) :
    ∃ e, d.declareParam key definition kind = .ok e := by
  rw [declareParam]
  split
  · exact ⟨_, rfl⟩
  · obtain ⟨f, hf⟩ := register_ok (d := d.updateGroup fun g =>
      { g with param := some key, paramKind := some kind, params := definition }) h key
    simp only [hf]
    exact ⟨_, rfl⟩

theorem frame_flagUndocumented (d : Draft) : Frame d d.flagUndocumented := by
  rw [flagUndocumented]
  split
  · exact frame_freshGroup d
  · exact (frame_freshGroup d).trans (frame_addTodo _ _)

theorem flagUndocumented_pending {d : Draft} (h : d.pending = none) :
    d.flagUndocumented.pending = none := by
  rw [flagUndocumented]
  split
  · exact h
  · exact addTodo_pending _ _

end Draft

end DocComment
