import DocComment.Proofs.LooseDrafts
import DocComment.Proofs.PairedReadings

/-!
# Actions in loose mode

Drafts that differ in missing documentation are alike, so an action does the same to both as
long as their current group is plain (`Action.bare_run`), which here means that it is not
flagged (`Draft.Bares`). Two tests would tell them apart otherwise: whether the current
group has entries at all, and which one is the first.

Outside of source the current group is not flagged, until an item without documentation
gets one of its own. In source it may be, but then it is the last group of its section
(`Draft.Veils`), so that placing it again, which is all that the test for entries decides
there, does nothing. So what is left to follow here are the actions that take place in
source and those that look at loose mode themselves.
-/

namespace DocComment

open Text

namespace Draft

/-! ## Two degrees of likeness -/

/-- The drafts differ in missing documentation, but not in their current group. -/
def Bares (d d' : Draft) : Prop :=
  ∃ named, Bare (.missing named) d d'

/-- The drafts differ in missing documentation. If they do in their current group, that is
the last one of its section. -/
def Veils (d d' : Draft) : Prop :=
  ∃ named, Hides named d d' ∧
    (named d'.group → ∃ s, d'.current = some s ∧ s.groups.getLast? = some d'.group)

variable {named : GroupId → Prop} {d d' e e' : Draft}

theorem Bares.veils (h : Bares d d') : Veils d d' := by
  obtain ⟨named, hides, hno⟩ := h
  exact ⟨named, hides, fun hn => absurd hn hno⟩

theorem Bares.hooked (h : Bares d d') (hook : Option Hook) :
    Bares (hooked hook d) (hooked hook d') := by
  obtain ⟨named, hbare⟩ := h
  exact ⟨named, hbare.hooked hook⟩

theorem Veils.keep (h : Veils d d') (hk : ∀ {named}, Hides named d d' → Hides named e e')
    (hg : e'.group = d'.group) (hc : e'.current = d'.current) : Veils e e' := by
  obtain ⟨named, hides, hlast⟩ := h
  exact ⟨named, hk hides, hg ▸ hc ▸ hlast⟩

theorem Veils.of_same (h : Veils d d') (hk : ∀ {named}, Hides named d d' → Hides named e e')
    (hs : SamePlaces d' e') : Veils e e' :=
  h.keep hk hs.group hs.current

theorem Veils.bares_freshGroup (h : Veils d d') : Bares d.freshGroup d'.freshGroup := by
  obtain ⟨named, hides, -⟩ := h
  exact ⟨named, hides.bare_freshGroup⟩

/-! ## Declarations -/

/-- A group that is flagged here was so before, or is a new one without entries. -/
theorem Veils.flagUndocumented (h : Veils d d') (hp : d'.pending = none)
    (hstyle : d'.nextStyle = none) (hs : d'.scratch = none) :
    ∃ named, Hides named d.flagUndocumented d'.flagUndocumented ∧
      d'.flagUndocumented.discardNodoc? = none := by
  obtain ⟨named, hides, -⟩ := h
  refine ⟨_, hides.flagUndocumented hp hstyle hs, ?_⟩
  obtain ⟨⟨-, hloose⟩, -⟩ := hides
  have hfresh : d'.flagUndocumented = d'.freshGroup := by
    rw [Draft.flagUndocumented]
    exact if_pos hloose
  have hempty : d'.freshGroup.currentGroup = {} := GroupStore.get_insert_nextId _ _
  have hpending : d'.freshGroup.pending = none := hp
  rw [hfresh, discardNodoc?, hempty, hpending]
  rfl

/-- A function that is declared for a flagged group is not skipped, so the group is
placed. -/
theorem Hides.veils_declareFunction (h : Hides named d d') (hd : d'.current.isSome)
    (hn : named d'.group → d'.discardNodoc? = none) (binding : Binding) (name : String)
    (params : Option String) :
    Veils (d.declareFunction binding name params) (d'.declareFunction binding name params) := by
  have hskips := Likeness.skips_missing named d'.group
  refine ⟨named, h.declareFunction hskips binding name params, fun hnamed => ?_⟩
  rw [declareFunction_group] at hnamed
  obtain ⟨s, hs⟩ := Option.isSome_iff_exists.1 hd
  refine ⟨s.place d'.group, ?_, ?_⟩
  · rw [Draft.declareFunction, hn hnamed]
    exact congrArg (Option.map (·.place d'.group)) hs
  · rw [declareFunction_group]
    exact s.getLast?_place d'.group

/-- A parameter that is declared for a flagged group is not skipped, so the group is
left. -/
theorem Hides.bares_declareParam (h : Hides named d d')
    (hn : named d'.group → d'.discardNodoc? = none) (key : String) (definition : Option String)
    (kind : ParamKind) :
    Together Bares (d.declareParam key definition kind)
      (d'.declareParam key definition kind) := by
  have hskips := Likeness.skips_missing named d'.group
  have hplain : d'.discardNodoc? ≠ none → ¬ named d'.group := mt hn
  exact (h.bare_declareParam hskips hplain key definition kind).mono fun _ _ _ he => ⟨named, he⟩

/-! ## Source -/

theorem Veils.startCapture (h : Veils d d') : Veils d.startCapture d'.startCapture := by
  obtain ⟨named, hides, hlast⟩ := h
  refine ⟨named, hides.startCapture, fun hnamed => ?_⟩
  rw [Draft.startCapture] at hnamed ⊢
  cases hs : d'.scratch with
  | some s =>
      rw [hs] at hnamed
      exact hlast hnamed
  | none =>
      rw [hs] at hnamed
      exact absurd hnamed hides.plain_nextId

/-- Source is captured into the current group, so that is bare if a capture ends. -/
theorem Veils.finishCapture (h : Veils d d') (hg : ∀ s, d'.scratch = some s → s.group = d'.group) :
    Veils d.finishCapture d'.finishCapture := by
  obtain ⟨named, hides, hlast⟩ := h
  cases hs : d'.scratch with
  | none =>
      rw [finishCapture_of_none hs, finishCapture_of_none (hides.captures.trans hs)]
      exact ⟨named, hides, hlast⟩
  | some s =>
      have hno : ¬ named d'.group := hg s hs ▸ hides.plain_scratch hs
      have hbare : Bare (.missing named) d d' := ⟨hides, hno⟩
      exact Bares.veils ⟨named, hbare.finishCapture⟩

theorem Veils.applyDirective (h : Veils d d') (hd : d'.InSource) {option : String}
    (ho : option ≠ "loose") (enabled : Bool) (line : Option Int) :
    Together Veils (d.applyDirective option enabled line)
      (d'.applyDirective option enabled line) := by
  obtain ⟨named, hides, hlast⟩ := h
  have hmode : Veils { d with doc := { d.doc with literate := enabled } }
      { d' with doc := { d'.doc with literate := enabled } } :=
    ⟨named, hides.setMode enabled, hlast⟩
  refine hides.applyDirective ?_ (fun hloose => absurd hloose ho) line
  rw [setLiterate, setLiterate]
  split
  · exact hmode.startCapture
  · exact hmode.finishCapture hd.group

theorem Veils.addKeyword (h : Veils d d') (whole keyword text : String) :
    Together Veils (d.addKeyword whole keyword text) (d'.addKeyword whole keyword text) := by
  obtain ⟨named, hides, hlast⟩ := h
  refine (hides.addKeyword whole keyword text).mono fun e e' he hk => ⟨named, hk, ?_⟩
  rw [(same_addKeyword he).group, (same_addKeyword he).current]
  exact hlast

theorem Veils.flush (h : Veils d d') : Veils d.flush d'.flush :=
  h.of_same (fun hides => hides.flush) (same_flush d')

theorem Veils.captureLine (h : Veils d d') (line : String) :
    Veils (d.captureLine line) (d'.captureLine line) :=
  h.of_same (fun hides => hides.captureLine line) (same_captureLine d' line)

/-- Where source starts, a flagged group has been placed already, so that it need not be
asked whether it has entries. -/
theorem Veils.enterSource (h : Veils d d') : Veils (Hook.enterSource d) (Hook.enterSource d') := by
  obtain ⟨named, hides, hlast⟩ := h
  rw [Hook.enterSource, Hook.enterSource, hides.literate]
  split
  · refine Veils.startCapture ?_
    by_cases hn : named d'.group
    · obtain ⟨s, hs, hend⟩ := hlast hn
      have hplace (e : Draft) (hc : e.current = some s) (hg : e.group = d'.group) :
          e.place = e := by
        have hsame : e.current.map (·.place e.group) = e.current := by
          rw [hc, hg, Option.map_some, Section.place_of_getLast? hend]
        rw [place, placeGroup, hsame]
      rw [hplace d' hs rfl, hplace d (hides.current.trans hs) hides.group, ite_self, ite_self]
      exact ⟨named, hides, hlast⟩
    · have hbare : Bare (.missing named) d d' := ⟨hides, hn⟩
      rw [hbare.resembles.isEmpty]
      split
      · exact ⟨named, hides, hlast⟩
      · exact Bares.veils ⟨named, hbare.keep hides.place rfl⟩
  · exact ⟨named, hides, hlast⟩

end Draft

/-! ## Actions -/

/-- How the drafts are alike in a phase. -/
def Phase.Alike (p : Phase) : Draft → Draft → Prop :=
  if p = .source then Draft.Veils else Draft.Bares

theorem Draft.Bares.alike {d d' : Draft} (h : Bares d d') (p : Phase) : p.Alike d d' := by
  rw [Phase.Alike]
  split
  · exact h.veils
  · exact h

theorem Phase.Alike.of_iff {p q : Phase} {d d' : Draft} (h : p.Alike d d')
    (hpq : q = .source ↔ p = .source) : q.Alike d d' := by
  simp only [Phase.Alike, hpq]
  exact h

theorem Phase.Alike.bares {p : Phase} {d d' : Draft} (h : p.Alike d d') (hp : p ≠ .source) :
    d.Bares d' := by
  rwa [Phase.Alike, if_neg hp] at h

namespace Action

open Draft

/-- Whether an action may leave a flagged group behind as the current one. -/
def veils : Action → Bool
  | documentedFunction | documentedGlobalFunction | undocumentedFunction | undocumentedParam
  | endOfFunction | enableOption | disableOption | sourceTodo | sourceLine => true
  | _ => false

/-- How the drafts are alike after an action. -/
def leaves (a : Action) : Draft → Draft → Prop :=
  if a.veils then Veils else Bares

variable {d d' : Draft}

theorem veils_splitFromSection (h : Bares d d') (hd : d'.Leaving) :
    ∃ named, Hides named (splitFromSection d) (splitFromSection d') ∧
      (named (splitFromSection d').group → (splitFromSection d').discardNodoc? = none) := by
  obtain ⟨named, hbare⟩ := h
  rw [splitFromSection, splitFromSection, hbare.beside.opensSection]
  split
  · have hveils : Veils d d' := Bares.veils ⟨named, hbare⟩
    obtain ⟨named, hides, hn⟩ := hveils.flagUndocumented hd.settled hd.style hd.scratch
    exact ⟨named, hides, fun _ => hn⟩
  · exact ⟨named, hbare.beside, fun hn => absurd hn hbare.plain⟩

theorem veils_declareFunction (h : Bares d d') (hd : d'.Leaving) (binding : Binding)
    (name : String) (params : Option String) :
    Veils ((splitFromSection d).declareFunction binding name params)
      ((splitFromSection d').declareFunction binding name params) := by
  obtain ⟨named, hides, hn⟩ := veils_splitFromSection h hd
  have hopened := (frame_splitFromSection d').opened (Leaving.toClosed hd).opened
  exact hides.veils_declareFunction hopened hn binding name params

theorem bares_declareLibParam (h : Bares d d') (hd : d'.Leaving) (key value : String) :
    Together Bares (declareLibParam d key value) (declareLibParam d' key value) := by
  obtain ⟨named, hbare⟩ := h
  have hsame : d.currentGroup = d'.currentGroup := by
    rw [currentGroup, hbare.beside.group]
    exact GroupStore.Flags.same hbare.beside.store hbare.plain
  rw [declareLibParam, declareLibParam, hsame, hbare.beside.opensSection]
  simp only []
  split
  · exact .ok ⟨named, hbare⟩
  · split
    · have hveils : Veils d d' := Bares.veils ⟨named, hbare⟩
      obtain ⟨named, hides, hn⟩ := hveils.flagUndocumented hd.settled hd.style hd.scratch
      exact hides.bares_declareParam (fun _ => hn) key (some value) .plain
    · exact Hides.bares_declareParam hbare.beside (fun hn => absurd hn hbare.plain) key
        (some value) .plain

theorem together_captureOr {R : Draft → Draft → Prop} (h : Veils d d') (hd : d'.InSource)
    (line : String) {declare : Draft → Except Fault Draft} (hveils : ∀ {e e'}, Veils e e' → R e e')
    (hdeclare : ∀ {named}, Hides named d.flagUndocumented d'.flagUndocumented →
      d'.flagUndocumented.discardNodoc? = none → d'.flagUndocumented.current.isSome →
      Together R (declare d.flagUndocumented) (declare d'.flagUndocumented)) :
    Together R (captureOr d line declare) (captureOr d' line declare) := by
  have hscratch : d.scratch = d'.scratch := by
    obtain ⟨named, hides, -⟩ := h
    exact hides.captures
  rw [captureOr, captureOr, hscratch]
  split
  · exact .ok (hveils (h.captureLine line))
  · next hs =>
      obtain ⟨named, hides, hn⟩ := h.flagUndocumented hd.settled hd.style
        (Option.not_isSome_iff_eq_none.1 hs)
      exact hdeclare hides hn ((frame_flagUndocumented d').opened hd.opened)

/-- What an action leads to is the same for both drafts. If it chose the transition, the
current group is bare. -/
structure Alike (R : Draft → Draft → Prop) (x x' : Effect) : Prop where
  next : x.next = x'.next
  draft : x'.next = none → R x.draft x'.draft
  moved : x'.next.isSome → Bares x.draft x'.draft

theorem Alike.of_draft {R : Draft → Draft → Prop} (h : R d d') (log log' : Log) :
    Alike R ⟨d, none, log⟩ ⟨d', none, log'⟩ :=
  ⟨rfl, fun _ => h, (nomatch ·)⟩

theorem Alike.of_moved {R : Draft → Draft → Prop} (h : Bares d d') (t : Transition) :
    Alike R ⟨d, some t, []⟩ ⟨d', some t, []⟩ :=
  ⟨rfl, (nomatch ·), fun _ => h⟩

/-- Only what looks at loose mode, or takes place in source, may leave a flagged group
behind. -/
theorem leaves_of_bare {a : Action} (hb : a.before ≠ .source) (hr : a.reports = false) :
    a.leaves = Bares := by
  have hveils : a.veils = false := by
    revert hb hr
    cases a <;> decide
  rw [leaves, hveils, if_neg Bool.false_ne_true]

theorem together_run_of_bare {a : Action} {line : Nat} {c : Captures} (hb : a.before ≠ .source)
    (hr : a.reports = false) (h : Bares d d') :
    Together (Alike a.leaves) (a.run line c d) (a.run line c d') := by
  obtain ⟨named, hbare⟩ := h
  have hrun := @bare_run _ d d' a line c hbare (by simp [hr])
  rw [leaves_of_bare hb hr]
  refine hrun.mono fun _ _ _ hboth => ?_
  obtain ⟨hnext, he⟩ := hboth
  exact ⟨hnext, fun _ => ⟨named, he⟩, fun _ => ⟨named, he⟩⟩

/-- The other actions, as far as they neither log nor choose the transition. -/
theorem together_apply {a : Action} {line : Nat} {c : Captures} (ha : a.plain)
    (hreports : a.before = .source ∨ a.reports) (hd : a.before.Fits d')
    (hno : a = .enableOption ∨ a = .disableOption → trim (c.text 0) ≠ "loose")
    (h : a.before.Alike d d') : Together a.leaves (a.apply line c d) (a.apply line c d') := by
  cases a with
  | documentedFunction | documentedGlobalFunction =>
      exact .ok (veils_declareFunction h hd _ _ _)
  | undocumentedFunction =>
      rw [apply, apply]
      refine together_captureOr h hd _ id fun hides hn hopened => ?_
      exact .ok (hides.veils_declareFunction hopened (fun _ => hn) _ _ _)
  | endOfFunction =>
      have hended : Veils { d with functionGroup := none } { d' with functionGroup := none } :=
        Veils.keep h (fun hides => hides.setFunction rfl) rfl rfl
      exact .ok (hended.captureLine _)
  | enableOption => exact Veils.applyDirective h hd (hno (.inl rfl)) true _
  | disableOption => exact Veils.applyDirective h hd (hno (.inr rfl)) false _
  | openTable =>
      obtain ⟨named, hides, -⟩ : Veils d d' := h
      have hleft := beside_leavePlacedGroup hides.finishCapture
      exact .ok ⟨named, hleft.bare_openTable _ none⟩
  | sourceTodo => exact (Veils.addKeyword h _ _ _).map fun _ _ _ he => he.flush
  | startComment => exact .ok (Veils.bares_freshGroup h)
  | sourceLine => exact .ok (Veils.captureLine h _)
  | missingTitle | untitledPreamble | documentedLibParam | undocumentedParam => cases ha
  | _ => rcases hreports with hreports | hreports <;> cases hreports

theorem together_run {a : Action} {line : Nat} {c : Captures} (hd : a.before.Fits d')
    (hno : a = .enableOption ∨ a = .disableOption → trim (c.text 0) ≠ "loose")
    (h : a.before.Alike d d') :
    Together (Alike a.leaves) (a.run line c d) (a.run line c d') := by
  by_cases hreports : a.before = .source ∨ a.reports
  · by_cases ha : a.plain
    · have happly : Together a.leaves (a.apply line c d) (a.apply line c d') :=
        together_apply ha hreports hd hno h
      rw [run_plain ha, run_plain ha]
      exact happly.map fun _ _ _ hleaves => .of_draft hleaves [] []
    · cases a with
      | documentedLibParam =>
          rw [run, run]
          split
          · obtain ⟨named, hbare⟩ : Bares d d' := h
            have hleft := beside_leavePlacedGroup hbare.beside
            exact .ok (.of_moved ⟨named, hleft.bare_openTable _ _⟩ _)
          · exact (bares_declareLibParam h hd _ _).map fun _ _ _ he => .of_draft he [] []
      | undocumentedParam =>
          rw [run, run]
          split
          · obtain ⟨named, hides, -⟩ : Veils d d' := h
            have hfresh := hides.finishCapture.freshGroup
            exact .ok (.of_moved ⟨named, hfresh.bare_openTable _ _⟩ _)
          · refine Together.map (R := Veils) ?_ fun _ _ _ he => .of_draft he [] []
            refine together_captureOr h hd _ id fun hides hn _ => ?_
            exact (hides.bares_declareParam (fun _ => hn) _ _ _).mono fun _ _ _ he => he.veils
      | missingTitle | untitledPreamble =>
          rcases hreports with hreports | hreports <;> cases hreports
      | _ => exact absurd rfl ha
  · rw [not_or, Bool.not_eq_true] at hreports
    exact together_run_of_bare hreports.1 hreports.2 (h.bares hreports.1)

end Action

end DocComment
