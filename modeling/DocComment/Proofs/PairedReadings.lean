import DocComment.Proofs.SideBySide

/-!
# Two readings, side by side

Drafts that are alike stay alike when the same action is performed on both, or the same
hook is run, as long as their current group is a plain one (`Draft.Bare`). Then every test
on it comes out the same. The actions that look at loose mode need it to be the same in
both (`Action.reports`).

So two readings that are in the same state go on side by side (`Reading.Paired`). They
meet the same rules, as the text of the line is all that decides about that. All there is
to show in order to walk along two readings is that each action leads them the same way
and keeps what the drafts have in common; a line that is evaluated again, and again, is
dealt with here.
-/

namespace DocComment

open Text Relation Reader

/-! ## Plain current groups -/

namespace Draft

/-- The drafts are alike, and their current group may be looked into. -/
structure Bare (L : Likeness) (d d' : Draft) : Prop where
  beside : Beside L d d'
  plain : L.plain d'.group

variable {L : Likeness} {d d' e e' : Draft}

/-- A new group is plain, whatever was the current one. -/
theorem Beside.bare_freshGroup (h : Beside L d d') : Bare L d.freshGroup d'.freshGroup :=
  ⟨h.freshGroup, h.plain_nextId⟩

theorem Beside.bare_openSection (h : Beside L d d') (title : String) :
    Bare L (d.openSection title) (d'.openSection title) :=
  ⟨h.openSection title, h.flush.plain_nextId⟩

theorem Beside.bare_openTable (h : Beside L d d') (key : String) (lead : Option String) :
    Bare L (d.openTable key lead) (d'.openTable key lead) :=
  ((h.startTable _).addPlaced _).bare_freshGroup

namespace Bare

theorem resembles (h : Bare L d d') : d.currentGroup.Resembles d'.currentGroup := by
  have hgroup := h.beside.store.group d'.group
  rw [currentGroup, currentGroup, h.beside.group]
  exact L.resembles h.plain hgroup

/-- What leaves the current group the current one leaves it plain. -/
theorem keep (h : Bare L d d') (hb : Beside L e e') (hg : e'.group = d'.group) : Bare L e e' :=
  ⟨hb, hg ▸ h.plain⟩

theorem together {x y : Except Fault Draft} (h : Bare L d d') (hb : Together (Beside L) x y)
    (hg : ∀ {e'}, y = .ok e' → e'.group = d'.group) : Together (Bare L) x y :=
  hb.mono fun _ _ he hbeside => h.keep hbeside (hg he)

theorem freshGroup (h : Bare L d d') : Bare L d.freshGroup d'.freshGroup :=
  h.beside.bare_freshGroup

theorem openSection (h : Bare L d d') (title : String) :
    Bare L (d.openSection title) (d'.openSection title) :=
  h.beside.bare_openSection title

theorem ensureSection (h : Bare L d d') (reason : Option Template) :
    Bare L (d.ensureSection reason).1 (d'.ensureSection reason).1 := by
  refine ⟨h.beside.ensureSection reason, ?_⟩
  unfold Draft.ensureSection
  split
  · exact h.plain
  · exact h.beside.flush.plain_nextId

theorem flush (h : Bare L d d') : Bare L d.flush d'.flush :=
  h.keep h.beside.flush (flush_group d')

theorem setBack (h : Bare L d d') (back : Option String) :
    Bare L { d with back } { d' with back } :=
  h.keep (h.beside.setBack back) rfl

theorem addPlaced (h : Bare L d d') (x : Entry) :
    Bare L (d.flush.addEntry x).place (d'.flush.addEntry x).place :=
  h.keep (h.beside.addPlaced x) (flush_group d')

theorem pend (h : Bare L d d') (p : Option Entry) :
    Bare L { d.flush with pending := p } { d'.flush with pending := p } :=
  h.keep (h.beside.pend p) (flush_group d')

theorem appendText (h : Bare L d d') (text : String) (onNewLine : Bool) :
    Together (Bare L) (d.appendText text onNewLine) (d'.appendText text onNewLine) :=
  h.together (h.beside.appendText text onNewLine) appendText_group

theorem captureLine (h : Bare L d d') (line : String) :
    Bare L (d.captureLine line) (d'.captureLine line) :=
  h.keep (h.beside.captureLine line) (captureLine_group d' line)

theorem finishCapture (h : Bare L d d') : Bare L d.finishCapture d'.finishCapture :=
  h.keep h.beside.finishCapture (finishCapture_group d')

theorem startCapture (h : Bare L d d') : Bare L d.startCapture d'.startCapture := by
  refine ⟨h.beside.startCapture, ?_⟩
  rw [Draft.startCapture]
  split
  · exact h.plain
  · exact h.beside.plain_nextId

theorem flagUndocumented (h : Bare L d d') (hmode : L.SameMode) :
    Bare L d.flagUndocumented d'.flagUndocumented := by
  refine ⟨h.beside.flagUndocumented hmode, ?_⟩
  rw [flagUndocumented_group]
  exact h.beside.plain_nextId

theorem declareFunction (h : Bare L d d') (binding : Binding) (name : String)
    (params : Option String) :
    Bare L (d.declareFunction binding name params) (d'.declareFunction binding name params) :=
  h.keep (h.beside.declareFunction (Likeness.skips_of_plain h.plain) binding name params)
    (declareFunction_group d' binding name params)

theorem declareConstant (h : Bare L d d') (name : String) :
    Bare L (d.declareConstant name) (d'.declareConstant name) :=
  h.keep (h.beside.declareConstant (Likeness.skips_of_plain h.plain) name)
    (declareConstant_group d' name)

theorem applyDirective (h : Bare L d d') (hmode : L.SameMode) (option : String) (enabled : Bool)
    (line : Option Int) :
    Together (Bare L) (d.applyDirective option enabled line)
      (d'.applyDirective option enabled line) := by
  have hset : Bare L { d with doc := { d.doc with literate := enabled } }
      { d' with doc := { d'.doc with literate := enabled } } :=
    h.keep (h.beside.setMode enabled) rfl
  refine h.beside.applyDirective ?_ (fun _ => ?_) line
  · rw [setLiterate, setLiterate]
    split
    · exact hset.startCapture
    · exact hset.finishCapture
  · exact h.keep (h.beside.setLoose hmode enabled) (same_setLoose d' enabled).group

end Bare

/-- A parameter is declared for a plain group, or for one that is not skipped; that one is
left. -/
theorem Beside.bare_declareParam (h : Beside L d d') (hs : L.Skips d'.group)
    (hn : d'.discardNodoc? ≠ none → L.plain d'.group) (key : String)
    (definition : Option String) (kind : ParamKind) :
    Together (Bare L) (d.declareParam key definition kind)
      (d'.declareParam key definition kind) := by
  have hskip := h.discardNodoc? hs
  have hgroup := h.describe
    (fun g => { g with param := some key, paramKind := some kind, params := definition })
    fun _ _ => rfl
  rw [Draft.declareParam, Draft.declareParam]
  generalize d.discardNodoc? = x at hskip
  cases hy : d'.discardNodoc? with
  | none =>
      rw [hy] at hskip
      cases hskip
      exact (hgroup.register key kind).map fun _ _ _ hr => hr.place.bare_freshGroup
  | some f' =>
      rw [hy] at hskip
      cases hskip with
      | some hf =>
          refine .ok ⟨hf, ?_⟩
          rw [(same_discardNodoc? hy).group]
          exact hn (by simp [hy])

theorem Bare.declareParam (h : Bare L d d') (key : String) (definition : Option String)
    (kind : ParamKind) :
    Together (Bare L) (d.declareParam key definition kind)
      (d'.declareParam key definition kind) :=
  h.beside.bare_declareParam (Likeness.skips_of_plain h.plain) (fun _ => h.plain) key definition
    kind

end Draft

/-! ## Actions -/

namespace Action

open Draft

/-- Whether an action may look at loose mode. -/
def reports : Action → Bool
  | documentedFunction | documentedGlobalFunction | documentedLibParam | undocumentedFunction
  | undocumentedParam | enableOption | disableOption => true
  | _ => false

variable {L : Likeness} {d d' : Draft}

theorem bare_openPreamble (h : Bare L d d') (title : String) :
    Bare L (openPreamble d title) (openPreamble d' title) :=
  (h.openSection title).keep ((h.openSection title).beside.setStyle _) rfl

theorem bare_addTrailing (h : Bare L d d') (text : String) :
    Together (Bare L) (addTrailing d text) (addTrailing d' text) := by
  rw [addTrailing, addTrailing]
  split
  · exact .ok h
  · exact h.appendText _ false

theorem bare_addFormula (h : Bare L d d') (formula trailing : String) :
    Together (Bare L) (addFormula d formula trailing) (addFormula d' formula trailing) := by
  rw [addFormula, addFormula]
  refine bare_addTrailing ?_ trailing
  split
  · exact h
  · exact (h.pend _).flush

theorem bare_closeFormula (h : Bare L d d') (formula trailing : String) :
    Together (Bare L) (closeFormula d formula trailing) (closeFormula d' formula trailing) := by
  rw [closeFormula, closeFormula]
  split
  · exact bare_addTrailing h.flush trailing
  · exact (h.appendText _ true).bind fun _ _ _ he => bare_addTrailing he.flush trailing

theorem bare_entryGroup (h : Bare L d d') : Bare L (entryGroup d) (entryGroup d') := by
  have hlast : d.currentGroup.entries.getLast?.any Entry.isHeading =
    d'.currentGroup.entries.getLast?.any Entry.isHeading := h.resembles.getLast?_any Prod.fst
  rw [entryGroup, entryGroup, hlast]
  split
  · exact h
  · exact h.freshGroup

theorem bare_splitFromSection (h : Bare L d d') (hmode : L.SameMode) :
    Bare L (splitFromSection d) (splitFromSection d') := by
  rw [splitFromSection, splitFromSection, h.beside.opensSection]
  split
  · exact h.flagUndocumented hmode
  · exact h

theorem bare_declareLibParam (h : Bare L d d') (hmode : L.SameMode) (key value : String) :
    Together (Bare L) (declareLibParam d key value) (declareLibParam d' key value) := by
  have hhead : d.currentGroup.entries.head?.any Entry.isHeading =
    d'.currentGroup.entries.head?.any Entry.isHeading := h.resembles.head?_any Prod.fst
  rw [declareLibParam, declareLibParam]
  simp only [h.resembles.function, h.resembles.constant, h.beside.opensSection, hhead]
  split
  · exact .ok h
  · split
    · exact (h.flagUndocumented hmode).declareParam key (some value) .plain
    · exact h.declareParam key (some value) .plain

theorem bare_captureOr (h : Bare L d d') (hmode : L.SameMode) (line : String)
    {declare : Draft → Except Fault Draft}
    (hdeclare : ∀ {e e'}, Bare L e e' → Together (Bare L) (declare e) (declare e')) :
    Together (Bare L) (captureOr d line declare) (captureOr d' line declare) := by
  rw [captureOr, captureOr, h.beside.captures]
  split
  · exact .ok (h.captureLine line)
  · exact hdeclare (h.flagUndocumented hmode)

theorem beside_leavePlacedGroup (h : Beside L d d') :
    Beside L (leavePlacedGroup d) (leavePlacedGroup d') := by
  rw [leavePlacedGroup, leavePlacedGroup, h.inSection]
  split
  · exact h.freshGroup
  · exact h

/-- An action does the same to both drafts. -/
theorem bare_apply {a : Action} {line : Nat} {c : Captures} (h : Bare L d d')
    (hmode : a.reports → L.SameMode) :
    Together (Bare L) (a.apply line c d) (a.apply line c d') := by
  cases a with
  | missingTitle | untitledPreamble | documentedLibParam | undocumentedParam => exact .ok h
  | preambleSection => exact .ok (bare_openPreamble h _)
  | flush => exact .ok h.flush
  | closeComment => exact .ok (h.keep h.beside.closeComment (flush_group d'))
  | newSection => exact .ok (h.openSection _)
  | newTitle => exact .ok (h.addPlaced _)
  | declareFunction => exact .ok (h.declareFunction _ _ _)
  | declareConstant => exact .ok (h.declareConstant _)
  | todoFixme => exact h.together (h.beside.addKeyword _ _ _) addKeyword_group
  | append | appendLine | appendBlankLine => exact h.appendText _ _
  | bullet | definition =>
      exact .ok (h.keep (h.beside.appendItem _) (same_appendItem d' _).group)
  | startCode => exact .ok (h.keep (h.beside.openCode _) (flush_group d'))
  | mathOpen => exact .ok (h.pend _)
  | mathInline => exact bare_addFormula h _ _
  | mathClose => exact bare_closeFormula h _ _
  | documentedFunction | documentedGlobalFunction =>
      exact .ok ((bare_splitFromSection h (hmode rfl)).declareFunction _ _ _)
  | undocumentedFunction =>
      exact bare_captureOr h (hmode rfl) _ fun he => .ok (he.declareFunction _ _ _)
  | endOfFunction =>
      have hended : Bare L { d with functionGroup := none } { d' with functionGroup := none } :=
        h.keep (h.beside.setFunction rfl) rfl
      exact .ok (hended.captureLine _)
  | enableOption => exact h.applyDirective (hmode rfl) _ true _
  | disableOption => exact h.applyDirective (hmode rfl) _ false _
  | openTable =>
      exact .ok ((beside_leavePlacedGroup h.beside.finishCapture).bare_openTable _ none)
  | sourceTodo =>
      refine Together.map (h.together (h.beside.addKeyword _ _ _) addKeyword_group) ?_
      exact fun _ _ _ he => he.flush
  | startComment => exact .ok h.freshGroup
  | sourceLine => exact .ok (h.captureLine _)
  | paramsTitle =>
      have hflush := h.flush
      rw [apply, apply, hflush.resembles.isEmpty]
      refine .ok (Bare.addPlaced ?_ _)
      split
      · exact hflush
      · exact hflush.freshGroup
  | paramsComment => exact .ok ((bare_entryGroup h).setBack _)
  | paramsBlockComment =>
      exact (bare_addTrailing (bare_entryGroup h) _).map fun _ _ _ he => he.setBack _
  | paramsInlineComment =>
      exact ((bare_entryGroup h).appendText _ _).map fun _ _ _ he => he.flush
  | tableParam | listParam => exact h.flush.declareParam _ _ _
  | sameLineParam =>
      exact (h.flush.freshGroup.appendText _ _).bind fun _ _ _ he =>
        he.flush.declareParam _ _ _
  | closeTable => exact .ok (h.keep h.beside.closeTable (flush_group d'))
  | paramsOther => exact .ok h.flush.freshGroup

/-- An action leads both drafts the same way. -/
theorem bare_run {a : Action} {line : Nat} {c : Captures} (h : Bare L d d')
    (hmode : a.reports → L.SameMode) :
    Together (fun x x' => x.next = x'.next ∧ Bare L x.draft x'.draft) (a.run line c d)
      (a.run line c d') := by
  by_cases ha : a.plain
  · rw [run_plain ha, run_plain ha]
    exact (bare_apply h hmode).map fun _ _ _ he => ⟨rfl, he⟩
  · cases a with
    | missingTitle =>
        have hensure := h.ensureSection (some
          { before := "Missing '# title' in preamble from '", after := "'." })
        rw [run, run]
        generalize d.ensureSection _ = x at hensure ⊢
        generalize d'.ensureSection _ = y at hensure ⊢
        exact .ok ⟨rfl, hensure⟩
    | untitledPreamble =>
        rw [run, run, h.beside.fullname]
        exact .ok ⟨rfl, bare_openPreamble h _⟩
    | documentedLibParam =>
        rw [run, run]
        split
        · exact .ok ⟨rfl, (beside_leavePlacedGroup h.beside).bare_openTable _ _⟩
        · exact (bare_declareLibParam h (hmode rfl) _ _).map fun _ _ _ he => ⟨rfl, he⟩
    | undocumentedParam =>
        rw [run, run]
        split
        · exact .ok ⟨rfl, h.beside.finishCapture.freshGroup.bare_openTable _ _⟩
        · refine Together.map (R := Bare L) ?_ fun _ _ _ he => ⟨rfl, he⟩
          exact bare_captureOr h (hmode rfl) _ fun he => he.declareParam _ _ _
    | _ => exact absurd rfl ha

end Action

/-! ## Hooks -/

namespace Draft.Bare

variable {L : Likeness} {d d' : Draft}

theorem enterSource (h : Bare L d d') : Bare L (Hook.enterSource d) (Hook.enterSource d') := by
  rw [Hook.enterSource, Hook.enterSource, h.beside.literate]
  split
  · refine startCapture ?_
    rw [h.resembles.isEmpty]
    split
    · exact h
    · exact h.keep h.beside.place rfl
  · exact h

theorem hooked (h : Bare L d d') (hook : Option Hook) :
    Bare L (hooked hook d) (hooked hook d') := by
  cases hook with
  | none => exact h
  | some hook =>
      cases hook with
      | startEof | preambleEof => exact h.ensureSection _
      | flush => exact h.flush
      | sourceEnter => exact h.enterSource
      | sourceExit => exact h.finishCapture

theorem crossTo (h : Bare L d d') (s s' : State) : Bare L (s.crossTo s' d) (s.crossTo s' d') :=
  (h.hooked s.exit).hooked s'.enter

theorem finish {g g' : Reading} (h : Bare L g.draft g'.draft) (hs : g.state = g'.state) :
    Bare L (Reader.finish g).draft (Reader.finish g').draft := by
  rw [finish_draft, finish_draft, hs]
  exact (h.hooked _).hooked _

end Draft.Bare

/-! ## Lines -/

theorem Transition.target?_congr {d d' : Draft} (h : d.back = d'.back) (t : Transition) :
    t.target? d = t.target? d' := by
  cases t with
  | stay | goTo => rfl
  | resolve resolver => simp only [Transition.target?, Resolver.target, h]

namespace Reading

/-- The readings are at the same line of a source, in the same state, with drafts that go
together there. -/
structure Paired (R : State → Draft → Draft → Prop) (g g' : Reading) : Prop where
  state : g.state = g'.state
  entering : g.entering = g'.entering
  line : g.line = g'.line
  draft : R g'.state g.draft g'.draft

/-- What an action led to leads both readings the same way from a state, and the drafts go
together there. -/
structure LeadsOn (R : State → Draft → Draft → Prop) (grammar : Grammar) (s : State)
    (next : Transition) (x x' : Effect) : Prop where
  target : (x.next.getD next).target? x.draft = (x'.next.getD next).target? x'.draft
  stays : (x'.next.getD next).target? x'.draft = none → R s x.draft x'.draft
  moves : ∀ target again s', (x'.next.getD next).target? x'.draft = some (target, again) →
    grammar.find? target = some s' → R s' (s.crossTo s' x.draft) (s.crossTo s' x'.draft)

variable {R : State → Draft → Draft → Prop} {r : Reader} {line : String} {g g' k k' : Reading}

theorem Paired.of_like (h : g.Paired R g') (hl : k.Like g) (hl' : k'.Like g') : k.Paired R k' := by
  refine ⟨?_, ?_, ?_, ?_⟩
  · rw [hl.state, hl'.state, h.state]
  · rw [hl.entering, hl'.entering, h.entering]
  · rw [hl.line, hl'.line, h.line]
  · rw [hl.draft, hl'.draft, hl'.state]
    exact h.draft

/-- A line is evaluated in both readings, and both go on in the same way, if its action
does. -/
theorem Paired.evaluate (h : g.Paired R g')
    (hact : ∀ m, g'.state.matchLine line g'.entering = some m →
      Together (LeadsOn R r.grammar g'.state m.rule.next) (act g m) (act g' m)) :
    Together (fun x y => x.2 = y.2 ∧ x.1.Paired R y.1) (r.evaluate line g)
      (r.evaluate line g') := by
  have hmatch : g.state.matchLine line g.entering = g'.state.matchLine line g'.entering := by
    rw [h.state, h.entering]
  cases hm : g'.state.matchLine line g'.entering with
  | none =>
      obtain ⟨k, he, hl⟩ := @evaluate_of_none r line g (hmatch.trans hm)
      obtain ⟨k', he', hl'⟩ := @evaluate_of_none r line g' hm
      rw [he, he']
      refine .ok ⟨rfl, .of_like ?_ hl hl'⟩
      exact ⟨h.state, rfl, h.line, h.draft⟩
  | some m =>
      rcases (hact m hm).outcomes with ⟨f, ha, ha'⟩ | ⟨e, e', ha, ha', hleads⟩
      · rw [evaluate_of_error (hmatch.trans hm) ha, evaluate_of_error hm ha']
        exact .error f
      · cases ht : (e'.next.getD m.rule.next).target? e'.draft with
        | none =>
            obtain ⟨k, he, hl⟩ :=
              @evaluate_of_stay r _ _ _ _ (hmatch.trans hm) ha (hleads.target.trans ht)
            obtain ⟨k', he', hl'⟩ := @evaluate_of_stay r _ _ _ _ hm ha' ht
            rw [he, he']
            refine .ok ⟨rfl, .of_like ?_ hl hl'⟩
            exact ⟨h.state, rfl, h.line, hleads.stays ht⟩
        | some way =>
            obtain ⟨target, again⟩ := way
            have ht' := hleads.target.trans ht
            cases hf : r.grammar.find? target with
            | none =>
                rw [evaluate_of_lost (hmatch.trans hm) ha ht' hf, evaluate_of_lost hm ha' ht hf,
                  h.state, h.line]
                exact .error _
            | some s =>
                obtain ⟨k, he, hl⟩ := evaluate_of_move (hmatch.trans hm) ha ht' hf
                obtain ⟨k', he', hl'⟩ := evaluate_of_move hm ha' ht hf
                rw [he, he']
                refine .ok ⟨rfl, .of_like ?_ hl hl'⟩
                refine ⟨rfl, rfl, h.line, ?_⟩
                rw [h.state]
                exact hleads.moves target again s ht hf

/-- A line is evaluated in both readings as often as in either of them, if every
evaluation goes on in the same way. -/
theorem Paired.evaluateAll (h : g.Paired R g')
    (hstep : ∀ {k k'}, ReflTransGen (r.Again line) g' k' → k.Paired R k' →
      Together (fun x y => x.2 = y.2 ∧ x.1.Paired R y.1) (r.evaluate line k)
        (r.evaluate line k')) (left : Nat) :
    Together (Paired R) (r.evaluateAll line left g) (r.evaluateAll line left g') := by
  have hline := (hstep .refl h).outcomes
  induction left generalizing g g' with
  | zero =>
      unfold Reader.evaluateAll
      rcases hline with ⟨f, he, he'⟩ | ⟨⟨k, again⟩, ⟨k', _⟩, he, he', rfl, hpaired⟩ <;>
        rw [he, he']
      · exact .error f
      · cases again with
        | false => exact .ok hpaired
        | true =>
            have hstate : k.state = k'.state := hpaired.state
            have hline : k.line = k'.line := hpaired.line
            simp only [hstate, hline]
            exact .error _
  | succ left ih =>
      unfold Reader.evaluateAll
      rcases hline with ⟨f, he, he'⟩ | ⟨⟨k, again⟩, ⟨k', _⟩, he, he', rfl, hpaired⟩ <;>
        rw [he, he']
      · exact .error f
      · cases again with
        | false => exact .ok hpaired
        | true =>
            have hrest : ∀ {j j'}, ReflTransGen (r.Again line) k' j' → j.Paired R j' →
                Together (fun x y => x.2 = y.2 ∧ x.1.Paired R y.1) (r.evaluate line j)
                  (r.evaluate line j') :=
              fun hs hj => hstep (ReflTransGen.head he' hs) hj
            exact ih hpaired hrest (hrest .refl hpaired).outcomes

/-- Both readings take the next line. -/
theorem Paired.next (h : g.Paired R g') :
    Paired R { g with line := g.line + 1 } { g' with line := g'.line + 1 } :=
  ⟨h.state, h.entering, congrArg (· + 1) h.line, h.draft⟩

/-- Alike drafts with a plain current group are all that a rule needs. -/
theorem leadsOn_act {L : Likeness} (hmode : L.SameMode)
    (h : g.Paired (fun _ => Draft.Bare L) g') (m : LineMatch) :
    Together (LeadsOn (fun _ => Draft.Bare L) r.grammar g'.state m.rule.next) (act g m)
      (act g' m) := by
  have hact : Together (fun x x' => x.next = x'.next ∧ Draft.Bare L x.draft x'.draft)
      (act g m) (act g' m) := by
    rw [act, act, h.line]
    split
    · exact .ok ⟨rfl, h.draft⟩
    · exact Action.bare_run h.draft fun _ => hmode
  refine hact.mono fun x x' _ hrun => ?_
  obtain ⟨hnext, hbare⟩ := hrun
  refine ⟨?_, fun _ => hbare, fun _ _ s' _ _ => hbare.crossTo g'.state s'⟩
  rw [hnext, Transition.target?_congr hbare.beside.back]

/-- Such readings go on side by side, whatever is read. -/
theorem Paired.feedAll {L : Likeness} (hmode : L.SameMode) {lines : List String}
    (h : g.Paired (fun _ => Draft.Bare L) g') :
    Together (Paired fun _ => Draft.Bare L) (r.feedAll g lines) (r.feedAll g' lines) := by
  induction lines generalizing g g' with
  | nil => exact .ok h
  | cons line lines ih =>
      rw [feedAll_cons, feedAll_cons]
      refine Together.bind ?_ fun _ _ _ hnext => ih hnext
      exact h.next.evaluateAll
        (fun _ hk => hk.evaluate fun m _ => leadsOn_act hmode hk m) _

end Reading

end DocComment
