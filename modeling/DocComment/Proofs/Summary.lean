import DocComment.Proofs.SummaryStyle
import Mathlib.Data.List.Induction
import Mathlib.Data.List.Nodup

/-!
# The summary of a document

A document has one summary at most. It is in the first group of a section, and nothing
comes before it there but headings. It is the first entry of the whole document, which is
what `Document.summary` returns, unless a further section was opened or a heading was
added while its style was waiting: these two are the actions that put something into the
document and leave the style where it is (`parsed_summarized`).

The stages of the style are those of `Draft.Styles`. Here they are followed through the
actions, the lines and the end of a source. Whether the summary has been overtaken is a
question about single lines (`Reading.Overtakes`), and for a whole source it is asked of
every line, in the reading in which it was met (`Overtaken`). A line may be evaluated more
than once, but it overtakes only where it is evaluated last.
-/

namespace DocComment

open Text Relation Reader

/-! ## Actions -/

/-- Only where a comment is read there may be a style that waits. -/
theorem Phase.Fits.style {p : Phase} {d : Draft} (h : p.Fits d) (hw : p ≠ .writing)
    (hp : p ≠ .pausing) : d.nextStyle = none := by
  cases p with
  | writing => exact absurd rfl hw
  | pausing => exact absurd rfl hp
  | opening => exact Draft.Opening.style h
  | closed => exact Draft.Closed.style h
  | leaving => exact (Draft.Leaving.toClosed h).style
  | source => exact (Draft.InSource.toDeparting h).style
  | departing => exact (Draft.Departing.toBetween h).style
  | table => exact Draft.InTable.style h

namespace Action

open Draft

/-- The actions that put something into the document without dropping a style that
waits. -/
def overtakes : List Action :=
  [newSection, newTitle]

variable {passed : Prop} {a : Action} {line : Nat} {c : Captures} {d e : Draft} {x : Effect}

theorem unstyled_splitFromSection (h : d.Unstyled passed) :
    (splitFromSection d).Unstyled passed := by
  rw [splitFromSection]
  split
  · exact h.flagUndocumented
  · exact h

theorem unstyled_leavePlacedGroup (h : d.Unstyled passed) :
    (leavePlacedGroup d).Unstyled passed := by
  rw [leavePlacedGroup]
  split
  · exact h.freshGroup
  · exact h

theorem unstyled_entryGroup (h : d.Unstyled passed) : (entryGroup d).Unstyled passed := by
  rw [entryGroup]
  split
  · exact h
  · exact h.freshGroup

theorem unstyled_declareLibParam (h : d.Unstyled passed) {key value : String}
    (he : declareLibParam d key value = .ok e) : e.Unstyled passed := by
  rw [declareLibParam] at he
  simp only [] at he
  split at he
  · exact Except.ok.inj he ▸ h
  · split at he
    · exact h.flagUndocumented.declareParam he
    · exact h.declareParam he

theorem styles_addTrailing (h : d.Styles passed) {text : String}
    (he : addTrailing d text = .ok e) : e.Styles passed := by
  rw [addTrailing] at he
  split at he
  · exact Except.ok.inj he ▸ h
  · exact h.appendText he

theorem styles_addFormula (h : d.Styles passed) {formula trailing : String}
    (he : addFormula d formula trailing = .ok e) : e.Styles passed := by
  rw [addFormula] at he
  refine styles_addTrailing ?_ he
  split
  · exact h
  · exact Styles.flush (h.pend Bool.false_ne_true)

theorem styles_closeFormula (h : d.Styles passed) {formula trailing : String}
    (he : closeFormula d formula trailing = .ok e) : e.Styles passed := by
  rw [closeFormula] at he
  split at he
  · exact styles_addTrailing h.flush he
  · obtain ⟨d', hd', he⟩ := ok_of_bind he
    exact styles_addTrailing (h.appendText hd').flush he

/-- Within a comment every action but two leaves the summary where it will be. -/
theorem styles_apply_writing (ha : a.before = .writing) (hno : a ∉ overtakes) (hd : d.Writing)
    (h : d.Styles passed) (he : a.apply line c d = .ok e) : e.Styles passed := by
  cases a with
  | newSection | newTitle => exact absurd (by decide) hno
  | flush => exact Except.ok.inj he ▸ h.flush
  | closeComment => exact Except.ok.inj he ▸ h.closeComment
  | declareFunction => exact Except.ok.inj he ▸ h.declareFunction _ _ _
  | declareConstant => exact Except.ok.inj he ▸ h.declareConstant _
  | todoFixme => exact h.addKeyword hd.scratch he
  | append | appendLine | appendBlankLine => exact h.appendText he
  | bullet | definition => exact Except.ok.inj he ▸ h.appendItem _
  | startCode | mathOpen => exact Except.ok.inj he ▸ h.pend Bool.false_ne_true
  | mathInline => exact styles_addFormula h he
  | mathClose => exact styles_closeFormula h he
  | _ => cases ha

/-- Outside of comments no action adds a paragraph with a style. -/
theorem styles_apply_settled (ha : a.before ≠ .writing) (ho : a.before ≠ .opening)
    (h : d.Unstyled passed) (he : a.apply line c d = .ok e) : e.Styles passed := by
  cases a with
  | preambleSection | missingTitle | untitledPreamble => exact absurd rfl ho
  | flush | closeComment | newSection | newTitle | declareFunction | declareConstant | todoFixme
  | append | appendLine | appendBlankLine | bullet | definition | startCode | mathInline
  | mathOpen | mathClose => exact absurd rfl ha
  | documentedLibParam | undocumentedParam => exact Except.ok.inj he ▸ .past h
  | documentedFunction | documentedGlobalFunction =>
      have hsplit : Styles passed _ := .past (unstyled_splitFromSection h)
      exact Except.ok.inj he ▸ hsplit.declareFunction _ _ _
  | undocumentedFunction =>
      rw [apply] at he
      rcases captureOr_cases he with rfl | ⟨-, he⟩
      · exact .past (h.captureLine _)
      · have hflagged : Styles passed _ := .past h.flagUndocumented
        exact Except.ok.inj he ▸ hflagged.declareFunction _ _ _
  | endOfFunction =>
      have hleft : Unstyled passed { d with functionGroup := none } :=
        h.of_rest rfl rfl rfl h.style h.pending
      exact Except.ok.inj he ▸ .past (hleft.captureLine _)
  | enableOption | disableOption => exact .past (h.applyDirective he)
  | openTable =>
      exact Except.ok.inj he ▸ .past ((unstyled_leavePlacedGroup h.finishCapture).openTable _ _)
  | sourceTodo =>
      obtain ⟨d', hd', he⟩ := ok_of_bind he
      exact Except.ok.inj he ▸ .past (h.addKeyword hd').flush
  | startComment => exact Except.ok.inj he ▸ .past h.freshGroup
  | sourceLine => exact Except.ok.inj he ▸ .past (h.captureLine _)
  | paramsTitle =>
      refine Except.ok.inj he ▸ .past (Unstyled.addPlaced ?_ Bool.false_ne_true)
      split
      · exact h.flush
      · exact h.flush.freshGroup
  | paramsComment =>
      have hentry := unstyled_entryGroup h
      exact Except.ok.inj he ▸ .past (hentry.of_rest rfl rfl rfl hentry.style hentry.pending)
  | paramsBlockComment =>
      obtain ⟨d', hd', he⟩ := ok_of_bind he
      have hadd := styles_addTrailing (.past (unstyled_entryGroup h)) hd'
      exact Except.ok.inj he ▸ hadd.of_rest rfl rfl rfl rfl rfl rfl rfl
  | paramsInlineComment =>
      obtain ⟨d', hd', he⟩ := ok_of_bind he
      exact Except.ok.inj he ▸ .past ((unstyled_entryGroup h).appendText hd').flush
  | tableParam | listParam => exact .past (h.flush.declareParam he)
  | sameLineParam =>
      obtain ⟨d', hd', he⟩ := ok_of_bind he
      exact .past ((h.flush.freshGroup.appendText hd').flush.declareParam he)
  | closeTable => exact Except.ok.inj he ▸ .past h.closeTable
  | paramsOther => exact Except.ok.inj he ▸ .past h.flush.freshGroup

/-! ## The first section -/

/-- Before the first section there is no summary, and nothing that it could come after. -/
theorem awaiting_openFirst (hd : d.Opening) (h : d.Styles passed) (title : String) :
    (d.openSection title).Awaiting passed := by
  have hu := h.unstyled hd.style hd.pending
  have hnone : d.document.sections = [] := by
    rw [document_sections, hd.sections, hd.current]
    rfl
  refine awaiting_openSection hd.pending hd.scratch (fun i k hk => ?_) ?_ title
  · obtain ⟨n, s, hn, -⟩ := hu.placed.first i k hk
    rw [hnone] at hn
    cases hn
  · exact ⟨fun hpassed => hu.opened hpassed, fun hne => absurd hnone hne⟩

theorem styles_openPreamble (hd : d.Opening) (h : d.Styles passed) (title : String) :
    (openPreamble d title).Styles passed := by
  refine .waits ((awaiting_openFirst hd h title).of_rest rfl rfl rfl rfl rfl) rfl ?_
  show ¬ (d.openSection title).pending.any _
  rw [openSection_pending]
  exact Bool.false_ne_true

/-- A section that takes the place of a missing one has its summary at once. -/
theorem styles_ensureSection (hd : d.Opening) (h : d.Styles passed) (reason : Option Template) :
    (d.ensureSection reason).1.Styles passed := by
  unfold ensureSection
  split
  · exact h
  · have hadd := (awaiting_openFirst hd h d.doc.fullname).addEntry
      (.paragraph ⟨some "", some summaryStyle⟩)
    refine .past (hadd.of_rest rfl rfl rfl ?_ ?_)
    · show (d.openSection d.doc.fullname).nextStyle = none
      rw [openSection, flush_of_settled hd.pending]
      exact hd.style
    · show ¬ (d.openSection d.doc.fullname).pending.any _
      rw [openSection_pending]
      exact Bool.false_ne_true

theorem styles_apply (hno : a ∉ overtakes) (hd : a.before.Fits d) (h : d.Styles passed)
    (he : a.apply line c d = .ok e) : e.Styles passed := by
  by_cases hw : a.before = .writing
  · rw [hw] at hd
    exact styles_apply_writing hw hno hd h he
  · have hp : a.before ≠ .pausing := by
      cases a <;> exact fun hp => by cases hp
    have hu := h.unstyled (hd.style hw hp) (hd.settled hw)
    by_cases ho : a.before = .opening
    · rw [ho] at hd
      cases a with
      | preambleSection => exact Except.ok.inj he ▸ styles_openPreamble hd h _
      | missingTitle | untitledPreamble => exact Except.ok.inj he ▸ h
      | _ => cases ho
    · exact styles_apply_settled hw ho hu he

/-- Every action leaves the summary where it will be, or overtakes it. -/
theorem styles_run (hd : a.before.Fits d) (h : d.Styles passed) (hx : a.run line c d = .ok x) :
    x.draft.Styles (passed ∨ a ∈ overtakes ∧ d.StyleWaits) := by
  have hsame (hno : a ∉ overtakes) : (passed ∨ a ∈ overtakes ∧ d.StyleWaits) = passed := by
    rw [eq_false hno, false_and, or_false]
  have hpast (hw : a.before ≠ .writing) (hp : a.before ≠ .pausing) : d.Unstyled passed :=
    h.unstyled (hd.style hw hp) (hd.settled hw)
  obtain ⟨e, next, log⟩ := x
  cases leads_of_run hx with
  | applied _ he =>
      by_cases hover : a ∈ overtakes
      · rw [eq_true hover, true_and]
        simp only [overtakes, List.mem_cons, List.not_mem_nil, or_false] at hover
        rcases hover with rfl | rfl
        · exact Except.ok.inj he ▸ h.openSection _
        · exact Except.ok.inj he ▸ h.addHeading _ _
      · rw [hsame hover]
        exact styles_apply hover hd h he
  | warned reason =>
      rw [hsame (by decide)]
      exact styles_ensureSection hd h reason
  | untitled =>
      rw [hsame (by decide)]
      exact styles_openPreamble hd h _
  | documentedTable =>
      rw [hsame (by decide)]
      exact .past ((unstyled_leavePlacedGroup (hpast (by decide) (by decide))).openTable _ _)
  | documentedParam he =>
      rw [hsame (by decide)]
      exact .past (unstyled_declareLibParam (hpast (by decide) (by decide)) he)
  | undocumentedTable =>
      rw [hsame (by decide)]
      exact .past ((hpast (by decide) (by decide)).finishCapture.freshGroup.openTable _ _)
  | undocumentedParam he =>
      rw [hsame (by decide)]
      have hu := hpast (by decide) (by decide)
      rcases captureOr_cases he with rfl | ⟨-, he⟩
      · exact .past (hu.captureLine _)
      · exact .past (hu.flagUndocumented.declareParam he)

end Action

/-! ## Readings -/

theorem Hook.enterSource_style (d : Draft) : (enterSource d).nextStyle = d.nextStyle := by
  rw [enterSource]
  split
  · rw [Draft.startCapture]
    split <;> split <;> rfl
  · rfl

/-- A line that overtakes the summary is not evaluated again. -/
theorem Dialect.overtakes_stays :
    ∀ s ∈ states, ∀ r ∈ s.rules, r.action.any (· ∈ Action.overtakes) → r.next = .stay := by
  decide

namespace Reading

open Draft

variable {passed : Prop} {r : Reader} {line : String} {g g' : Reading}

/-- The line opens a section or adds a heading while the style waits for a paragraph. -/
def Overtakes (g : Reading) (line : String) : Prop :=
  ∃ m, g.state.matchLine line g.entering = some m ∧
    m.rule.action.any (· ∈ Action.overtakes) ∧ g.draft.StyleWaits

theorem overtakes_iff {m : LineMatch} (hm : g.state.matchLine line g.entering = some m) :
    g.Overtakes line ↔ m.rule.action.any (· ∈ Action.overtakes) ∧ g.draft.StyleWaits := by
  refine ⟨fun ⟨m', hm', hover⟩ => ?_, fun hover => ⟨m, hm, hover⟩⟩
  obtain rfl : m = m' := Option.some.inj (hm.symm.trans hm')
  exact hover

theorem not_overtakes_of_none (hm : g.state.matchLine line g.entering = none) :
    ¬ g.Overtakes line := by
  rintro ⟨m, hm', -⟩
  cases hm.symm.trans hm'

theorem Coherent.styles_act (hg : g.Coherent) {m : LineMatch}
    (hm : m.rule.wellPhased Dialect.grammar g.state) {x : Effect} (hx : act g m = .ok x)
    (h : g.draft.Styles passed) :
    x.draft.Styles (passed ∨ m.rule.action.any (· ∈ Action.overtakes) ∧ g.draft.StyleWaits) := by
  rw [act] at hx
  cases ha : m.rule.action with
  | none =>
      rw [ha] at hx
      cases hx
      simpa using h
  | some a =>
      rw [ha] at hx
      rw [Rule.wellPhased, ha, Bool.and_eq_true] at hm
      rw [Option.any_some, decide_eq_true_eq]
      exact Action.styles_run (hg.fits.of_below hm.1) h hx

theorem styles_crossTo {s s' : State} (hs : s ∈ Dialect.states) (hs' : s' ∈ Dialect.states)
    {d : Draft} (h : d.Styles passed) (hfits : s'.phase.Fits (s.crossTo s' d)) :
    (s.crossTo s' d).Styles passed := by
  have hexit : (hooked s.exit d).Styles passed := by
    rcases (Dialect.hooks_cases s hs).1 with hexit | hexit <;> rw [hexit]
    · exact h
    · exact h.finishCapture
  rw [State.crossTo] at hfits ⊢
  rcases Dialect.enter_cases s' hs' with henter | ⟨henter, hsource⟩
  · rw [henter]
    exact hexit
  · -- entering source changes no style, so it was gone before
    rw [hsource, henter] at hfits
    rw [henter]
    have hstyle := hfits.style (by decide) (by decide)
    have hpending := hfits.settled (by decide)
    refine .past (Unstyled.enterSource (hexit.unstyled ?_ ?_))
    · exact (Hook.enterSource_style _).symm.trans hstyle
    · exact (Hook.enterSource_pending _).symm.trans hpending

/-- Evaluating a line leaves the summary where it will be, unless the line overtakes
it. -/
theorem Coherent.styles_evaluate (hg : g.Coherent) (hr : r.grammar = Dialect.grammar)
    {again : Bool} (he : r.evaluate line g = .ok (g', again)) (h : g.draft.Styles passed) :
    g'.draft.Styles (passed ∨ g.Overtakes line) := by
  obtain ⟨-, hrules, -⟩ := Dialect.wellPhased_of_mem hg.state
  rcases evaluate_cases he with ⟨hm, -, hl⟩ | ⟨m, x, hm, hx, hcases⟩
  · rw [eq_false (not_overtakes_of_none hm), or_false, hl.draft]
    exact h
  · rw [overtakes_iff hm]
    have hact := hg.styles_act (hrules m.rule (State.matchLine_mem hm)) hx h
    rcases hcases with ⟨-, -, hl⟩ | ⟨target, s, -, hs, hl⟩
    · rw [hl.draft]
      exact hact
    · have hfits := (hg.evaluate hr he).1.fits
      rw [hl.state, hl.draft] at hfits
      rw [hr] at hs
      rw [hl.draft]
      exact styles_crossTo hg.state (Dialect.mem_of_find? hs) hact hfits

/-- Where a line is asked for again it does not overtake the summary. -/
theorem Coherent.not_overtakes (hg : g.Coherent) (hr : r.grammar = Dialect.grammar)
    (h : r.Again line g g') : ¬ g.Overtakes line := by
  rintro ⟨m, hm, hover, -⟩
  obtain ⟨m', hm', htarget⟩ := hg.again hr h
  obtain rfl : m = m' := Option.some.inj (hm.symm.trans hm')
  rw [Dialect.overtakes_stays _ hg.state _ (State.matchLine_mem hm) hover] at htarget
  exact List.not_mem_nil htarget

theorem Coherent.styles_of_again (hg : g.Coherent) (hr : r.grammar = Dialect.grammar)
    (h : ReflTransGen (r.Again line) g g') (hd : g.draft.Styles passed) :
    g'.draft.Styles passed := by
  induction h with
  | refl => exact hd
  | tail hbefore hs ih =>
      have hc := (hg.of_again hr hbefore).1
      have hstyles := hc.styles_evaluate hr hs ih
      rwa [eq_false (hc.not_overtakes hr hs), or_false] at hstyles

theorem Coherent.styles_finish (hg : g.Coherent) (h : g.draft.Styles passed) :
    (Reader.finish g).draft.Styles passed := by
  have hexit : (hooked g.state.exit g.draft).Styles passed := by
    rcases (Dialect.hooks_cases _ hg.state).1 with hexit | hexit <;> rw [hexit]
    · exact h
    · exact h.finishCapture
  rw [finish_draft]
  rcases Dialect.eof_cases _ hg.state with ⟨hp, hx, heof⟩ | ⟨-, -, heof | heof⟩
  · have ho : g.draft.Opening := by
      have hf := hg.fits
      rwa [hp] at hf
    rw [hx]
    rcases heof with heof | heof <;> rw [heof] <;> exact Action.styles_ensureSection ho h _
  · rw [heof]
    exact hexit
  · rw [heof]
    exact hexit.flush

end Reading

/-! ## Sources -/

/-- Some line of a source overtakes the summary in the reading in which it is met. -/
def Overtaken (settings : Settings) (q : Request) (lines : List String) : Prop :=
  ∃ before line after g, lines = before ++ line :: after ∧ MetIn settings q before line g ∧
    g.Overtakes (dropLineEnd line)

section Sources

variable {settings : Settings} {q : Request} {before lines : List String} {line : String}
  {g g₁ : Reading}

theorem overtaken_concat :
    Overtaken settings q (before ++ [line]) ↔ Overtaken settings q before ∨
      ∃ g, MetIn settings q before line g ∧ g.Overtakes (dropLineEnd line) := by
  constructor
  · rintro ⟨before', line', after, g, hlines, hmet, hover⟩
    rcases List.eq_nil_or_concat after with rfl | ⟨after', last, rfl⟩
    · obtain ⟨rfl, hlast⟩ := List.append_inj' hlines rfl
      cases hlast
      exact Or.inr ⟨g, hmet, hover⟩
    · rw [List.concat_eq_append, ← List.cons_append, ← List.append_assoc] at hlines
      obtain ⟨rfl, -⟩ := List.append_inj' hlines rfl
      exact Or.inl ⟨before', line', after', g, rfl, hmet, hover⟩
  · rintro (⟨before', line', after, g, rfl, hmet, hover⟩ | ⟨g, hmet, hover⟩)
    · exact ⟨before', line', after ++ [line], g, by simp, hmet, hover⟩
    · exact ⟨before, line, [], g, rfl, hmet, hover⟩

/-- Of the readings in which a line is evaluated only the last one can see it overtake. -/
theorem MetIn.overtakes_iff (h : MetIn settings q before line g₁)
    (hlast : settings.reader.evaluate (dropLineEnd line) g₁ = .ok (g, false)) :
    (∃ k, MetIn settings q before line k ∧ k.Overtakes (dropLineEnd line)) ↔
      g₁.Overtakes (dropLineEnd line) := by
  refine ⟨fun ⟨k, hk, hover⟩ => ?_, fun hover => ⟨g₁, h, hover⟩⟩
  have hcoherent := hk.tracked.toCoherent
  obtain ⟨g₀, hg₀, hagain⟩ := h
  obtain ⟨g₀', hg₀', hagain'⟩ := hk
  obtain rfl : g₀ = g₀' := Except.ok.inj (hg₀.symm.trans hg₀')
  have hunique : Relator.RightUnique (settings.reader.Again (dropLineEnd line)) := by
    intro a b c hb hc
    exact congrArg Prod.fst (Except.ok.inj (Eq.trans (Eq.symm hb) hc))
  rcases ReflTransGen.total_of_right_unique hunique hagain hagain' with hto | hto
  · rcases hto.cases_head with rfl | ⟨k', hk', -⟩
    · exact hover
    · cases Eq.trans (Eq.symm hk') hlast
  · rcases hto.cases_head with rfl | ⟨k', hk', -⟩
    · exact hover
    · exact absurd hover (hcoherent.not_overtakes rfl hk')

theorem firstDraft_unstyled (settings : Settings) (name : String) (q : Request) {passed : Prop}
    (hno : ¬ passed) : (firstDraft settings name q).Unstyled passed := by
  refine ⟨rfl, Bool.false_ne_true, .of_none fun i k ⟨e, he, _⟩ => ?_, fun h => absurd h hno⟩
  have he : ((GroupStore.insert {} {}).get i).entries[k]? = some e := he
  rw [GroupStore.get_insert_empty] at he
  cases he

/-- Whatever has been read, the style is in one of its stages, and the summary comes first
unless a line has overtaken it. -/
theorem readingAfter_styles (h : readingAfter settings q lines = .ok g) :
    g.draft.Styles (Overtaken settings q lines) := by
  induction lines using List.reverseRec generalizing g with
  | nil =>
      obtain ⟨g₀, named, -, hdraft, -, hreads, -⟩ := exists_firstReading h
      have hnone : ¬ Overtaken settings q [] := by
        rintro ⟨before, line, after, g, hlines, -⟩
        cases before <;> cases hlines
      obtain rfl : g₀ = g := Except.ok.inj ((hreads []).symm.trans h)
      rw [hdraft]
      exact .past (firstDraft_unstyled _ _ _ hnone)
  | append_singleton before line ih =>
      rw [readingAfter_append] at h
      obtain ⟨g₀, hg₀, h⟩ := ok_of_bind h
      rw [feedAll_cons] at h
      obtain ⟨g', hfeed, h⟩ := ok_of_bind h
      obtain rfl : g' = g := Except.ok.inj h
      obtain ⟨g₁, hagain, hlast⟩ := Reading.exists_last hfeed
      have hmet : MetIn settings q before line g₁ := ⟨g₀, hg₀, hagain⟩
      have hnext : Reading.Coherent { g₀ with line := g₀.line + 1 } :=
        ((readingAfter_tracked hg₀).nextLine _).toCoherent
      have hbefore : g₀.draft.Styles (Overtaken settings q before) := ih hg₀
      rw [overtaken_concat, hmet.overtakes_iff hlast]
      exact hmet.tracked.toCoherent.styles_evaluate rfl hlast
        (hnext.styles_of_again rfl hagain hbefore)

end Sources

/-! ## Documents -/

theorem Draft.carries_document (d : Draft) : d.doc.store.Carries d.document.store := by
  rw [document]
  simp only [Document.withFixmes, Document.withTodos]
  split <;> split
  · exact GroupStore.carries_of_entries fun _ => rfl
  · exact GroupStore.carries_insertSpans _ _
  · exact GroupStore.carries_insertSpans _ _
  · exact (GroupStore.carries_insertSpans _ _).trans (GroupStore.carries_insertSpans _ _)

theorem finishReading_placed {settings : Settings} {q : Request} {lines : List String}
    {g : Reading} (h : readingAfter settings q lines = .ok g) :
    SummaryPlaced (Overtaken settings q lines) (finishReading g).1.sections
      (finishReading g).1.store := by
  have hplaced := ((readingAfter_tracked h).styles_finish (readingAfter_styles h)).placed
  rw [(finishReading_wellFormed h).1.document]
  refine hplaced.carry (GroupStore.Carries.trans (GroupStore.carries_insert _)
    (Draft.carries_document _)) ?_
  rw [Draft.document_sections, Draft.document_sections]
  exact .refl _

namespace Document

/-- The entry at a place of a document: of which section, of which of its groups, and
where in that. The lists at the end are sections here. -/
def entryAt? (doc : Document) (n m k : Nat) : Option Entry := do
  let s ← doc.allSections[n]?
  let i ← s.groups[m]?
  (doc.store.get i).entries[k]?

/-- There is a summary at a place of a document. -/
def SummaryAt (doc : Document) (n m k : Nat) : Prop :=
  (doc.entryAt? n m k).any Entry.isSummary

/-- There is no summary but the first entry of the document. -/
def LeadsWithSummary (doc : Document) : Prop :=
  ∀ n m k, doc.SummaryAt n m k →
    n = 0 ∧ m = 0 ∧ k = 0 ∧ doc.summary = doc.entryAt? n m k

/-- Where the summary of a document is, and whether the document starts with it. -/
structure Summarized (passed : Prop) (doc : Document) : Prop where
  /-- A summary is in the first group of a section, and after nothing but headings. -/
  opens : ∀ n m k, doc.SummaryAt n m k → n < doc.sections.length ∧ m = 0 ∧
    ∀ j < k, (doc.entryAt? n m j).any Entry.isHeading
  /-- There is one at most. -/
  once : ∀ n m k n' m' k', doc.SummaryAt n m k → doc.SummaryAt n' m' k' →
    n = n' ∧ m = m' ∧ k = k'
  /-- A group that is in no section has none. -/
  placed : ∀ i k, doc.store.SummaryAt i k → i ∈ doc.allGroups
  /-- The document starts with it, unless something has `passed` it. -/
  leads : doc.LeadsWithSummary ↔ (passed → ∀ n m k, ¬ doc.SummaryAt n m k)

variable {passed : Prop} {doc : Document} {n n' m m' k : Nat} {i : GroupId} {s s' : Section}

theorem summaryAt_iff :
    doc.SummaryAt n m k ↔ ∃ s i, doc.allSections[n]? = some s ∧ s.groups[m]? = some i ∧
      doc.store.SummaryAt i k := by
  rw [SummaryAt, Option.any_eq_true]
  constructor
  · rintro ⟨e, he, hsum⟩
    obtain ⟨s, hs, he⟩ := Option.bind_eq_some_iff.1 he
    obtain ⟨i, hi, he⟩ := Option.bind_eq_some_iff.1 he
    exact ⟨s, i, hs, hi, e, he, hsum⟩
  · rintro ⟨s, i, hs, hi, e, he, hsum⟩
    refine ⟨e, ?_, hsum⟩
    rw [entryAt?, hs, Option.bind_eq_bind, Option.bind_some, hi]
    exact he

theorem allSections_getElem? (hs : doc.sections[n]? = some s) : doc.allSections[n]? = some s := by
  have hn : n < doc.sections.length := (List.getElem?_eq_some_iff.1 hs).1
  rw [allSections, List.append_assoc, List.getElem?_append_left hn, hs]

theorem summary_eq (h : doc.sections ≠ []) : doc.summary = doc.entryAt? 0 0 0 := by
  obtain ⟨s, rest, hs⟩ := List.exists_cons_of_ne_nil h
  simp [summary, entryAt?, allSections, hs, List.head?_eq_getElem?]

/-- A group has one place in a document. -/
theorem place_unique (h : doc.allGroups.Nodup) (hs : doc.allSections[n]? = some s)
    (hi : s.groups[m]? = some i) (hs' : doc.allSections[n']? = some s')
    (hi' : s'.groups[m']? = some i) : n = n' ∧ m = m' := by
  obtain ⟨hnodup, hdisjoint⟩ := List.nodup_flatMap.1 h
  rw [List.pairwise_iff_getElem] at hdisjoint
  obtain ⟨hn, rfl⟩ := List.getElem?_eq_some_iff.1 hs
  obtain ⟨hn', rfl⟩ := List.getElem?_eq_some_iff.1 hs'
  have hmem := List.mem_of_getElem? hi
  have hmem' := List.mem_of_getElem? hi'
  rcases Nat.lt_trichotomy n n' with hlt | rfl | hlt
  · exact absurd hmem' (hdisjoint n n' hn hn' hlt hmem)
  · refine ⟨rfl, ?_⟩
    have hm : m < doc.allSections[n].groups.length := (List.getElem?_eq_some_iff.1 hi).1
    exact (List.getElem?_inj hm (hnodup _ (List.getElem_mem hn))).1 (hi.trans hi'.symm)
  · exact absurd hmem (hdisjoint n' n hn' hn hlt hmem')

end Document

namespace SummaryPlaced

variable {passed : Prop} {doc : Document} {n m k : Nat}

/-- A summary of a document is at a place at which a summary may be. -/
theorem at_place (h : SummaryPlaced passed doc.sections doc.store) (hnodup : doc.allGroups.Nodup)
    (hsum : doc.SummaryAt n m k) :
    n < doc.sections.length ∧ m = 0 ∧ (passed ↔ n ≠ 0 ∨ k ≠ 0) ∧
      ∀ j < k, (doc.entryAt? n m j).any Entry.isHeading := by
  obtain ⟨s, i, hs, hi, hstore⟩ := Document.summaryAt_iff.1 hsum
  obtain ⟨n', s', hs', hhead, hpassed⟩ := h.first i k hstore
  rw [List.head?_eq_getElem?] at hhead
  obtain ⟨rfl, rfl⟩ :=
    Document.place_unique hnodup hs hi (Document.allSections_getElem? hs') hhead
  refine ⟨(List.getElem?_eq_some_iff.1 hs').1, rfl, hpassed, fun j hj => ?_⟩
  have hlt : j < (doc.store.get i).entries.length := by
    obtain ⟨e, he, -⟩ := hstore
    exact Nat.lt_trans hj (List.getElem?_eq_some_iff.1 he).1
  have hheading := h.headings i k hstore _ (List.mem_take_iff_getElem.2 ⟨j, by omega, rfl⟩)
  rw [Document.entryAt?, hs, Option.bind_eq_bind, Option.bind_some, hi]
  show ((doc.store.get i).entries[j]?).any _
  rw [List.getElem?_eq_getElem hlt]
  exact hheading

theorem summarized (h : SummaryPlaced passed doc.sections doc.store)
    (hnodup : doc.allGroups.Nodup) : doc.Summarized passed where
  opens := by
    intro n m k hsum
    obtain ⟨hn, hm, -, hheadings⟩ := h.at_place hnodup hsum
    exact ⟨hn, hm, hheadings⟩
  once := by
    intro n m k n' m' k' hsum hsum'
    obtain ⟨s, i, hs, hi, hstore⟩ := Document.summaryAt_iff.1 hsum
    obtain ⟨s', i', hs', hi', hstore'⟩ := Document.summaryAt_iff.1 hsum'
    obtain ⟨rfl, rfl⟩ := h.once i i' k k' hstore hstore'
    obtain ⟨rfl, rfl⟩ := Document.place_unique hnodup hs hi hs' hi'
    exact ⟨rfl, rfl, rfl⟩
  placed := by
    intro i k hstore
    obtain ⟨n, s, hs, hhead, -⟩ := h.first i k hstore
    exact List.mem_flatMap.2 ⟨s, List.mem_of_getElem? (Document.allSections_getElem? hs),
      List.mem_of_head? hhead⟩
  leads := by
    constructor
    · intro hleads hpassed n m k hsum
      obtain ⟨rfl, -, rfl, -⟩ := hleads n m k hsum
      obtain ⟨-, -, hfirst, -⟩ := h.at_place hnodup hsum
      rcases hfirst.1 hpassed with hne | hne <;> exact hne rfl
    · intro hnone n m k hsum
      obtain ⟨hn, rfl, hfirst, -⟩ := h.at_place hnodup hsum
      have hno : ¬ (n ≠ 0 ∨ k ≠ 0) := fun hne => hnone (hfirst.2 hne) n 0 k hsum
      obtain ⟨rfl, rfl⟩ : n = 0 ∧ k = 0 := by omega
      exact ⟨rfl, rfl, rfl, Document.summary_eq (List.ne_nil_of_length_pos hn)⟩

end SummaryPlaced

theorem finishReading_summarized {settings : Settings} {q : Request} {lines : List String}
    {g : Reading} (h : readingAfter settings q lines = .ok g) :
    (finishReading g).1.Summarized (Overtaken settings q lines) := by
  have hend : (Reader.finish g).draft.Placed := by
    obtain ⟨hg, name, q', hsteps⟩ := readingAfter_steps h
    exact ((firstDraft_placed settings name q').steps hsteps).steps hg.finish.1
  refine (finishReading_placed h).summarized ?_
  rw [(finishReading_wellFormed h).1.document]
  exact hend.freshGroup.document.1

/-- Whichever way a source is given, if it can be parsed then its document has one summary
at most, in the first group of a section and after nothing but headings; and it is the
first entry of the document if and only if no line has overtaken it. -/
theorem parsed_summarized (settings : Settings) :
    (∀ q lines doc log, parseLines settings q lines = .ok (doc, log) →
      doc.Summarized (Overtaken settings q lines)) ∧
    (∀ q text doc log, parse settings q text = .ok (doc, log) →
      doc.Summarized (Overtaken settings q (Text.lines text))) ∧
    ∀ path encoding bytes doc log, parseFile settings path encoding (some bytes) = .ok (doc, log) →
      doc.Summarized
        (Overtaken settings { file := some path } (Source.readFile encoding bytes).lines) := by
  obtain ⟨hlines, htext, hfile⟩ := forall_parsed
    (P := fun q lines doc => doc.Summarized (Overtaken settings q lines)) finishReading_summarized
  refine ⟨hlines, htext, fun path encoding bytes doc log h => ?_⟩
  obtain ⟨bs, hbytes, hdoc⟩ := hfile path encoding (some bytes) doc log h
  cases hbytes
  exact hdoc

/-- A text of two lines right after the title, and a paragraph after it. -/
theorem parsed_summarized_text :
    ∃ doc log, parse {} { name := some "d" } "// # T\n// a\n// b\n//\n// c\n" = .ok (doc, log) ∧
      doc.summary = some (.paragraph ⟨some "a b", some "summary"⟩) ∧
      doc.entryAt? 0 0 1 = some (.paragraph ⟨some "c", none⟩) ∧
      doc.Summarized
        (Overtaken {} { name := some "d" } (Text.lines "// # T\n// a\n// b\n//\n// c\n")) := by
  have h : (parse {} { name := some "d" } "// # T\n// a\n// b\n//\n// c\n").toOption.any fun x =>
      x.1.summary = some (.paragraph ⟨some "a b", some "summary"⟩) ∧
        x.1.entryAt? 0 0 1 = some (.paragraph ⟨some "c", none⟩) := by
    decide +kernel
  obtain ⟨x, hp, hx⟩ := exists_ok_of_any h
  obtain ⟨hsummary, hnext⟩ := of_decide_eq_true hx
  exact ⟨x.1, x.2, hp, hsummary, hnext, (parsed_summarized {}).2.1 _ _ _ _ hp⟩

/-- The text after a heading becomes the summary, though the document does not start with
it. -/
theorem summary_after_heading :
    ∃ doc log, parse {} { name := some "d" } "// # T\n// ## H\n// text\n" = .ok (doc, log) ∧
      doc.entryAt? 0 0 1 = some (.paragraph ⟨some "text", some "summary"⟩) ∧
      doc.summary = some (.heading ⟨"H", .title⟩) ∧ ¬ doc.LeadsWithSummary := by
  have h : (parse {} { name := some "d" } "// # T\n// ## H\n// text\n").toOption.any fun x =>
      x.1.entryAt? 0 0 1 = some (.paragraph ⟨some "text", some "summary"⟩) ∧
        x.1.summary = some (.heading ⟨"H", .title⟩) := by
    decide +kernel
  obtain ⟨x, hp, hx⟩ := exists_ok_of_any h
  obtain ⟨hsummary, hfirst⟩ := of_decide_eq_true hx
  refine ⟨x.1, x.2, hp, hsummary, hfirst, fun hleads => ?_⟩
  obtain ⟨-, -, hk, -⟩ := hleads 0 0 1 (by rw [Document.SummaryAt, hsummary]; rfl)
  cases hk

end DocComment
