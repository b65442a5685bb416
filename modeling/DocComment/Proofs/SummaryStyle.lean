import DocComment.Proofs.Documentation

/-!
# The style of the summary

The first section is opened with a style that its first paragraph is to get. The style is
there once, and so is what becomes of it: it waits, it goes to a paragraph that is still
pending, and the paragraph goes into a group. It is dropped if anything else is put into a
group first, and when the comment ends.

`Draft.Styles` follows it through these stages. While it waits or is pending the current
group is the only one of the open section and has nothing but headings in it
(`Draft.Awaiting`), so that is where the paragraph is put. After that no paragraph gets a
style any more (`Draft.Unstyled`), and what is written only comes after the summary
(`GroupStore.Carries`).

Only a heading and a further section are let through while the style waits. They are not
put into a group as a pending entry is, so nothing drops the style, and the summary comes
after them. Whether that has happened is the one thing that `Draft.Styles` is told from
outside.
-/

namespace DocComment

open Text Relation Reader

/-! ## Entries -/

namespace Entry

def isParagraph : Entry → Bool
  | paragraph _ => true
  | _ => false

/-- Whether the entry is a paragraph in the style of a summary. -/
def isSummary : Entry → Bool
  | paragraph p => p.style = some summaryStyle
  | _ => false

variable {e e' : Entry}

theorem isSummary_settled (e : Entry) : e.settled.isSummary = e.isSummary := by
  cases e <;> rfl

theorem isSummary_extend {text : String} {onNewLine : Bool} (h : e.extend text onNewLine = .ok e') :
    e'.isSummary = e.isSummary := by
  cases e <;> cases h <;> rfl

theorem isParagraph_extend {text : String} {onNewLine : Bool}
    (h : e.extend text onNewLine = .ok e') : e'.isParagraph = e.isParagraph := by
  cases e <;> cases h <;> rfl

theorem isParagraph_of_isSummary (h : e.isSummary) : e.isParagraph := by
  cases e <;> first | rfl | cases h

theorem isParagraph_of_isNodoc (h : e.isNodoc) : e.isParagraph := by
  cases e <;> first | rfl | cases h

theorem not_isParagraph_of_isHeading (h : e.isHeading) : ¬ e.isParagraph := by
  cases e <;> first | exact Bool.false_ne_true | cases h

end Entry

/-! ## Stores -/

namespace GroupStore

/-- The entry at a place of a group is a summary. -/
def SummaryAt (s : GroupStore) (i : GroupId) (k : Nat) : Prop :=
  ∃ e, (s.get i).entries[k]? = some e ∧ e.isSummary

/-- A summary of the second store stands at the same place of the first one, and so does
everything before it. -/
def Carries (s t : GroupStore) : Prop :=
  ∀ i k, t.SummaryAt i k → (t.get i).entries.take (k + 1) = (s.get i).entries.take (k + 1)

variable {s t : GroupStore} {i : GroupId} {k : Nat}

theorem Carries.summaryAt (h : s.Carries t) (ht : t.SummaryAt i k) : s.SummaryAt i k := by
  obtain ⟨e, he, hs⟩ := ht
  have htake := congrArg (·[k]?) (h i k ⟨e, he, hs⟩)
  simp only [List.getElem?_take_of_lt (Nat.lt_succ_self k)] at htake
  exact ⟨e, htake ▸ he, hs⟩

theorem Carries.trans {u : GroupStore} (h : s.Carries t) (h' : t.Carries u) : s.Carries u :=
  fun i k hk => (h' i k hk).trans (h i k (h'.summaryAt hk))

theorem carries_of_entries (h : ∀ i, (t.get i).entries = (s.get i).entries) : s.Carries t :=
  fun i _ _ => by rw [h]

theorem carries_insert (s : GroupStore) : s.Carries (s.insert {}) :=
  carries_of_entries fun i => by rw [get_insert_empty]

/-- A list of spans has no summary in it. -/
theorem carries_insertSpans (s : GroupStore) (spans : List Span) :
    s.Carries (s.insert { entries := spans.map .span }) := by
  intro i k hk
  rcases s.get_insert_cases i { entries := spans.map .span } with hi | hi
  · rw [hi]
  · obtain ⟨e, he, hsum⟩ := hk
    rw [hi] at he
    obtain ⟨x, -, rfl⟩ := List.mem_map.1 (List.mem_of_getElem? he)
    cases hsum

theorem carries_update (s : GroupStore) (i : GroupId) {f : Group → Group}
    (hf : ∀ g, (f g).entries = g.entries) : s.Carries (s.update i f) := by
  refine carries_of_entries fun j => ?_
  rcases s.get_update_cases i j f with hj | ⟨-, hj⟩ <;> rw [hj]
  exact hf _

/-- What is added after a summary, and is none, leaves it where it is. -/
theorem carries_addEntry (s : GroupStore) (i : GroupId) {e : Entry} (he : ¬ e.isSummary) :
    s.Carries (s.update i fun g => { g with entries := g.entries ++ [e] }) := by
  intro j k hk
  rcases s.get_update_cases i j fun g => { g with entries := g.entries ++ [e] } with hj | ⟨-, hj⟩
  · rw [hj]
  · obtain ⟨x, hx, hsum⟩ := hk
    rw [hj] at hx ⊢
    rcases Nat.lt_or_ge k (s.get j).entries.length with hlt | hge
    · exact List.take_append_of_le_length hlt
    · rw [List.getElem?_append_right hge, List.getElem?_singleton] at hx
      split at hx
      · exact absurd (Option.some.inj hx ▸ hsum) he
      · cases hx

/-- In a store without a summary only the entry that is added can be one. -/
theorem summaryAt_addEntry (hno : ∀ i k, ¬ s.SummaryAt i k) {j : GroupId} {x : Entry}
    (h : (s.update i fun g => { g with entries := g.entries ++ [x] }).SummaryAt j k) :
    j = i ∧ k = (s.get i).entries.length := by
  obtain ⟨y, hy, hsum⟩ := h
  rcases s.get_update_cases i j fun g => { g with entries := g.entries ++ [x] } with hj | ⟨rfl, hj⟩
  · rw [hj] at hy
    exact absurd ⟨y, hy, hsum⟩ (hno j k)
  · have hy : ((s.get j).entries ++ [x])[k]? = some y := by
      rwa [hj] at hy
    rcases Nat.lt_or_ge k (s.get j).entries.length with hlt | hge
    · rw [List.getElem?_append_left hlt] at hy
      exact absurd ⟨y, hy, hsum⟩ (hno j k)
    · have hlt := (List.getElem?_eq_some_iff.1 hy).1
      rw [List.length_append, List.length_singleton] at hlt
      exact ⟨rfl, Nat.le_antisymm (Nat.le_of_lt_succ hlt) hge⟩

theorem carries_dropLast (s : GroupStore) (i : GroupId) :
    s.Carries (s.update i fun g => { g with entries := g.entries.dropLast }) := by
  intro j k hk
  rcases s.get_update_cases i j fun g => { g with entries := g.entries.dropLast } with hj | ⟨-, hj⟩
  · rw [hj]
  · obtain ⟨x, hx, -⟩ := hk
    rw [hj] at hx ⊢
    have hlt : k < (s.get j).entries.dropLast.length := (List.getElem?_eq_some_iff.1 hx).1
    rw [List.length_dropLast] at hlt
    rw [List.dropLast_eq_take, List.take_take]
    congr 1
    omega

end GroupStore

/-! ## Where a summary stands -/

/-- A summary stands at one place at most: in the first group of a section, after nothing
but headings. If nothing has `passed` it, then it is the very first entry of the first
section. -/
structure SummaryPlaced (passed : Prop) (sections : List Section) (store : GroupStore) : Prop where
  first : ∀ i k, store.SummaryAt i k →
    ∃ n s, sections[n]? = some s ∧ s.groups.head? = some i ∧ (passed ↔ n ≠ 0 ∨ k ≠ 0)
  headings : ∀ i k, store.SummaryAt i k → ∀ x ∈ (store.get i).entries.take k, x.isHeading
  once : ∀ i j k l, store.SummaryAt i k → store.SummaryAt j l → i = j ∧ k = l

namespace SummaryPlaced

variable {passed : Prop} {sections sections' : List Section} {s t : GroupStore}

theorem of_none (h : ∀ i k, ¬ s.SummaryAt i k) : SummaryPlaced passed sections s where
  first := fun i k hk => absurd hk (h i k)
  headings := fun i k hk => absurd hk (h i k)
  once := fun i _ k _ hk => absurd hk (h i k)

theorem carry (h : SummaryPlaced passed sections s) (hc : s.Carries t)
    (hs : Section.ExtendAll sections sections') : SummaryPlaced passed sections' t where
  first := by
    intro i k hk
    obtain ⟨n, x, hn, hhead, hpassed⟩ := h.first i k (hc.summaryAt hk)
    obtain ⟨x', hn', hx⟩ := hs n x hn
    refine ⟨n, x', hn', ?_, hpassed⟩
    obtain ⟨rest, hrest⟩ := hx.groups
    rw [← hrest, List.head?_append, hhead, Option.some_or]
  headings := by
    intro i k hk
    have htake := congrArg (List.take k) (hc i k hk)
    rw [List.take_take, List.take_take, Nat.min_eq_left (Nat.le_succ k)] at htake
    rw [htake]
    exact h.headings i k (hc.summaryAt hk)
  once := fun i j k l hk hl => h.once i j k l (hc.summaryAt hk) (hc.summaryAt hl)

end SummaryPlaced

namespace Draft

/-! ## When the style is gone -/

/-- No paragraph will get the style any more. -/
structure Unstyled (passed : Prop) (d : Draft) : Prop where
  style : d.nextStyle = none
  pending : ¬ d.pending.any Entry.isSummary
  placed : SummaryPlaced passed d.document.sections d.doc.store
  opened : passed → d.document.sections ≠ []

variable {passed : Prop} {d e : Draft}

namespace Unstyled

theorem of_carries (h : d.Unstyled passed) (hc : d.doc.store.Carries e.doc.store)
    (hs : Section.ExtendAll d.document.sections e.document.sections) (hstyle : e.nextStyle = none)
    (hp : ¬ e.pending.any Entry.isSummary) : e.Unstyled passed := by
  refine ⟨hstyle, hp, h.placed.carry hc hs, fun hpassed hnil => ?_⟩
  obtain ⟨s, rest, hd⟩ := List.exists_cons_of_ne_nil (h.opened hpassed)
  obtain ⟨s', hs', -⟩ := hs 0 s (by rw [hd]; rfl)
  rw [hnil] at hs'
  cases hs'

/-- What is neither about groups nor about sections. -/
theorem of_rest (h : d.Unstyled passed) (hsections : e.doc.sections = d.doc.sections)
    (hcurrent : e.current = d.current) (hstore : e.doc.store = d.doc.store)
    (hstyle : e.nextStyle = none) (hp : ¬ e.pending.any Entry.isSummary) : e.Unstyled passed := by
  refine h.of_carries (hstore ▸ GroupStore.carries_of_entries fun _ => rfl) ?_ hstyle hp
  rw [document_sections, document_sections, hsections, hcurrent]
  exact .refl _

theorem freshGroup (h : d.Unstyled passed) : d.freshGroup.Unstyled passed :=
  h.of_carries d.doc.store.carries_insert (adds_freshGroup d).sections h.style h.pending

theorem updateGroup (h : d.Unstyled passed) {f : Group → Group}
    (hf : ∀ g, (f g).entries = g.entries) : (d.updateGroup f).Unstyled passed :=
  h.of_carries (d.doc.store.carries_update d.group hf) (Write.describe d hf).adds.sections h.style
    h.pending

theorem addEntryTo (h : d.Unstyled passed) {x : Entry} (hx : ¬ x.isSummary) (i : GroupId) :
    Unstyled passed { d with doc := d.doc.addEntry i x } :=
  h.of_carries (d.doc.store.carries_addEntry i hx) (Write.addEntry d i x).adds.sections h.style
    h.pending

theorem placeGroup (h : d.Unstyled passed) (i : GroupId) : (d.placeGroup i).Unstyled passed :=
  h.of_carries (GroupStore.carries_of_entries fun _ => rfl) (adds_placeGroup d i).sections h.style
    h.pending

theorem pend (h : d.Unstyled passed) {x : Entry} (hx : ¬ x.isSummary) :
    Unstyled passed { d with pending := some x } :=
  h.of_rest rfl rfl rfl h.style hx

theorem flush (h : d.Unstyled passed) : d.flush.Unstyled passed := by
  rw [Draft.flush]
  split
  · exact h
  · next x hx =>
      have hno : ¬ x.settled.isSummary := by
        have hpending := h.pending
        rwa [hx, Option.any_some, ← x.isSummary_settled] at hpending
      exact (h.addEntryTo hno d.group).of_rest rfl rfl rfl rfl Bool.false_ne_true

theorem openSection (h : d.Unstyled passed) (title : String) :
    (d.openSection title).Unstyled passed :=
  h.flush.freshGroup.of_carries (GroupStore.carries_of_entries fun _ => rfl)
    (Write.opened d.flush.freshGroup title _).adds.sections h.flush.style h.flush.pending

theorem appendText (h : d.Unstyled passed) {text : String} {onNewLine : Bool}
    (he : d.appendText text onNewLine = .ok e) : e.Unstyled passed := by
  rcases appendText_cases he with ⟨-, rfl⟩ | ⟨p, p', hp, hext, rfl⟩
  · refine h.of_rest rfl rfl rfl rfl ?_
    rw [h.style]
    exact Bool.false_ne_true
  · refine h.pend ?_
    have hpending := h.pending
    rwa [hp, Option.any_some, ← Entry.isSummary_extend hext] at hpending

theorem captureLine (h : d.Unstyled passed) (line : String) :
    (d.captureLine line).Unstyled passed := by
  rw [Draft.captureLine]
  split
  · exact h
  · exact h.of_rest rfl rfl rfl h.style h.pending

theorem attachCode (h : d.Unstyled passed) (s : Scratch) : (d.attachCode s).Unstyled passed := by
  rw [Draft.attachCode]
  split
  · exact h.addEntryTo (fun hno => by cases hno) s.group
  · exact h

theorem splitCapture (h : d.Unstyled passed) : d.splitCapture.Unstyled passed := by
  rw [Draft.splitCapture]
  split
  · exact h
  · next s _ =>
      split
      · exact (h.attachCode s).of_rest rfl rfl rfl (h.attachCode s).style (h.attachCode s).pending
      · exact h

theorem startCapture (h : d.Unstyled passed) : d.startCapture.Unstyled passed := by
  rw [Draft.startCapture]
  split
  · exact h
  · exact h.freshGroup.of_rest rfl rfl rfl h.style h.pending

theorem finishCapture (h : d.Unstyled passed) : d.finishCapture.Unstyled passed := by
  rw [Draft.finishCapture]
  split
  · exact h
  · next s _ =>
      have hopen : Unstyled passed { d with scratch := none } :=
        h.of_rest rfl rfl rfl h.style h.pending
      simp only []
      split
      · exact hopen.attachCode s
      · exact (hopen.attachCode s).placeGroup s.group

theorem listSpan (h : d.Unstyled passed) (s : Span) : (d.listSpan s).Unstyled passed := by
  rw [Draft.listSpan]
  split <;> exact h.of_rest rfl rfl rfl h.style h.pending

theorem addSpan (h : d.Unstyled passed) (kind : SpanKind) (text : String) :
    (d.addSpan kind text).Unstyled passed := by
  rw [Draft.addSpan]
  split
  · exact h.splitCapture.flush.pend fun hno => by cases hno
  · exact Unstyled.listSpan (h.splitCapture.flush.pend fun hno => by cases hno) _

theorem addTodo (h : d.Unstyled passed) (text : String) : (d.addTodo text).Unstyled passed :=
  (h.addSpan .todo text).flush

theorem addKeyword (h : d.Unstyled passed) {whole keyword text : String}
    (he : d.addKeyword whole keyword text = .ok e) : e.Unstyled passed := by
  rw [Draft.addKeyword] at he
  split at he
  · exact Except.ok.inj he ▸ h.addSpan _ text
  · exact h.appendText he

theorem addPlaced (h : d.Unstyled passed) {x : Entry} (hx : ¬ x.isSummary) :
    (d.flush.addEntry x).place.Unstyled passed :=
  (h.flush.addEntryTo hx d.flush.group).placeGroup _

theorem openTable (h : d.Unstyled passed) (key : String) (lead : Option String) :
    (d.openTable key lead).Unstyled passed := by
  rw [Draft.openTable]
  refine (Unstyled.addPlaced ?_ fun hno => by cases hno).freshGroup
  exact h.of_rest rfl rfl rfl h.style h.pending

theorem closeTable (h : d.Unstyled passed) : d.closeTable.Unstyled passed := by
  have hadd := h.addPlaced (x := .edge { name := closingBrace, closing := true })
    Bool.false_ne_true
  exact hadd.of_rest rfl rfl rfl hadd.style hadd.pending

theorem discardNodoc? (h : d.Unstyled passed) (he : d.discardNodoc? = some e) :
    e.Unstyled passed := by
  rw [Draft.discardNodoc?] at he
  split at he
  · exact Option.some.inj he ▸ h.of_rest rfl rfl rfl h.style Bool.false_ne_true
  · split at he
    · next hlast =>
        have hskips : Skips d e := ⟨hlast, (Option.some.inj he).symm⟩
        refine h.of_carries ?_ hskips.adds.sections ?_ ?_
        · exact Option.some.inj he ▸ d.doc.store.carries_dropLast d.group
        · exact Option.some.inj he ▸ h.style
        · exact Option.some.inj he ▸ Bool.false_ne_true
    · cases he

theorem declareParam (h : d.Unstyled passed) {key : String} {definition : Option String}
    {kind : ParamKind} (he : d.declareParam key definition kind = .ok e) : e.Unstyled passed := by
  rcases declareParam_cases he with hskip | ⟨-, f, hf, rfl⟩
  · exact h.discardNodoc? hskip
  · have hmarked := h.updateGroup (f := fun g =>
      { g with param := some key, paramKind := some kind, params := definition }) fun _ => rfl
    have hlisted : f.Unstyled passed := by
      obtain ⟨params, libParams, rfl⟩ := register_cases hf
      exact hmarked.of_rest rfl rfl rfl h.style h.pending
    exact (hlisted.placeGroup f.group).freshGroup

theorem flagUndocumented (h : d.Unstyled passed) : d.flagUndocumented.Unstyled passed := by
  rw [Draft.flagUndocumented]
  split
  · exact h.freshGroup
  · exact h.freshGroup.addTodo _

theorem applyDirective (h : d.Unstyled passed) {option : String} {enabled : Bool}
    {line : Option Int} (he : d.applyDirective option enabled line = .ok e) :
    e.Unstyled passed := by
  rw [Draft.applyDirective] at he
  split at he
  · split at he
    · split at he
      · have hmode : Unstyled passed { d with doc := { d.doc with literate := enabled } } :=
          h.of_rest rfl rfl rfl h.style h.pending
        refine Except.ok.inj he ▸ ?_
        rw [setLiterate]
        split
        · exact hmode.startCapture
        · exact hmode.finishCapture
      · refine Except.ok.inj he ▸ ?_
        rw [setLoose]
        split
        · exact Unstyled.addTodo (d := { d with
            doc := { d.doc with loose := enabled }, looseReported := true })
            (h.of_rest rfl rfl rfl h.style h.pending) _
        · exact h.of_rest rfl rfl rfl h.style h.pending
    · cases he
  · cases he

theorem enterSource (h : d.Unstyled passed) : (Hook.enterSource d).Unstyled passed := by
  rw [Hook.enterSource]
  split
  · refine Unstyled.startCapture ?_
    split
    · exact h
    · exact h.placeGroup _
  · exact h

end Unstyled

/-! ## While the style waits -/

/-- A paragraph that is put into the current group now opens its section, up to headings.
It comes first in the document unless something has `passed` it. -/
structure Awaiting (passed : Prop) (d : Draft) : Prop where
  opened : ∃ s, d.current = some s ∧ s.groups = [d.group]
  held : d.doc.store.Holds d.group
  headings : ∀ x ∈ d.currentGroup.entries, x.isHeading
  scratch : d.scratch = none
  unwritten : ∀ i k, ¬ d.doc.store.SummaryAt i k
  behind : passed ↔ d.doc.sections ≠ [] ∨ d.currentGroup.entries ≠ []

namespace Awaiting

theorem of_rest (h : d.Awaiting passed) (hsections : e.doc.sections = d.doc.sections)
    (hcurrent : e.current = d.current) (hgroup : e.group = d.group)
    (hstore : e.doc.store = d.doc.store) (hscratch : e.scratch = d.scratch) :
    e.Awaiting passed := by
  have hentries : e.currentGroup = d.currentGroup := by
    rw [currentGroup, currentGroup, hstore, hgroup]
  refine ⟨?_, ?_, hentries ▸ h.headings, hscratch.trans h.scratch, hstore ▸ h.unwritten, ?_⟩
  · rw [hcurrent, hgroup]
    exact h.opened
  · rw [hstore, hgroup]
    exact h.held
  · rw [hsections, hentries]
    exact h.behind

/-- The current group is in its section already. -/
theorem placeGroup_eq (h : d.Awaiting passed) : d.placeGroup d.group = d := by
  obtain ⟨s, hs, hgroups⟩ := h.opened
  have hplace : s.place d.group = s := by
    rw [Section.place, hgroups, if_pos List.getLast?_singleton]
  rw [placeGroup, hs, Option.map_some, hplace, ← hs]

/-- Where the style is lost there will be no summary. -/
theorem unstyled (h : d.Awaiting passed) (hc : d.doc.store.Carries e.doc.store)
    (ho : e.current.isSome) (hstyle : e.nextStyle = none) (hp : ¬ e.pending.any Entry.isSummary) :
    e.Unstyled passed := by
  refine ⟨hstyle, hp, .of_none fun i k hk => h.unwritten i k (hc.summaryAt hk), fun _ => ?_⟩
  obtain ⟨s, hs⟩ := Option.isSome_iff_exists.1 ho
  rw [document_sections, hs]
  simp

theorem current_isSome (h : d.Awaiting passed) : d.current.isSome := by
  obtain ⟨s, hs, -⟩ := h.opened
  rw [hs]
  rfl

theorem placed_addEntry (h : d.Awaiting passed) (x : Entry) :
    SummaryPlaced passed (d.doc.sections ++ d.current.toList) (d.addEntry x).doc.store := by
  have hplace : ∀ i k, (d.addEntry x).doc.store.SummaryAt i k →
      i = d.group ∧ k = d.currentGroup.entries.length :=
    fun i k => GroupStore.summaryAt_addEntry h.unwritten
  have hentries : ((d.addEntry x).doc.store.get d.group).entries = d.currentGroup.entries ++ [x] :=
    congrArg Group.entries (GroupStore.get_update_self h.held _)
  obtain ⟨s, hs, hgroups⟩ := h.opened
  refine ⟨fun i k hk => ?_, fun i k hk => ?_, fun i j k l hk hl => ?_⟩
  · obtain ⟨rfl, rfl⟩ := hplace i k hk
    refine ⟨d.doc.sections.length, s, ?_, ?_, ?_⟩
    · rw [hs, Option.toList_some, List.getElem?_concat_length]
    · rw [hgroups, List.head?_singleton]
    · rw [h.behind, ne_eq, ne_eq, ← List.length_eq_zero_iff, ← List.length_eq_zero_iff]
  · obtain ⟨rfl, rfl⟩ := hplace i k hk
    rw [hentries, List.take_left]
    exact h.headings
  · obtain ⟨rfl, rfl⟩ := hplace i k hk
    obtain ⟨rfl, rfl⟩ := hplace j l hl
    exact ⟨rfl, rfl⟩

/-- The first entry that is put into the current group, which may be the summary, takes
the style away. -/
theorem addEntry (h : d.Awaiting passed) (x : Entry) :
    Unstyled passed { d.addEntry x with pending := none, nextStyle := none } := by
  refine ⟨rfl, Bool.false_ne_true, ?_, fun _ => ?_⟩
  · rw [document_sections]
    exact h.placed_addEntry x
  · obtain ⟨s, hs, -⟩ := h.opened
    rw [document_sections]
    show d.doc.sections ++ d.current.toList ≠ []
    rw [hs]
    simp

theorem updateGroup (h : d.Awaiting passed) {f : Group → Group}
    (hf : ∀ g, (f g).entries = g.entries) : (d.updateGroup f).Awaiting passed := by
  have hentries : (d.updateGroup f).currentGroup.entries = d.currentGroup.entries :=
    (congrArg Group.entries (GroupStore.get_update_self h.held f)).trans (hf _)
  refine ⟨h.opened, GroupStore.holds_update.2 h.held, hentries ▸ h.headings, h.scratch,
    fun i k hk => ?_, hentries ▸ h.behind⟩
  exact h.unwritten i k ((d.doc.store.carries_update d.group hf).summaryAt hk)

/-- A heading takes nothing away, but the summary will come after it. -/
theorem addHeading (h : d.Awaiting passed) (x : Heading) :
    (d.addEntry (.heading x)).Awaiting True := by
  have hentries : (d.addEntry (.heading x)).currentGroup.entries =
      d.currentGroup.entries ++ [.heading x] :=
    congrArg Group.entries (GroupStore.get_update_self h.held _)
  refine ⟨h.opened, GroupStore.holds_update.2 h.held, fun y hy => ?_, h.scratch, fun i k hk => ?_,
    ?_⟩
  · rw [hentries, List.mem_append, List.mem_singleton] at hy
    rcases hy with hy | rfl
    · exact h.headings y hy
    · rfl
  · have hcarries := d.doc.store.carries_addEntry d.group (e := .heading x) Bool.false_ne_true
    exact h.unwritten i k (hcarries.summaryAt hk)
  · rw [hentries]
    simp

end Awaiting

/-- A further section takes nothing away either. -/
theorem awaiting_openSection (hp : d.pending = none) (hs : d.scratch = none)
    (hno : ∀ i k, ¬ d.doc.store.SummaryAt i k) (hbehind : passed ↔ d.document.sections ≠ [])
    (title : String) : (d.openSection title).Awaiting passed := by
  rw [openSection, flush_of_settled hp]
  refine ⟨⟨_, rfl, rfl⟩, GroupStore.holds_insert.2 (Or.inr rfl), ?_, hs, fun i k hk => ?_, ?_⟩
  · show ∀ x ∈ ((d.doc.store.insert {}).get d.doc.store.nextId).entries, x.isHeading
    rw [GroupStore.get_insert_nextId]
    exact fun x hx => absurd hx List.not_mem_nil
  · exact hno i k (d.doc.store.carries_insert.summaryAt hk)
  · show passed ↔ d.doc.sections ++ d.current.toList ≠ [] ∨
      ((d.doc.store.insert {}).get d.doc.store.nextId).entries ≠ []
    rw [GroupStore.get_insert_nextId, hbehind, document_sections]
    simp

/-! ## All stages -/

/-- The style waits for a paragraph, a pending paragraph has taken it, or it is gone. -/
inductive Styles (passed : Prop) (d : Draft) : Prop where
  | waits (h : d.Awaiting passed) (hs : d.nextStyle = some summaryStyle)
      (hp : ¬ d.pending.any Entry.isParagraph) : Styles passed d
  | takes (h : d.Awaiting passed) (hs : d.nextStyle = none) (hp : d.pending.any Entry.isSummary) :
      Styles passed d
  | past (h : d.Unstyled passed) : Styles passed d

/-- The style waits, and no entry that would drop it is pending. -/
def StyleWaits (d : Draft) : Prop :=
  d.nextStyle.isSome ∧ d.pending = none

namespace Styles

theorem of_rest (h : d.Styles passed) (hsections : e.doc.sections = d.doc.sections)
    (hcurrent : e.current = d.current) (hgroup : e.group = d.group)
    (hstore : e.doc.store = d.doc.store) (hscratch : e.scratch = d.scratch)
    (hstyle : e.nextStyle = d.nextStyle) (hp : e.pending = d.pending) : e.Styles passed := by
  cases h with
  | waits h hs hno =>
      exact .waits (h.of_rest hsections hcurrent hgroup hstore hscratch) (hstyle.trans hs)
        (hp ▸ hno)
  | takes h hs hsum =>
      exact .takes (h.of_rest hsections hcurrent hgroup hstore hscratch) (hstyle.trans hs)
        (hp ▸ hsum)
  | past h =>
      exact .past (h.of_rest hsections hcurrent hstore (hstyle.trans h.style) (hp ▸ h.pending))

theorem unstyled (h : d.Styles passed) (hs : d.nextStyle = none) (hp : d.pending = none) :
    d.Unstyled passed := by
  cases h with
  | waits _ hs' => cases hs.symm.trans hs'
  | takes _ _ hsum =>
      rw [hp] at hsum
      cases hsum
  | past h => exact h

/-- Either nothing is pending and the style goes on waiting, or it is gone when what is
pending is put into its group. -/
theorem flush_cases (h : d.Styles passed) :
    d.StyleWaits ∧ d.Awaiting passed ∧ d.nextStyle = some summaryStyle ∨
      ¬ d.StyleWaits ∧ d.flush.Unstyled passed := by
  have hpending {x : Entry} (h : d.Awaiting passed) (hx : d.pending = some x) :
      ¬ d.StyleWaits ∧ d.flush.Unstyled passed := by
    refine ⟨fun hw => ?_, ?_⟩
    · cases hx.symm.trans hw.2
    · rw [Draft.flush, hx]
      exact h.addEntry x.settled
  cases h with
  | waits h hs hno =>
      cases hx : d.pending with
      | none => exact Or.inl ⟨⟨by rw [hs]; rfl, hx⟩, h, hs⟩
      | some x => exact Or.inr (hpending h hx)
  | takes h hs hsum =>
      cases hx : d.pending with
      | none =>
          rw [hx] at hsum
          cases hsum
      | some x => exact Or.inr (hpending h hx)
  | past h =>
      refine Or.inr ⟨fun hw => ?_, h.flush⟩
      have hsome := hw.1
      rw [h.style] at hsome
      cases hsome

theorem flush (h : d.Styles passed) : d.flush.Styles passed := by
  rcases h.flush_cases with ⟨hw, -⟩ | ⟨-, h⟩
  · rwa [flush_of_settled hw.2]
  · exact .past h

/-- Anything but a paragraph that is pending now drops the style later. -/
theorem pend (h : d.Styles passed) {x : Entry} (hx : ¬ x.isParagraph) :
    Styles passed { d.flush with pending := some x } := by
  rcases h.flush_cases with ⟨hw, h, hs⟩ | ⟨-, h⟩
  · rw [flush_of_settled hw.2]
    exact .waits (h.of_rest rfl rfl rfl rfl rfl) hs hx
  · exact .past (h.pend fun hsum => hx (Entry.isParagraph_of_isSummary hsum))

theorem closeComment (h : d.Styles passed) : d.closeComment.Styles passed := by
  refine .past ?_
  rcases h.flush_cases with ⟨hw, h, -⟩ | ⟨-, h⟩
  · rw [Draft.closeComment, flush_of_settled hw.2]
    refine h.unstyled (GroupStore.carries_of_entries fun _ => rfl) h.current_isSome rfl ?_
    rw [hw.2]
    exact Bool.false_ne_true
  · exact h.of_rest rfl rfl rfl rfl h.pending

theorem openSection (h : d.Styles passed) (title : String) :
    (d.openSection title).Styles (passed ∨ d.StyleWaits) := by
  rcases h.flush_cases with ⟨hw, h, hs⟩ | ⟨hno, h⟩
  · have hopened : d.document.sections ≠ [] := by
      obtain ⟨s, hcurrent, -⟩ := h.opened
      rw [document_sections, hcurrent]
      simp
    refine .waits
      (awaiting_openSection hw.2 h.scratch h.unwritten (by simp [hw, hopened]) title) ?_ ?_
    · rw [Draft.openSection, flush_of_settled hw.2]
      exact hs
    · rw [openSection_pending]
      exact Bool.false_ne_true
  · have hsame : d.openSection title = d.flush.openSection title := by
      rw [Draft.openSection, Draft.openSection, flush_of_settled (flush_pending d)]
    rw [hsame, eq_false hno, or_false]
    exact .past (h.openSection title)

theorem addHeading (h : d.Styles passed) (text : String) (level : HeadingLevel) :
    (d.addHeading text level).Styles (passed ∨ d.StyleWaits) := by
  rcases h.flush_cases with ⟨hw, h, hs⟩ | ⟨hno, h⟩
  · have hadd := h.addHeading ⟨text, level⟩
    rw [Draft.addHeading, flush_of_settled hw.2, place, hadd.placeGroup_eq, eq_true hw, or_true]
    refine .waits hadd hs ?_
    show ¬ d.pending.any _
    rw [hw.2]
    exact Bool.false_ne_true
  · have hadd := h.addEntryTo (x := .heading ⟨text, level⟩) Bool.false_ne_true d.flush.group
    rw [eq_false hno, or_false]
    exact .past (hadd.placeGroup d.flush.group)

theorem appendText (h : d.Styles passed) {text : String} {onNewLine : Bool}
    (he : d.appendText text onNewLine = .ok e) : e.Styles passed := by
  cases h with
  | waits h hs hno =>
      rcases appendText_cases he with ⟨-, rfl⟩ | ⟨p, p', hp, hext, rfl⟩
      · refine .takes (h.of_rest rfl rfl rfl rfl rfl) rfl ?_
        rw [hs]
        rfl
      · refine .waits (h.of_rest rfl rfl rfl rfl rfl) hs ?_
        rwa [hp, Option.any_some, ← Entry.isParagraph_extend hext] at hno
  | takes h hs hsum =>
      rcases appendText_cases he with ⟨hp, -⟩ | ⟨p, p', hp, hext, rfl⟩
      · rw [hp] at hsum
        cases hsum
      · refine .takes (h.of_rest rfl rfl rfl rfl rfl) hs ?_
        rwa [hp, Option.any_some, ← Entry.isSummary_extend hext] at hsum
  | past h => exact .past (h.appendText he)

theorem appendItem (h : d.Styles passed) (item : ListItem) :
    (d.appendItem item).Styles passed := by
  rw [Draft.appendItem]
  split
  · next l hl =>
      cases h with
      | waits h hs => exact .waits (h.of_rest rfl rfl rfl rfl rfl) hs Bool.false_ne_true
      | takes h hs hsum =>
          rw [hl] at hsum
          cases hsum
      | past h => exact .past (h.pend Bool.false_ne_true)
  · exact h.pend fun hno => by cases hno

theorem addSpan (h : d.Styles passed) (hs : d.scratch = none) (kind : SpanKind) (text : String) :
    (d.addSpan kind text).Styles passed := by
  have hsplit : d.splitCapture = d := by
    rw [splitCapture, hs]
  rw [Draft.addSpan, hsplit]
  split
  · exact h.pend fun hno => by cases hno
  · have hpend {x : Span} := h.pend (x := .span x) Bool.false_ne_true
    rw [Draft.listSpan]
    split <;> exact hpend.of_rest rfl rfl rfl rfl rfl rfl rfl

theorem addKeyword (h : d.Styles passed) (hs : d.scratch = none) {whole keyword text : String}
    (he : d.addKeyword whole keyword text = .ok e) : e.Styles passed := by
  rw [Draft.addKeyword] at he
  split at he
  · exact Except.ok.inj he ▸ h.addSpan hs _ text
  · exact h.appendText he

/-- With its paragraph a `nodoc` that would have been the summary loses the style. -/
theorem discardNodoc? (h : d.Styles passed) (he : d.discardNodoc? = some e) :
    e.Unstyled passed := by
  have hheadings (h : d.Awaiting passed) :
      ¬ d.currentGroup.entries.getLast?.any Entry.isNodoc := by
    intro hlast
    obtain ⟨x, hx, hnodoc⟩ := (Option.any_eq_true _ _).1 hlast
    exact Entry.not_isParagraph_of_isHeading (h.headings x (List.mem_of_getLast? hx))
      (Entry.isParagraph_of_isNodoc hnodoc)
  cases h with
  | waits h hs hno =>
      have hpending : ¬ d.pending.any Entry.isNodoc := by
        intro hnodoc
        obtain ⟨x, hx, hnodoc⟩ := (Option.any_eq_true _ _).1 hnodoc
        rw [hx, Option.any_some] at hno
        exact hno (Entry.isParagraph_of_isNodoc hnodoc)
      rw [discardNodoc?_eq_none.2 ⟨hpending, hheadings h⟩] at he
      cases he
  | takes h hs hsum =>
      rw [Draft.discardNodoc?, if_neg (hheadings h)] at he
      split at he
      · exact Option.some.inj he ▸ h.unstyled (GroupStore.carries_of_entries fun _ => rfl)
          h.current_isSome hs Bool.false_ne_true
      · cases he
  | past h => exact h.discardNodoc? he

theorem placeAs (h : d.Styles passed) {f : Group → Group} (hf : ∀ g, (f g).entries = g.entries)
    (i : Option GroupId) : Styles passed { (d.updateGroup f).place with functionGroup := i } := by
  have hplace (h : d.Awaiting passed) :
      Awaiting passed { (d.updateGroup f).place with functionGroup := i } := by
    have hupdate := h.updateGroup hf
    rw [place, hupdate.placeGroup_eq]
    exact hupdate.of_rest rfl rfl rfl rfl rfl
  cases h with
  | waits h hs hno => exact .waits (hplace h) hs hno
  | takes h hs hsum => exact .takes (hplace h) hs hsum
  | past h =>
      exact .past (((h.updateGroup hf).placeGroup d.group).of_rest rfl rfl rfl h.style h.pending)

theorem declareFunction (h : d.Styles passed) (binding : Binding) (name : String)
    (params : Option String) : (d.declareFunction binding name params).Styles passed := by
  rw [Draft.declareFunction]
  split
  · next hskip => exact .past (h.discardNodoc? hskip)
  · refine h.placeAs ?_ _
    exact fun _ => rfl

theorem declareConstant (h : d.Styles passed) (name : String) :
    (d.declareConstant name).Styles passed := by
  rw [Draft.declareConstant]
  split
  · next hskip => exact .past (h.discardNodoc? hskip)
  · refine h.placeAs ?_ _
    exact fun _ => rfl

theorem finishCapture (h : d.Styles passed) : d.finishCapture.Styles passed := by
  cases h with
  | waits h hs hno =>
      rw [finishCapture_of_none h.scratch]
      exact .waits h hs hno
  | takes h hs hsum =>
      rw [finishCapture_of_none h.scratch]
      exact .takes h hs hsum
  | past h => exact .past h.finishCapture

/-- In every stage a summary that is there is in its place. -/
theorem placed (h : d.Styles passed) :
    SummaryPlaced passed d.document.sections d.doc.store := by
  cases h with
  | waits h => exact .of_none h.unwritten
  | takes h => exact .of_none h.unwritten
  | past h => exact h.placed

end Styles

end Draft

end DocComment
