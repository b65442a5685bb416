import DocComment.Proofs.WellFormed

/-!
# What can be shown of a document

A page can show every kind of entry but the blank one, and every text but one whose NUL
characters are taken for placeholders. `Draft.Legible` says of a draft that it has no
blank entry, and of a source without NUL characters (`clean`) that it has no such
character in any text that the page is to mark up: the titles of sections and the texts of
entries (`Entry.texts`). The texts of code and formulas are not among them, as they are
not marked up.

Every text comes from a capture, and what is captured is part of the line; or it is one of
the few that a draft knows by itself. So every operation and every action keeps the
invariant (`Action.legible_run`), and nothing has to be said about states.
-/

namespace DocComment

open Text Relation Reader

/-! ## Texts -/

/-- A text that has no NUL character, if the source is clean. -/
def Unmarked (clean : Prop) (s : String) : Prop :=
  clean → '\x00' ∉ s.toList

variable {clean : Prop}

namespace Unmarked

theorem subset {s t : String} (h : Unmarked clean s) (hsub : t.toList ⊆ s.toList) :
    Unmarked clean t :=
  fun hc hmem => h hc (hsub hmem)

theorem append {s t : String} (hs : Unmarked clean s) (ht : Unmarked clean t) :
    Unmarked clean (s ++ t) := by
  intro hc hmem
  rw [String.toList_append, List.mem_append] at hmem
  exact hmem.elim (hs hc) (ht hc)

theorem of_not_mem {s : String} (h : '\x00' ∉ s.toList) : Unmarked clean s :=
  fun _ => h

theorem trim {s : String} (h : Unmarked clean s) : Unmarked clean (trim s) :=
  h.subset (trim_subset s)

theorem text {p : Pattern} {line : String} {captures : Captures} (h : Unmarked clean line)
    (hr : p.read? line = some captures) (i : Nat) : Unmarked clean (captures.text i) :=
  h.subset (Pattern.text_subset hr i)

/-- Lines are joined by a line feed or a space. -/
theorem joinText {current : Option String} {text : String} {onNewLine : Bool}
    (hc : ∀ t ∈ current, Unmarked clean t) (ht : Unmarked clean text) :
    Unmarked clean (joinText current text onNewLine) := by
  unfold DocComment.joinText
  split
  · split
    · exact ht
    · exact ((hc _ rfl).append (.of_not_mem (by decide))).append ht
  · split
    · exact ht
    · next t hf =>
        have hmem : t ∈ current := (Option.filter_eq_some_iff.1 hf).1
        exact ((hc _ hmem).append (.of_not_mem (by decide))).append ht

end Unmarked

/-! ## Entries -/

def ListItem.texts (i : ListItem) : List String :=
  i.key.toList ++ [i.text]

namespace Entry

/-- The texts of an entry that are marked up. -/
def texts : Entry → List String
  | paragraph p => p.text.toList
  | heading h => [h.text]
  | edge e => [e.name]
  | span s => s.text.toList
  | list l => l.allItems.flatMap ListItem.texts
  | formula _ | code _ | blank => []

/-- An entry that can be shown. -/
structure Legible (clean : Prop) (e : Entry) : Prop where
  shown : e ≠ .blank
  texts : ∀ s ∈ e.texts, Unmarked clean s

variable {e e' : Entry}

theorem Legible.settled (h : e.Legible clean) : e.settled.Legible clean := by
  cases e with
  | blank => exact absurd rfl h.shown
  | paragraph | heading | edge | formula | span => exact h
  | code => exact ⟨by rintro ⟨⟩, fun _ hs => absurd hs List.not_mem_nil⟩
  | list l =>
      refine ⟨by rintro ⟨⟩, ?_⟩
      have hsame : (settled (.list l)).texts = (list l).texts := by
        simp [Entry.settled, Entry.texts, ListBlock.allItems]
      rw [hsame]
      exact h.texts

theorem Legible.of_text {e : Entry} {text : String} (hshown : e ≠ .blank) (he : e.texts = [text])
    (ht : Unmarked clean text) : e.Legible clean :=
  ⟨hshown, fun s hs => by rw [he, List.mem_singleton] at hs; exact hs ▸ ht⟩

theorem Legible.of_silent {e : Entry} (hshown : e ≠ .blank) (he : e.texts = []) :
    e.Legible clean :=
  ⟨hshown, fun s hs => by rw [he] at hs; cases hs⟩

theorem Legible.of_list {l : ListBlock}
    (h : ∀ i ∈ l.allItems, ∀ s ∈ i.texts, Unmarked clean s) : (list l).Legible clean := by
  refine ⟨by rintro ⟨⟩, fun s hs => ?_⟩
  obtain ⟨i, hi, hs⟩ := List.mem_flatMap.1 hs
  exact h i hi s hs

theorem Legible.items {l : ListBlock} (h : (list l).Legible clean) :
    ∀ i ∈ l.allItems, ∀ s ∈ i.texts, Unmarked clean s :=
  fun i hi s hs => h.texts s (List.mem_flatMap.2 ⟨i, hi, hs⟩)

theorem Legible.extend (h : e.Legible clean) {text : String} {onNewLine : Bool}
    (ht : Unmarked clean text) (he : e.extend text onNewLine = .ok e') : e'.Legible clean := by
  cases e with
  | heading | edge | blank => cases he
  | formula | code => exact Except.ok.inj he ▸ .of_silent (by rintro ⟨⟩) rfl
  | paragraph p =>
      refine Except.ok.inj he ▸ .of_text (by rintro ⟨⟩) rfl (.joinText (fun t hmem => ?_) ht)
      exact h.texts t (Option.mem_toList.2 hmem)
  | span s =>
      refine Except.ok.inj he ▸ .of_text (by rintro ⟨⟩) rfl (.joinText (fun t hmem => ?_) ht)
      exact h.texts t (Option.mem_toList.2 hmem)
  | list l =>
      refine Except.ok.inj he ▸ .of_list ?_
      have hitems := h.items
      unfold ListBlock.extend
      cases hp : l.pending with
      | none =>
          intro i hi s hs
          rcases List.mem_append.1 hi with hi | hi
          · exact hitems i (List.mem_append_left _ hi) s hs
          · obtain rfl := List.mem_singleton.1 hi
            obtain rfl := List.mem_singleton.1 hs
            exact ht
      | some last =>
          intro i hi s hs
          have hlast : last ∈ l.allItems := List.mem_append_right _ (by simp [hp])
          rcases List.mem_append.1 hi with hi | hi
          · exact hitems i (List.mem_append_left _ hi) s hs
          · obtain rfl := List.mem_singleton.1 hi
            rcases List.mem_append.1 hs with hs | hs
            · exact hitems last hlast s (List.mem_append_left _ hs)
            · obtain rfl := List.mem_singleton.1 hs
              refine .joinText (fun t hmem => ?_) ht
              cases hmem
              exact hitems last hlast _ (List.mem_append_right _ List.mem_cons_self)

end Entry

theorem ListItem.texts_marked {marker text : String} {definition : Option String}
    (ht : Unmarked clean text) (hd : ∀ t ∈ definition, Unmarked clean t) :
    ∀ s ∈ (ListItem.marked marker text definition).texts, Unmarked clean s := by
  unfold ListItem.marked
  cases definition with
  | none => exact fun s hs => List.mem_singleton.1 hs ▸ ht
  | some d =>
      simp only []
      split
      · intro s hs
        rcases List.mem_append.1 hs with hs | hs
        · obtain rfl := Option.some.inj (Option.mem_toList.1 hs)
          exact ht
        · exact List.mem_singleton.1 hs ▸ hd d rfl
      · exact fun s hs => List.mem_singleton.1 hs ▸ ht

/-! ## Drafts -/

namespace Draft

/-- A draft of a document of a given full name that can be shown. -/
structure Legible (clean : Prop) (full : String) (d : Draft) : Prop where
  entries : ∀ i, ∀ e ∈ (d.doc.store.get i).entries, e.Legible clean
  pending : ∀ e ∈ d.pending, e.Legible clean
  listed : ∀ s ∈ d.todos ++ d.fixmes, (Entry.span s).Legible clean
  titles : ∀ s ∈ d.doc.allSections ++ d.current.toList, Unmarked clean s.title
  fullname : d.doc.fullname = full ∧ Unmarked clean full

namespace Legible

variable {full : String} {d e : Draft}

theorem name (h : d.Legible clean full) : Unmarked clean d.doc.fullname :=
  h.fullname.1 ▸ h.fullname.2

theorem freshGroup (h : d.Legible clean full) : d.freshGroup.Legible clean full := by
  refine ⟨fun i => ?_, h.pending, h.listed, h.titles, h.fullname⟩
  show ∀ e ∈ ((d.doc.store.insert {}).get i).entries, _
  rw [GroupStore.get_insert_empty]
  exact h.entries i

/-- Changes of a group that give it no entries keep its entries legible. -/
theorem updateGroup (h : d.Legible clean full) {f : Group → Group}
    (hf : ∀ g, (f g).entries ⊆ g.entries) : (d.updateGroup f).Legible clean full := by
  refine ⟨fun i e he => ?_, h.pending, h.listed, h.titles, h.fullname⟩
  rcases d.doc.store.get_update_cases d.group i f with hi | ⟨-, hi⟩
  · exact h.entries i e (hi ▸ he)
  · exact h.entries i e (hf _ (hi ▸ he))

theorem addEntryTo (h : d.Legible clean full) {e : Entry} (he : e.Legible clean) (i : GroupId) :
    { d with doc := d.doc.addEntry i e }.Legible clean full := by
  refine ⟨fun j e' he' => ?_, h.pending, h.listed, h.titles, h.fullname⟩
  rcases GroupStore.mem_entries_addEntry he' with he' | rfl
  · exact h.entries j e' he'
  · exact he

theorem flush (h : d.Legible clean full) : d.flush.Legible clean full := by
  rw [Draft.flush]
  split
  · exact h
  · next e he =>
      have hs := h.addEntryTo (h.pending e he).settled d.group
      exact ⟨hs.entries, (fun _ hno => by cases hno), hs.listed, hs.titles, hs.fullname⟩

theorem pend (h : d.Legible clean full) {e : Entry} (he : e.Legible clean) :
    { d with pending := some e }.Legible clean full :=
  ⟨h.entries, fun _ hp => Option.some.inj hp ▸ he, h.listed, h.titles, h.fullname⟩

theorem placeGroup (h : d.Legible clean full) (i : GroupId) :
    (d.placeGroup i).Legible clean full := by
  refine ⟨h.entries, h.pending, h.listed, fun s hs => ?_, h.fullname⟩
  rcases List.mem_append.1 hs with hs | hs
  · exact h.titles s (List.mem_append_left _ hs)
  · obtain ⟨s', hs', rfl⟩ := Option.map_eq_some_iff.1 (Option.mem_toList.1 hs)
    have htitle : (s'.place i).title = s'.title := by
      rw [Section.place]
      split <;> rfl
    rw [htitle]
    exact h.titles s' (List.mem_append_right _ (Option.mem_toList.2 hs'))

/-- With its open section among the others a document has the sections that it has with it
apart. -/
theorem mem_allSections_closed {d : Draft} {s : Section}
    (h : s ∈ Document.allSections { d.doc with sections := d.doc.sections ++ d.current.toList }) :
    s ∈ d.doc.allSections ++ d.current.toList := by
  simp only [Document.allSections, List.mem_append] at h ⊢
  rcases h with ((h | h) | h) | h
  · exact Or.inl (Or.inl (Or.inl h))
  · exact Or.inr h
  · exact Or.inl (Or.inl (Or.inr h))
  · exact Or.inl (Or.inr h)

theorem openSection (h : d.Legible clean full) {title : String} (ht : Unmarked clean title) :
    (d.openSection title).Legible clean full := by
  have hf := h.flush.freshGroup
  refine ⟨hf.entries, hf.pending, hf.listed, fun s hs => ?_, hf.fullname⟩
  rcases List.mem_append.1 hs with hs | hs
  · exact hf.titles s (mem_allSections_closed hs)
  · obtain rfl := List.mem_singleton.1 hs
    exact ht

theorem ensureSection (h : d.Legible clean full) (reason : Option Template) :
    (d.ensureSection reason).1.Legible clean full := by
  unfold Draft.ensureSection
  split
  · exact h
  · exact (h.openSection h.name).addEntryTo
      (.of_text (by rintro ⟨⟩) rfl (.of_not_mem (by decide))) _

/-! ### Text, source and spans -/

theorem appendText (h : d.Legible clean full) {text : String} {onNewLine : Bool}
    (ht : Unmarked clean text) (he : d.appendText text onNewLine = .ok e) :
    e.Legible clean full := by
  rcases appendText_cases he with ⟨-, rfl⟩ | ⟨p, p', hp, hext, rfl⟩
  · refine ⟨h.entries, fun e hp => ?_, h.listed, h.titles, h.fullname⟩
    exact Option.some.inj hp ▸ .of_text (by rintro ⟨⟩) rfl ht
  · exact h.pend ((h.pending p hp).extend ht hext)

theorem appendItem (h : d.Legible clean full) {item : ListItem}
    (hi : ∀ s ∈ item.texts, Unmarked clean s) : (d.appendItem item).Legible clean full := by
  rw [Draft.appendItem]
  split
  · next l hl =>
      refine h.pend (.of_list fun i hmem => ?_)
      rcases List.mem_append.1 hmem with hmem | hmem
      · exact (h.pending _ hl).items i hmem
      · exact List.mem_singleton.1 hmem ▸ hi
  · exact h.flush.pend (.of_list fun i hmem => List.mem_singleton.1 hmem ▸ hi)

theorem captureLine (h : d.Legible clean full) (line : String) :
    (d.captureLine line).Legible clean full := by
  rw [Draft.captureLine]
  split
  · exact h
  · exact ⟨h.entries, h.pending, h.listed, h.titles, h.fullname⟩

theorem attachCode (h : d.Legible clean full) (s : Scratch) :
    (d.attachCode s).Legible clean full := by
  rw [Draft.attachCode]
  split
  · exact h.addEntryTo (.of_silent (by rintro ⟨⟩) rfl) s.group
  · exact h

theorem splitCapture (h : d.Legible clean full) : d.splitCapture.Legible clean full := by
  rw [Draft.splitCapture]
  split
  · exact h
  · split
    · next s _ _ =>
        have hs := h.attachCode s
        exact ⟨hs.entries, hs.pending, hs.listed, hs.titles, hs.fullname⟩
    · exact h

theorem startCapture (h : d.Legible clean full) : d.startCapture.Legible clean full := by
  rw [Draft.startCapture]
  split
  · exact h
  · have hf := h.freshGroup
    exact ⟨hf.entries, hf.pending, hf.listed, hf.titles, hf.fullname⟩

theorem finishCapture (h : d.Legible clean full) : d.finishCapture.Legible clean full := by
  rw [Draft.finishCapture]
  split
  · exact h
  · next s _ =>
      have hd : { d with scratch := none }.Legible clean full :=
        ⟨h.entries, h.pending, h.listed, h.titles, h.fullname⟩
      have hs := hd.attachCode s
      simp only []
      split
      · exact hs
      · exact hs.placeGroup s.group

theorem listSpan (h : d.Legible clean full) {s : Span} (hs : (Entry.span s).Legible clean) :
    (d.listSpan s).Legible clean full := by
  obtain ⟨todos, fixmes, heq, hmem⟩ := listSpan_eq d s
  rw [heq]
  refine ⟨h.entries, h.pending, fun s' hs' => ?_, h.titles, h.fullname⟩
  rcases hmem s' hs' with hs' | rfl
  · exact h.listed s' hs'
  · exact hs

theorem addSpan (h : d.Legible clean full) (kind : SpanKind) {text : String}
    (ht : Unmarked clean text) : (d.addSpan kind text).Legible clean full := by
  have hf := h.splitCapture.flush
  have hspan {s : Span} {t : String} (hs : s.text = some t) (ht : Unmarked clean t) :
      (Entry.span s).Legible clean := .of_text (by rintro ⟨⟩) (by rw [Entry.texts, hs]; rfl) ht
  rw [Draft.addSpan]
  split
  · next captures hc => exact hf.pend (hspan rfl (ht.text hc 0))
  · exact (hf.pend (hspan rfl ht)).listSpan (hspan rfl ht)

theorem addTodo (h : d.Legible clean full) {text : String} (ht : Unmarked clean text) :
    (d.addTodo text).Legible clean full :=
  (h.addSpan .todo ht).flush

theorem addKeyword (h : d.Legible clean full) {whole keyword text : String}
    (hw : Unmarked clean whole) (ht : Unmarked clean text)
    (he : d.addKeyword whole keyword text = .ok e) : e.Legible clean full := by
  rw [Draft.addKeyword] at he
  split at he
  · exact Except.ok.inj he ▸ h.addSpan _ ht
  · exact h.appendText hw he

/-! ### Headings, tables and declarations -/

theorem addPlaced (h : d.Legible clean full) {e : Entry} (he : e.Legible clean) :
    (d.flush.addEntry e).place.Legible clean full :=
  (h.flush.addEntryTo he d.flush.group).placeGroup _

theorem addHeading (h : d.Legible clean full) {text : String} (ht : Unmarked clean text)
    (level : HeadingLevel) : (d.addHeading text level).Legible clean full :=
  h.addPlaced (.of_text (by rintro ⟨⟩) rfl ht)

theorem openTable (h : d.Legible clean full) {key : String} (hk : Unmarked clean key)
    (lead : Option String) : (d.openTable key lead).Legible clean full := by
  have hkey : Unmarked clean (stripDeclaration key) := by
    unfold stripDeclaration
    split
    · next captures hc => exact hk.trim.text hc 0
    · exact hk.trim
  have hedge : (Entry.edge { name := stripDeclaration key, lead }).Legible clean :=
    .of_text (by rintro ⟨⟩) rfl hkey
  refine (addPlaced ?_ hedge).freshGroup
  exact ⟨h.entries, h.pending, h.listed, h.titles, h.fullname⟩

theorem closeTable (h : d.Legible clean full) : d.closeTable.Legible clean full := by
  have he : d.addTableEnd.Legible clean full :=
    h.addPlaced (.of_text (by rintro ⟨⟩) rfl (.of_not_mem (by decide)))
  exact ⟨he.entries, he.pending, he.listed, he.titles, he.fullname⟩

theorem discardNodoc? (h : d.Legible clean full) (he : d.discardNodoc? = some e) :
    e.Legible clean full := by
  rw [Draft.discardNodoc?] at he
  split at he
  · cases he
    exact ⟨h.entries, (fun _ hno => by cases hno), h.listed, h.titles, h.fullname⟩
  · split at he
    · cases he
      have hu :
          (d.updateGroup fun g => { g with entries := g.entries.dropLast }).Legible clean full :=
        h.updateGroup fun g => List.dropLast_subset _
      exact ⟨hu.entries, (fun _ hno => by cases hno), hu.listed, hu.titles, hu.fullname⟩
    · cases he

theorem placeAs (h : d.Legible clean full) {f : Group → Group}
    (hf : ∀ g, (f g).entries ⊆ g.entries) :
    { (d.updateGroup f).place with
      functionGroup := some (d.updateGroup f).group }.Legible clean full := by
  have hp := (h.updateGroup hf).placeGroup d.group
  exact ⟨hp.entries, hp.pending, hp.listed, hp.titles, hp.fullname⟩

theorem declareFunction (h : d.Legible clean full) (binding : Binding) (name : String)
    (params : Option String) : (d.declareFunction binding name params).Legible clean full := by
  rw [Draft.declareFunction]
  split
  · next hd => exact h.discardNodoc? hd
  · exact h.placeAs fun _ => List.Subset.refl _

theorem declareConstant (h : d.Legible clean full) (name : String) :
    (d.declareConstant name).Legible clean full := by
  rw [Draft.declareConstant]
  split
  · next hd => exact h.discardNodoc? hd
  · exact h.placeAs fun _ => List.Subset.refl _

theorem declareParam (h : d.Legible clean full) {key : String} {definition : Option String}
    {kind : ParamKind} (he : d.declareParam key definition kind = .ok e) :
    e.Legible clean full := by
  rcases declareParam_cases he with hd | ⟨-, f, hf, rfl⟩
  · exact h.discardNodoc? hd
  · obtain ⟨params, libParams, rfl⟩ := register_cases hf
    have hu : (d.updateGroup fun g =>
        { g with param := some key, paramKind := some kind, params := definition }).Legible
          clean full :=
      h.updateGroup fun _ => List.Subset.refl _
    refine (Legible.placeGroup ?_ _).freshGroup
    exact ⟨hu.entries, hu.pending, hu.listed, hu.titles, hu.fullname⟩

theorem flagUndocumented (h : d.Legible clean full) : d.flagUndocumented.Legible clean full := by
  rw [Draft.flagUndocumented]
  split
  · exact h.freshGroup
  · exact h.freshGroup.addTodo (.of_not_mem (by decide))

theorem applyDirective (h : d.Legible clean full) {option : String} {enabled : Bool}
    {line : Option Int} (he : d.applyDirective option enabled line = .ok e) :
    e.Legible clean full := by
  rw [Draft.applyDirective] at he
  split at he
  · split at he
    · split at he <;> cases he
      · have hd : { d with doc := { d.doc with literate := enabled } }.Legible clean full :=
          ⟨h.entries, h.pending, h.listed, h.titles, h.fullname⟩
        rw [setLiterate]
        split
        · exact hd.startCapture
        · exact hd.finishCapture
      · rw [setLoose]
        split
        · refine Legible.addTodo ?_ (.of_not_mem (by decide))
          exact ⟨h.entries, h.pending, h.listed, h.titles, h.fullname⟩
        · exact ⟨h.entries, h.pending, h.listed, h.titles, h.fullname⟩
    · cases he
  · cases he

end Legible

end Draft

/-! ## Actions -/

namespace Action

open Draft

variable {full : String} {d e : Draft}

theorem legible_openPreamble (h : d.Legible clean full) {title : String}
    (ht : Unmarked clean title) :
    (openPreamble d title).Legible clean full := by
  have ho := h.openSection ht
  exact ⟨ho.entries, ho.pending, ho.listed, ho.titles, ho.fullname⟩

theorem legible_freshIf (h : d.Legible clean full) (p : Prop) [Decidable p] :
    (if p then d.freshGroup else d).Legible clean full := by
  split
  · exact h.freshGroup
  · exact h

theorem legible_entryGroup (h : d.Legible clean full) : (entryGroup d).Legible clean full := by
  rw [entryGroup]
  split
  · exact h
  · exact h.freshGroup

theorem legible_splitFromSection (h : d.Legible clean full) :
    (splitFromSection d).Legible clean full := by
  rw [splitFromSection]
  split
  · exact h.flagUndocumented
  · exact h

theorem legible_addTrailing (h : d.Legible clean full) {text : String} (ht : Unmarked clean text)
    (he : addTrailing d text = .ok e) : e.Legible clean full := by
  rw [addTrailing] at he
  split at he
  · exact Except.ok.inj he ▸ h
  · exact h.appendText ht.trim he

theorem legible_addFormula (h : d.Legible clean full) {formula trailing : String}
    (ht : Unmarked clean trailing) (he : addFormula d formula trailing = .ok e) :
    e.Legible clean full := by
  rw [addFormula] at he
  refine legible_addTrailing ?_ ht he
  split
  · exact h
  · exact (h.flush.pend (.of_silent (by rintro ⟨⟩) rfl)).flush

theorem legible_closeFormula (h : d.Legible clean full) {formula trailing : String}
    (hf : Unmarked clean formula) (ht : Unmarked clean trailing)
    (he : closeFormula d formula trailing = .ok e) : e.Legible clean full := by
  rw [closeFormula] at he
  split at he
  · exact legible_addTrailing h.flush ht he
  · obtain ⟨d', hd', he⟩ := ok_of_bind he
    exact legible_addTrailing (h.appendText hf.trim hd').flush ht he

theorem legible_declareLibParam (h : d.Legible clean full) {key value : String}
    (he : declareLibParam d key value = .ok e) : e.Legible clean full := by
  rw [declareLibParam] at he
  simp only [] at he
  split at he
  · exact Except.ok.inj he ▸ h
  · split at he
    · exact h.flagUndocumented.declareParam he
    · exact h.declareParam he

theorem legible_captureOr (h : d.Legible clean full) {line : String}
    {declare : Draft → Except Fault Draft}
    (hd : ∀ d : Draft, d.Legible clean full → declare d = .ok e → e.Legible clean full)
    (he : captureOr d line declare = .ok e) : e.Legible clean full := by
  rcases captureOr_cases he with rfl | ⟨-, he⟩
  · exact h.captureLine line
  · exact hd _ h.flagUndocumented he

theorem legible_apply {a : Action} {line : Nat} {c : Captures}
    (hc : ∀ i, Unmarked clean (c.text i)) (h : d.Legible clean full)
    (he : a.apply line c d = .ok e) : e.Legible clean full := by
  cases a with
  | missingTitle | untitledPreamble | documentedLibParam | undocumentedParam =>
      exact Except.ok.inj he ▸ h
  | preambleSection => exact Except.ok.inj he ▸ legible_openPreamble h (hc 0)
  | flush => exact Except.ok.inj he ▸ h.flush
  | closeComment =>
      have hf := h.flush
      exact Except.ok.inj he ▸ ⟨hf.entries, hf.pending, hf.listed, hf.titles, hf.fullname⟩
  | newSection => exact Except.ok.inj he ▸ h.openSection (hc 0)
  | newTitle => exact Except.ok.inj he ▸ h.addHeading (hc 0) _
  | declareFunction => exact Except.ok.inj he ▸ h.declareFunction _ _ _
  | declareConstant => exact Except.ok.inj he ▸ h.declareConstant _
  | todoFixme => exact h.addKeyword (hc 0) (hc 2) he
  | append | appendLine => exact h.appendText (hc 0) he
  | appendBlankLine => exact h.appendText (.of_not_mem (by decide)) he
  | bullet =>
      exact Except.ok.inj he ▸ h.appendItem (ListItem.texts_marked (hc 1) fun _ ht => by cases ht)
  | definition =>
      exact Except.ok.inj he ▸
        h.appendItem (ListItem.texts_marked (hc 1) fun _ ht => Option.some.inj ht ▸ hc 2)
  | startCode | mathOpen => exact Except.ok.inj he ▸ h.flush.pend (.of_silent (by rintro ⟨⟩) rfl)
  | mathInline => exact legible_addFormula h (hc 1) he
  | mathClose => exact legible_closeFormula h (hc 0) (hc 1) he
  | documentedFunction | documentedGlobalFunction =>
      exact Except.ok.inj he ▸ (legible_splitFromSection h).declareFunction _ _ _
  | undocumentedFunction =>
      exact legible_captureOr h (fun d hd he => Except.ok.inj he ▸ hd.declareFunction _ _ _) he
  | endOfFunction =>
      refine Except.ok.inj he ▸ Draft.Legible.captureLine ?_ _
      exact ⟨h.entries, h.pending, h.listed, h.titles, h.fullname⟩
  | enableOption | disableOption => exact h.applyDirective he
  | openTable =>
      exact Except.ok.inj he ▸ (legible_freshIf h.finishCapture _).openTable (hc 0) _
  | sourceTodo =>
      obtain ⟨d', hd', he⟩ := ok_of_bind he
      exact Except.ok.inj he ▸ (h.addKeyword (hc 0) (hc 2) hd').flush
  | startComment => exact Except.ok.inj he ▸ h.freshGroup
  | sourceLine => exact Except.ok.inj he ▸ h.captureLine _
  | paramsTitle =>
      refine Except.ok.inj he ▸ Draft.Legible.addHeading ?_ (hc 0) _
      split
      · exact h.flush
      · exact h.flush.freshGroup
  | paramsComment =>
      have hg := legible_entryGroup h
      exact Except.ok.inj he ▸ ⟨hg.entries, hg.pending, hg.listed, hg.titles, hg.fullname⟩
  | paramsBlockComment =>
      obtain ⟨d', hd', he⟩ := ok_of_bind he
      have ht := legible_addTrailing (legible_entryGroup h) (hc 0) hd'
      exact Except.ok.inj he ▸ ⟨ht.entries, ht.pending, ht.listed, ht.titles, ht.fullname⟩
  | paramsInlineComment =>
      obtain ⟨d', hd', he⟩ := ok_of_bind he
      exact Except.ok.inj he ▸ ((legible_entryGroup h).appendText (hc 0).trim hd').flush
  | tableParam | listParam => exact h.flush.declareParam he
  | sameLineParam =>
      obtain ⟨d', hd', he⟩ := ok_of_bind he
      exact (h.flush.freshGroup.appendText (hc 1).trim hd').flush.declareParam he
  | closeTable => exact Except.ok.inj he ▸ h.closeTable
  | paramsOther => exact Except.ok.inj he ▸ h.flush.freshGroup

theorem legible_run {a : Action} {line : Nat} {c : Captures} {x : Effect}
    (hc : ∀ i, Unmarked clean (c.text i)) (h : d.Legible clean full) (hx : a.run line c d = .ok x) :
    x.draft.Legible clean full := by
  obtain ⟨e, next, log⟩ := x
  cases leads_of_run hx with
  | applied _ he => exact legible_apply hc h he
  | warned reason => exact h.ensureSection reason
  | untitled => exact legible_openPreamble h h.name
  | documentedTable => exact (legible_freshIf h _).openTable (hc 0) _
  | documentedParam he => exact legible_declareLibParam h he
  | undocumentedTable => exact h.finishCapture.freshGroup.openTable (hc 1) _
  | undocumentedParam he => exact legible_captureOr h (fun d hd he => hd.declareParam he) he

end Action

/-! ## Sources -/

theorem legible_hooked {full : String} {d : Draft} (h : d.Legible clean full) (hook : Option Hook) :
    (hooked hook d).Legible clean full := by
  cases hook with
  | none => exact h
  | some hook =>
      cases hook with
      | startEof | preambleEof => exact h.ensureSection _
      | flush => exact h.flush
      | sourceExit => exact h.finishCapture
      | sourceEnter =>
          show (Hook.enterSource d).Legible clean full
          rw [Hook.enterSource]
          split
          · refine Draft.Legible.startCapture ?_
            split
            · exact h
            · exact h.placeGroup _
          · exact h

namespace Reading

variable {full : String} {r : Reader} {line : String} {g g' : Reading}

theorem legible_evaluate (hl : Unmarked clean line) (hg : g.draft.Legible clean full) {again : Bool}
    (h : r.evaluate line g = .ok (g', again)) : g'.draft.Legible clean full := by
  rcases evaluate_cases h with ⟨-, -, hlike⟩ | ⟨m, e, hm, ha, hcases⟩
  · exact hlike.draft ▸ hg
  · have he : e.draft.Legible clean full := by
      rw [act] at ha
      split at ha
      · exact Except.ok.inj ha ▸ hg
      · exact Action.legible_run (fun i => hl.text (State.matchLine_read hm) i) hg ha
    rcases hcases with ⟨-, -, hlike⟩ | ⟨target, s, -, -, hlike⟩
    · exact hlike.draft ▸ he
    · rw [hlike.draft]
      exact legible_hooked (legible_hooked he _) _

theorem legible_feedAll {lines : List String} (hl : ∀ line ∈ lines, Unmarked clean line)
    (hg : g.draft.Legible clean full) (h : r.feedAll g lines = .ok g') :
    g'.draft.Legible clean full := by
  induction lines generalizing g with
  | nil =>
      cases h
      exact hg
  | cons line lines ih =>
      rw [feedAll_cons] at h
      obtain ⟨g₁, hf, h⟩ := ok_of_bind h
      have hline : Unmarked clean (dropLineEnd line) :=
        (hl line List.mem_cons_self).subset (dropLineEnd_prefix_self line).subset
      have hg₁ : g₁.draft.Legible clean full :=
        @evaluateAll_keeps r _ (fun g => g.draft.Legible clean full)
          (fun hg he => legible_evaluate hline hg he) _ { g with line := g.line + 1 } _ hg hf
      exact ih (fun l hmem => hl l (List.mem_cons_of_mem _ hmem)) hg₁ h

end Reading

/-- A document that can be shown. -/
structure Document.Legible (clean : Prop) (doc : Document) : Prop where
  entries : ∀ i, ∀ e ∈ (doc.store.get i).entries, e.Legible clean
  titles : ∀ s ∈ doc.allSections, Unmarked clean s.title

theorem Document.mem_withTodos {doc : Document} {spans : List Span} {s : Section}
    (h : s ∈ (doc.withTodos spans).allSections) :
    s ∈ doc.allSections ∨ ∃ i, s = listing .todo i := by
  rw [withTodos] at h
  split at h
  · exact Or.inl h
  · simp only [allSections, List.mem_append] at h ⊢
    rcases h with (h | h) | h
    · exact Or.inl (Or.inl (Or.inl h))
    · exact Or.inr ⟨_, (Option.some.inj (Option.mem_toList.1 h)).symm⟩
    · exact Or.inl (Or.inr h)

theorem Document.mem_withFixmes {doc : Document} {spans : List Span} {s : Section}
    (h : s ∈ (doc.withFixmes spans).allSections) :
    s ∈ doc.allSections ∨ ∃ i, s = listing .fixme i := by
  rw [withFixmes] at h
  split at h
  · exact Or.inl h
  · simp only [allSections, List.mem_append] at h ⊢
    rcases h with h | h
    · exact Or.inl (Or.inl h)
    · exact Or.inr ⟨_, (Option.some.inj (Option.mem_toList.1 h)).symm⟩

theorem Draft.Legible.document {full : String} {d : Draft} (h : d.Legible clean full) :
    d.document.Legible clean := by
  refine ⟨Draft.entries_document h.entries h.listed, fun s hs => ?_⟩
  rcases Document.mem_withFixmes hs with hs | ⟨i, rfl⟩
  · rcases Document.mem_withTodos hs with hs | ⟨i, rfl⟩
    · exact h.titles s (mem_allSections_closed hs)
    · exact .of_not_mem (by decide : '\x00' ∉ SpanKind.todo.name.toList)
  · exact .of_not_mem (by decide : '\x00' ∉ SpanKind.fixme.name.toList)

theorem firstDraft_legible {settings : Settings} {name full : String} {q : Request}
    (hfull : (Document.new name q.parent q.fullname).fullname = full)
    (hclean : Unmarked clean full) :
    (firstDraft settings name q).Legible clean full where
  entries := by
    intro i e he
    have he : e ∈ ((GroupStore.insert {} {}).get i).entries := he
    rw [GroupStore.get_insert_empty] at he
    cases he
  pending := fun _ hp => by cases hp
  listed := fun _ hs => by cases hs
  titles := fun _ hs => by cases hs
  fullname := ⟨hfull, hclean⟩

theorem Draft.document_fullname (d : Draft) : d.document.fullname = d.doc.fullname := by
  rw [document]
  simp only [Document.withFixmes, Document.withTodos]
  split <;> split <;> rfl

/-- A document can be shown if neither the lines of its source nor its full name have a
NUL character, and it has no blank entries in any case. -/
theorem legible_parsed {settings : Settings} {q : Request} {lines : List String} {doc : Document}
    {log : Log} (h : parseLines settings q lines = .ok (doc, log)) :
    doc.Legible ('\x00' ∉ doc.fullname.toList ∧ ∀ line ∈ lines, '\x00' ∉ line.toList) := by
  obtain ⟨g, hg, rfl⟩ := exists_reading h
  cases hq : q.named with
  | error f =>
      rw [readingAfter, hq] at hg
      cases hg
  | ok named =>
      obtain ⟨g₀, -, -, hd, hreads⟩ := readingAfter_eq settings hq
      have hread := (hreads settings.maxReplay settings.trace lines).symm.trans hg
      -- the full name is told by the invariant itself, and only then is it known what is clean
      have hlegible {clean : Prop} {full : String} (hl : ∀ line ∈ lines, Unmarked clean line)
          (hfull : (firstDraft settings named.1 named.2).doc.fullname = full)
          (hclean : Unmarked clean full) :
          (finishReading g).1.Legible clean ∧ (finishReading g).1.fullname = full := by
        have hfirst : (firstDraft settings named.1 named.2).Legible clean full :=
          firstDraft_legible hfull hclean
        have hlast := Reading.legible_feedAll hl (hd ▸ hfirst) hread
        have hfinish : (Reader.finish g).draft.Legible clean full := by
          rw [finish_draft]
          exact legible_hooked (legible_hooked hlast _) _
        have hdraft := (hfinish.ensureSection
          (some { before := "No documentation found in '", after := "'." })).freshGroup
        have hdoc : (finishReading g).1 = _ := Draft.finish_document_eq (Reader.finish g).draft
        rw [hdoc]
        exact ⟨hdraft.document, (Draft.document_fullname _).trans hdraft.fullname.1⟩
      have hname := (@hlegible False _ (fun _ _ hf => hf.elim) rfl fun hf => hf.elim).2
      exact (hlegible (fun line hmem hc => hc.2 line hmem) hname.symm fun hc => hc.1).1

end DocComment
