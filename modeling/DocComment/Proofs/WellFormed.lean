import DocComment.Proofs.Placement
import DocComment.Proofs.ReadingCalls
import DocComment.Proofs.Totality

/-!
# What a document looks like

`Document.WellFormed` is what can be relied on in a document, whichever source it was made
from: how its sections are named, that no section is empty, and what each kind of entry
holds. It is an invariant of drafts (`Draft.Sound`) that every call keeps, so nothing is
said about states or lines.

An entry is sound when it is settled, and while it is pending it only grows towards that
(`Entry.Growing`): a list has a pending item, so it will not be empty, and code may still
end in line feeds, which are dropped when it is settled. Whether prose may hold line feeds
depends on the source, and `clean` says that it does not.

At the end of a source nothing is left over: what is pending was flushed by the state that
the source ended in, and what was captured is in its group
(`Reading.Coherent.finish_settled`).
-/

namespace DocComment

open Text Relation Reader

/-! ## Stores -/

namespace GroupStore

theorem get_update_cases (s : GroupStore) (i j : GroupId) (f : Group → Group) :
    (s.update i f).get j = s.get j ∨ j = i ∧ (s.update i f).get j = f (s.get j) := by
  by_cases hj : j = i
  · subst hj
    by_cases hh : s.Holds j
    · exact Or.inr ⟨rfl, get_update_self hh f⟩
    · left
      simp only [Holds, Nat.not_lt] at hh
      simp [get, update, hh]
  · exact Or.inl (get_update_of_ne hj f)

theorem get_insert_cases (s : GroupStore) (i : GroupId) (g : Group) :
    (s.insert g).get i = s.get i ∨ (s.insert g).get i = g := by
  by_cases hh : s.Holds i
  · exact Or.inl (get_insert_of_holds hh g)
  · by_cases hi : i = s.nextId
    · subst hi
      exact Or.inr (get_insert_nextId s g)
    · left
      have hno : ¬ (s.insert g).Holds i := fun h => (holds_insert.1 h).elim hh hi
      simp only [Holds, Nat.not_lt] at hh hno
      simp [get, hh, hno]

/-- An entry of a group that an entry was added to is that one or was there already. -/
theorem mem_entries_addEntry {s : GroupStore} {i j : GroupId} {e x : Entry}
    (h : x ∈ ((s.update i fun g => { g with entries := g.entries ++ [e] }).get j).entries) :
    x ∈ (s.get j).entries ∨ x = e := by
  rcases s.get_update_cases i j fun g => { g with entries := g.entries ++ [e] } with hj | ⟨-, hj⟩
  · exact Or.inl (hj ▸ h)
  · have hmem : x ∈ (s.get j).entries ++ [e] := by
      rw [hj] at h
      exact h
    exact (List.mem_append.1 hmem).imp_right List.mem_singleton.1

/-- A new group without content changes nothing that the store shows. -/
@[simp] theorem get_insert_empty (s : GroupStore) (i : GroupId) :
    (s.insert {}).get i = s.get i := by
  rcases s.get_insert_cases i {} with h | h
  · exact h
  · by_cases hh : s.Holds i
    · exact get_insert_of_holds hh {}
    · simp only [Holds, Nat.not_lt] at hh
      rw [h]
      simp [get, hh]

end GroupStore

/-! ## Entries -/

namespace Entry

/-- An entry as a document holds it. The prose of a clean source has no line feeds. -/
def Sound (clean : Prop) : Entry → Prop
  | paragraph p => clean → ∀ t ∈ p.text, '\n' ∉ t.toList
  | heading h => clean → '\n' ∉ h.text.toList
  | span s =>
    s.kind.name ∈ ["TODO", "FIXME", "WARN", "NOTE"] ∧ (clean → ∀ t ∈ s.text, '\n' ∉ t.toList)
  | list l =>
    l.pending = none ∧ l.items ≠ [] ∧ (clean → ∀ i ∈ l.items, '\n' ∉ i.text.toList)
  | code c => ∀ t ∈ c.text, t.toList.getLast? ≠ some '\n'
  | edge _ | formula _ | blank => True

/-- An entry that is still being written. -/
def Growing (clean : Prop) : Entry → Prop
  | list l => l.pending.isSome ∧ (clean → ∀ i ∈ l.allItems, '\n' ∉ i.text.toList)
  | code _ => True
  | e => e.Sound clean

variable {clean : Prop} {e e' : Entry}

theorem sound_span {s : Span} (h : clean → ∀ t ∈ s.text, '\n' ∉ t.toList) :
    (span s).Sound clean := by
  refine ⟨?_, h⟩
  cases s.kind <;> decide

theorem Growing.settled (h : e.Growing clean) : e.settled.Sound clean := by
  cases e with
  | paragraph | heading | edge | formula | span | blank => exact h
  | code c =>
      intro t ht hlast
      obtain ⟨t', -, rfl⟩ := Option.map_eq_some_iff.1 ht
      rw [dropFinalNewlines, toList_onChars] at hlast
      have hno := getLast?_dropEndWhile hlast
      simp at hno
  | list l =>
      obtain ⟨hp, ht⟩ := h
      refine ⟨rfl, ?_, ht⟩
      obtain ⟨i, hi⟩ := Option.isSome_iff_exists.1 hp
      show l.items ++ l.pending.toList ≠ []
      rw [hi]
      simp

end Entry

theorem not_mem_joinText {current : Option String} {text : String}
    (hc : ∀ t ∈ current, '\n' ∉ t.toList) (ht : '\n' ∉ text.toList) :
    '\n' ∉ (joinText current text false).toList := by
  unfold joinText
  rw [if_neg Bool.false_ne_true]
  split
  · exact ht
  · next t hf =>
      have hmem : t ∈ current := (Option.filter_eq_some_iff.1 hf).1
      rw [String.toList_append, String.toList_append]
      simp [hc t hmem, ht]

theorem Entry.Growing.extend {clean : Prop} {e e' : Entry} (h : e.Growing clean) {text : String}
    {onNewLine : Bool} (ht : clean → '\n' ∉ text.toList)
    (hn : clean → onNewLine → e.takesLines) (he : e.extend text onNewLine = .ok e') :
    e'.Growing clean := by
  have hspace (hc : clean) (hno : e.takesLines = false) : onNewLine = false := by
    cases onNewLine with
    | false => rfl
    | true => exact absurd (hn hc rfl) (by simp [hno])
  cases e with
  | heading | edge | blank => cases he
  | formula | code => exact Except.ok.inj he ▸ trivial
  | paragraph p =>
      cases he
      intro hc t hmem
      cases hmem
      rw [hspace hc rfl]
      exact not_mem_joinText (h hc) (ht hc)
  | span s =>
      cases he
      refine sound_span fun hc t hmem => ?_
      cases hmem
      rw [hspace hc rfl]
      exact not_mem_joinText (h.2 hc) (ht hc)
  | list l =>
      cases he
      obtain ⟨hp, hitems⟩ := h
      obtain ⟨i, hi⟩ := Option.isSome_iff_exists.1 hp
      simp only [ListBlock.extend, hi]
      refine ⟨rfl, fun hc j hj => ?_⟩
      rcases List.mem_append.1 hj with hj | hj
      · exact hitems hc j (List.mem_append_left _ hj)
      · obtain rfl := List.mem_singleton.1 hj
        rw [hspace hc rfl]
        refine not_mem_joinText ?_ (ht hc)
        intro t hmem
        cases hmem
        exact hitems hc i (List.mem_append_right _ (by simp [hi]))

theorem ListItem.marked_text {marker text : String} {definition : Option String}
    (ht : '\n' ∉ text.toList) (hd : ∀ t ∈ definition, '\n' ∉ t.toList) :
    '\n' ∉ (marked marker text definition).text.toList := by
  unfold marked
  split
  · split
    · exact hd _ rfl
    · exact ht
  · exact ht

/-! ## Drafts -/

/-- Sections as a document has them: the first is called by the given name and every other
by its title, and each has a group. -/
structure Section.Named (name : String) (sections : List Section) : Prop where
  first : ∀ s ∈ sections.head?, s.name = name
  others : ∀ s ∈ sections.tail, s.name = anchorOfTitle s.title
  grouped : ∀ s ∈ sections, s.groups ≠ []

theorem Section.Named.concat {name : String} {sections : List Section}
    (h : Section.Named name sections) {s : Section}
    (hn : s.name = if sections.isEmpty then name else anchorOfTitle s.title)
    (hg : s.groups ≠ []) : Section.Named name (sections ++ [s]) := by
  cases sections with
  | nil =>
      refine ⟨?_, by simp, by simpa using hg⟩
      rintro _ ⟨⟩
      exact hn
  | cons s₀ sections =>
      refine ⟨h.first, fun t ht => ?_, fun t ht => ?_⟩
      · rcases List.mem_append.1 ht with ht | ht
        · exact h.others t ht
        · obtain rfl := List.mem_singleton.1 ht
          exact hn
      · rcases List.mem_append.1 ht with ht | ht
        · exact h.grouped t ht
        · obtain rfl := List.mem_singleton.1 ht
          exact hg

theorem Section.Named.place {name : String} {sections : List Section} {current : Option Section}
    (h : Section.Named name (sections ++ current.toList)) (i : GroupId) :
    Section.Named name (sections ++ (current.map (·.place i)).toList) := by
  cases current with
  | none => exact h
  | some s =>
      obtain ⟨groups, hp, hg⟩ : ∃ groups, s.place i = { s with groups } ∧ groups ≠ [] := by
        rw [Section.place]
        split
        · exact ⟨s.groups, rfl, h.grouped s (by simp)⟩
        · exact ⟨_, rfl, by simp⟩
      show Section.Named name (sections ++ [s.place i])
      rw [hp]
      cases sections with
      | nil => exact ⟨fun _ ht => by cases ht; exact h.first s rfl, by simp, by simpa using hg⟩
      | cons s₀ sections =>
          refine ⟨h.first, fun t ht => ?_, fun t ht => ?_⟩
          · rcases List.mem_append.1 ht with ht | ht
            · exact h.others t (List.mem_append_left _ ht)
            · obtain rfl := List.mem_singleton.1 ht
              exact h.others s (by simp)
          · rcases List.mem_append.1 ht with ht | ht
            · exact h.grouped t (List.mem_append_left _ ht)
            · obtain rfl := List.mem_singleton.1 ht
              exact hg

namespace Draft

/-- A draft of a document that is well formed. -/
structure Sound (clean : Prop) (d : Draft) : Prop where
  entries : ∀ i, ∀ e ∈ (d.doc.store.get i).entries, e.Sound clean
  pending : ∀ e ∈ d.pending, e.Growing clean
  listed : ∀ s ∈ d.todos ++ d.fixmes, (Entry.span s).Sound clean
  named : Section.Named d.doc.name (d.doc.sections ++ d.current.toList)

variable {clean : Prop} {d e : Draft}

theorem Sound.freshGroup (h : d.Sound clean) : d.freshGroup.Sound clean := by
  refine ⟨fun i => ?_, h.pending, h.listed, h.named⟩
  show ∀ e ∈ ((d.doc.store.insert {}).get i).entries, _
  rw [GroupStore.get_insert_empty]
  exact h.entries i

/-- Changes of a group that give it no entries keep its entries sound. -/
theorem Sound.updateGroup (h : d.Sound clean) {f : Group → Group}
    (hf : ∀ g, (f g).entries ⊆ g.entries) : (d.updateGroup f).Sound clean := by
  refine ⟨fun i e he => ?_, h.pending, h.listed, h.named⟩
  rcases d.doc.store.get_update_cases d.group i f with hi | ⟨-, hi⟩
  · exact h.entries i e (hi ▸ he)
  · exact h.entries i e (hf _ (hi ▸ he))

theorem Sound.addEntryTo (h : d.Sound clean) {e : Entry} (he : e.Sound clean) (i : GroupId) :
    { d with doc := d.doc.addEntry i e }.Sound clean := by
  refine ⟨fun j e' he' => ?_, h.pending, h.listed, h.named⟩
  rcases GroupStore.mem_entries_addEntry he' with he' | rfl
  · exact h.entries j e' he'
  · exact he

theorem Sound.flush (h : d.Sound clean) : d.flush.Sound clean := by
  rw [Draft.flush]
  split
  · exact h
  · next e he =>
      have hs := h.addEntryTo (h.pending e he).settled d.group
      exact ⟨hs.entries, (fun _ hno => by cases hno), hs.listed, hs.named⟩

theorem Sound.pend (h : d.Sound clean) {e : Entry} (he : e.Growing clean) :
    { d with pending := some e }.Sound clean :=
  ⟨h.entries, fun _ hp => Option.some.inj hp ▸ he, h.listed, h.named⟩

theorem Sound.placeGroup (h : d.Sound clean) (i : GroupId) : (d.placeGroup i).Sound clean :=
  ⟨h.entries, h.pending, h.listed, h.named.place i⟩

theorem Sound.openSection (h : d.Sound clean) (title : String) :
    (d.openSection title).Sound clean := by
  have hf := h.flush.freshGroup
  refine ⟨hf.entries, hf.pending, hf.listed, ?_⟩
  refine Section.Named.concat hf.named ?_ (by simp)
  show (if d.flush.freshGroup.hasSection then _ else _) = _
  have hs : (d.flush.freshGroup.doc.sections ++ d.flush.freshGroup.current.toList).isEmpty =
      !d.flush.freshGroup.hasSection := by
    rw [hasSection]
    cases d.flush.freshGroup.current <;> simp
  rw [hs]
  cases d.flush.freshGroup.hasSection <;> rfl

theorem Sound.ensureSection (h : d.Sound clean) (reason : Option Template) :
    (d.ensureSection reason).1.Sound clean := by
  unfold Draft.ensureSection
  split
  · exact h
  · refine (h.openSection _).addEntryTo ?_ _
    intro _ t ht
    cases ht
    decide

theorem Sound.appendText (h : d.Sound clean) {text : String} {onNewLine : Bool}
    (ht : clean → '\n' ∉ text.toList)
    (hn : clean → onNewLine → d.pending.any Entry.takesLines)
    (he : d.appendText text onNewLine = .ok e) : e.Sound clean := by
  rcases appendText_cases he with ⟨-, rfl⟩ | ⟨p, p', hp, hext, rfl⟩
  · refine ⟨h.entries, fun e hp => ?_, h.listed, h.named⟩
    cases hp
    intro hc t hmem
    cases hmem
    exact ht hc
  · refine h.pend ((h.pending p hp).extend ht (fun hc hl => ?_) hext)
    have hlines := hn hc hl
    rwa [hp] at hlines

theorem Sound.appendItem (h : d.Sound clean) {item : ListItem}
    (ht : clean → '\n' ∉ item.text.toList) : (d.appendItem item).Sound clean := by
  rw [Draft.appendItem]
  split
  · next l hl =>
      obtain ⟨-, hitems⟩ := h.pending _ hl
      refine h.pend ⟨rfl, fun hc i hi => ?_⟩
      rcases List.mem_append.1 hi with hi | hi
      · exact hitems hc i hi
      · exact List.mem_singleton.1 hi ▸ ht hc
  · refine h.flush.pend ⟨rfl, fun hc i hi => ?_⟩
    exact List.mem_singleton.1 hi ▸ ht hc

theorem Sound.captureLine (h : d.Sound clean) (line : String) :
    (d.captureLine line).Sound clean := by
  rw [Draft.captureLine]
  split
  · exact h
  · exact ⟨h.entries, h.pending, h.listed, h.named⟩

theorem Sound.attachCode (h : d.Sound clean) (s : Scratch) : (d.attachCode s).Sound clean := by
  rw [Draft.attachCode]
  split
  · exact h.addEntryTo (Entry.Growing.settled (e := .code s.code) trivial) s.group
  · exact h

theorem Sound.splitCapture (h : d.Sound clean) : d.splitCapture.Sound clean := by
  rw [Draft.splitCapture]
  split
  · exact h
  · split
    · next s _ _ =>
        have hs := h.attachCode s
        exact ⟨hs.entries, hs.pending, hs.listed, hs.named⟩
    · exact h

theorem Sound.startCapture (h : d.Sound clean) : d.startCapture.Sound clean := by
  rw [Draft.startCapture]
  split
  · exact h
  · have hf := h.freshGroup
    exact ⟨hf.entries, hf.pending, hf.listed, hf.named⟩

theorem Sound.finishCapture (h : d.Sound clean) : d.finishCapture.Sound clean := by
  rw [Draft.finishCapture]
  split
  · exact h
  · next s _ =>
      have hd : { d with scratch := none }.Sound clean :=
        ⟨h.entries, h.pending, h.listed, h.named⟩
      have hs := hd.attachCode s
      simp only []
      split
      · exact hs
      · exact hs.placeGroup s.group

/-! ## Spans and declarations -/

/-- Listing a span changes nothing but the lists, and puts nothing else there. -/
theorem listSpan_eq (d : Draft) (s : Span) :
    ∃ todos fixmes, d.listSpan s = { d with todos, fixmes } ∧
      ∀ s' ∈ todos ++ fixmes, s' ∈ d.todos ++ d.fixmes ∨ s' = s := by
  rw [listSpan]
  split
  · refine ⟨_, _, rfl, fun s' hs' => ?_⟩
    simp only [List.mem_append, List.mem_singleton] at hs' ⊢
    rcases hs' with (hs' | hs') | hs'
    · exact Or.inl (Or.inl hs')
    · exact Or.inr hs'
    · exact Or.inl (Or.inr hs')
  · refine ⟨_, _, rfl, fun s' hs' => ?_⟩
    simp only [List.mem_append, List.mem_singleton] at hs' ⊢
    rcases hs' with hs' | hs' | hs'
    · exact Or.inl (Or.inl hs')
    · exact Or.inl (Or.inr hs')
    · exact Or.inr hs'
  · exact ⟨_, _, rfl, fun _ => Or.inl⟩
  · exact ⟨_, _, rfl, fun _ => Or.inl⟩

theorem Sound.listSpan (h : d.Sound clean) {s : Span} (hs : (Entry.span s).Sound clean) :
    (d.listSpan s).Sound clean := by
  obtain ⟨todos, fixmes, heq, hmem⟩ := listSpan_eq d s
  rw [heq]
  refine ⟨h.entries, h.pending, fun s' hs' => ?_, h.named⟩
  rcases hmem s' hs' with hs' | rfl
  · exact h.listed s' hs'
  · exact hs

theorem Sound.addSpan (h : d.Sound clean) (kind : SpanKind) {text : String}
    (ht : clean → '\n' ∉ text.toList) : (d.addSpan kind text).Sound clean := by
  have hf := h.splitCapture.flush
  rw [Draft.addSpan]
  split
  · next captures hc =>
      refine hf.pend (Entry.sound_span fun hcl t hmem => ?_)
      cases hmem
      exact fun hn => ht hcl (Pattern.text_subset hc 0 hn)
  · have hspan {origin : Option GroupId} {file sectionName : Option String} :
        (Entry.span ⟨kind, some text, origin, file, sectionName⟩).Sound clean :=
      Entry.sound_span fun hcl t hmem => Option.some.inj hmem ▸ ht hcl
    exact (hf.pend (e := .span _) hspan).listSpan hspan

theorem Sound.addTodo (h : d.Sound clean) {text : String} (ht : clean → '\n' ∉ text.toList) :
    (d.addTodo text).Sound clean :=
  (h.addSpan .todo ht).flush

theorem Sound.addKeyword (h : d.Sound clean) {whole keyword text : String}
    (hw : clean → '\n' ∉ whole.toList) (ht : clean → '\n' ∉ text.toList)
    (he : d.addKeyword whole keyword text = .ok e) : e.Sound clean := by
  rw [Draft.addKeyword] at he
  split at he
  · exact Except.ok.inj he ▸ h.addSpan _ ht
  · exact h.appendText hw (fun _ hn => by cases hn) he

theorem Sound.discardNodoc? (h : d.Sound clean) (he : d.discardNodoc? = some e) :
    e.Sound clean := by
  rw [Draft.discardNodoc?] at he
  split at he
  · cases he
    exact ⟨h.entries, (fun _ hno => by cases hno), h.listed, h.named⟩
  · split at he
    · cases he
      have hu : (d.updateGroup fun g => { g with entries := g.entries.dropLast }).Sound clean :=
        h.updateGroup fun g => List.dropLast_subset _
      exact ⟨hu.entries, (fun _ hno => by cases hno), hu.listed, hu.named⟩
    · cases he

theorem Sound.placeAs (h : d.Sound clean) {f : Group → Group}
    (hf : ∀ g, (f g).entries ⊆ g.entries) :
    { (d.updateGroup f).place with functionGroup := some (d.updateGroup f).group }.Sound clean := by
  have hp := (h.updateGroup hf).placeGroup d.group
  exact ⟨hp.entries, hp.pending, hp.listed, hp.named⟩

theorem Sound.declareFunction (h : d.Sound clean) (binding : Binding) (name : String)
    (params : Option String) : (d.declareFunction binding name params).Sound clean := by
  rw [Draft.declareFunction]
  split
  · next hd => exact h.discardNodoc? hd
  · exact h.placeAs fun _ => List.Subset.refl _

theorem Sound.declareConstant (h : d.Sound clean) (name : String) :
    (d.declareConstant name).Sound clean := by
  rw [Draft.declareConstant]
  split
  · next hd => exact h.discardNodoc? hd
  · exact h.placeAs fun _ => List.Subset.refl _

theorem Sound.declareParam (h : d.Sound clean) {key : String} {definition : Option String}
    {kind : ParamKind} (he : d.declareParam key definition kind = .ok e) : e.Sound clean := by
  rcases declareParam_cases he with hd | ⟨-, f, hf, rfl⟩
  · exact h.discardNodoc? hd
  · obtain ⟨params, libParams, rfl⟩ := register_cases hf
    have hu : (d.updateGroup fun g =>
        { g with param := some key, paramKind := some kind, params := definition }).Sound clean :=
      h.updateGroup fun _ => List.Subset.refl _
    have hr : { d.updateGroup fun g =>
        { g with param := some key, paramKind := some kind, params := definition } with
        doc := { (d.updateGroup fun g =>
          { g with param := some key, paramKind := some kind, params := definition }).doc with
          params, libParams } }.Sound clean :=
      ⟨hu.entries, hu.pending, hu.listed, hu.named⟩
    exact (hr.placeGroup _).freshGroup

theorem Sound.addPlaced (h : d.Sound clean) {e : Entry} (he : e.Sound clean) :
    (d.flush.addEntry e).place.Sound clean :=
  (h.flush.addEntryTo he d.flush.group).placeGroup _

theorem Sound.openTable (h : d.Sound clean) (key : String) (lead : Option String) :
    (d.openTable key lead).Sound clean := by
  refine (Sound.addPlaced (e := .edge _) ?_ trivial).freshGroup
  exact ⟨h.entries, h.pending, h.listed, h.named⟩

theorem Sound.closeTable (h : d.Sound clean) : d.closeTable.Sound clean := by
  have he : d.addTableEnd.Sound clean := h.addPlaced (e := .edge _) trivial
  exact ⟨he.entries, he.pending, he.listed, he.named⟩

theorem Sound.flagUndocumented (h : d.Sound clean) : d.flagUndocumented.Sound clean := by
  rw [Draft.flagUndocumented]
  split
  · exact h.freshGroup
  · exact h.freshGroup.addTodo fun _ => by decide

theorem Sound.applyDirective (h : d.Sound clean) {option : String} {enabled : Bool}
    {line : Option Int} (he : d.applyDirective option enabled line = .ok e) : e.Sound clean := by
  rw [Draft.applyDirective] at he
  split at he
  · split at he
    · split at he <;> cases he
      · have hd : { d with doc := { d.doc with literate := enabled } }.Sound clean :=
          ⟨h.entries, h.pending, h.listed, h.named⟩
        rw [setLiterate]
        split
        · exact hd.startCapture
        · exact hd.finishCapture
      · rw [setLoose]
        split
        · refine Sound.addTodo ?_ fun _ => by decide
          exact ⟨h.entries, h.pending, h.listed, h.named⟩
        · exact ⟨h.entries, h.pending, h.listed, h.named⟩
    · cases he
  · cases he

theorem Sound.called (h : d.Sound clean) (hc : Called clean d e) : e.Sound clean := by
  obtain ⟨call, ⟨hunnamed, htexts, hlines⟩, hrun⟩ := hc
  cases call with
  | openSection title => exact Except.ok.inj hrun ▸ h.openSection title
  | ensureSection => exact run_ensureSection hrun ▸ h.ensureSection none
  | freshGroup => exact Except.ok.inj hrun ▸ h.freshGroup
  | place => exact Except.ok.inj hrun ▸ h.placeGroup d.group
  | placeGroup i => cases hunnamed
  | addHeading text level =>
      exact Except.ok.inj hrun ▸ h.addPlaced fun hc => htexts hc text List.mem_cons_self
  | addTableStart | addTableEnd => exact Except.ok.inj hrun ▸ h.addPlaced (e := .edge _) trivial
  | declareFunction => exact Except.ok.inj hrun ▸ h.declareFunction _ _ _
  | declareConstant => exact Except.ok.inj hrun ▸ h.declareConstant _
  | declareParam => exact h.declareParam hrun
  | openTable => exact Except.ok.inj hrun ▸ h.openTable _ _
  | closeTable => exact Except.ok.inj hrun ▸ h.closeTable
  | addKeyword whole keyword text =>
      refine h.addKeyword (fun hc => ?_) (fun hc => ?_) hrun
      · exact htexts hc whole List.mem_cons_self
      · exact htexts hc text (List.mem_cons_of_mem _ List.mem_cons_self)
  | addTodo text =>
      exact Except.ok.inj hrun ▸ h.addTodo fun hc => htexts hc text List.mem_cons_self
  | appendText text =>
      exact h.appendText (fun hc => htexts hc text List.mem_cons_self) hlines hrun
  | appendItem marker text definition =>
      refine Except.ok.inj hrun ▸ h.appendItem fun hc => ?_
      refine ListItem.marked_text (htexts hc text List.mem_cons_self) fun t ht => ?_
      exact htexts hc t (List.mem_cons_of_mem _ (Option.mem_toList.2 ht))
  | openCode | openFormula => exact Except.ok.inj hrun ▸ h.flush.pend trivial
  | flush => exact Except.ok.inj hrun ▸ h.flush
  | closeComment =>
      have hf := h.flush
      exact Except.ok.inj hrun ▸ ⟨hf.entries, hf.pending, hf.listed, hf.named⟩
  | applyDirective => exact h.applyDirective hrun
  | flagUndocumented => exact Except.ok.inj hrun ▸ h.flagUndocumented
  | startCapture => exact Except.ok.inj hrun ▸ h.startCapture
  | captureLine => exact Except.ok.inj hrun ▸ h.captureLine _
  | finishCapture => exact Except.ok.inj hrun ▸ h.finishCapture
  | setStyle | setBack | leaveFunction =>
      exact Except.ok.inj hrun ▸ ⟨h.entries, h.pending, h.listed, h.named⟩

theorem Sound.calls (h : d.Sound clean) (hc : ReflTransGen (Called clean) d e) :
    e.Sound clean := by
  induction hc with
  | refl => exact h
  | tail _ hs ih => exact ih.called hs

end Draft

/-! ## Documents -/

/-- What can be relied on in a document. The prose of a clean one has no line feeds. -/
structure Document.WellFormed (clean : Prop) (doc : Document) : Prop where
  opened : doc.sections ≠ []
  named : Section.Named doc.name doc.sections
  entries : ∀ i, ∀ e ∈ (doc.store.get i).entries, e.Sound clean

/-- What holds of the entries of a document and of some spans holds with the spans
listed. -/
theorem Document.entries_insertSpans {P : Entry → Prop} {doc : Document}
    (h : ∀ i, ∀ e ∈ (doc.store.get i).entries, P e) {spans : List Span}
    (hs : ∀ s ∈ spans, P (.span s)) (i : GroupId) :
    ∀ e ∈ ((doc.insertGroup { entries := spans.map .span }).store.get i).entries, P e := by
  intro e he
  rcases doc.store.get_insert_cases i { entries := spans.map .span } with hi | hi
  · exact h i e (hi ▸ he)
  · rw [show (doc.insertGroup { entries := spans.map .span }).store.get i = _ from hi] at he
    obtain ⟨s, hmem, rfl⟩ := List.mem_map.1 he
    exact hs s hmem

theorem Draft.entries_document {P : Entry → Prop} {d : Draft}
    (h : ∀ i, ∀ e ∈ (d.doc.store.get i).entries, P e)
    (hs : ∀ s ∈ d.todos ++ d.fixmes, P (.span s)) (i : GroupId) :
    ∀ e ∈ (d.document.store.get i).entries, P e := by
  have htodos : ∀ s ∈ d.todos, P (.span s) := fun s hmem => hs s (List.mem_append_left _ hmem)
  have hfixmes : ∀ s ∈ d.fixmes, P (.span s) := fun s hmem => hs s (List.mem_append_right _ hmem)
  rw [Draft.document]
  simp only [Document.withFixmes, Document.withTodos]
  split <;> split
  · exact h i
  · exact Document.entries_insertSpans h htodos i
  · exact Document.entries_insertSpans h hfixmes i
  · exact Document.entries_insertSpans (Document.entries_insertSpans h htodos) hfixmes i

theorem Draft.Sound.document {clean : Prop} {d : Draft} (h : d.Sound clean)
    (ho : d.current.isSome) : d.document.WellFormed clean := by
  have hsections := document_sections d
  have hname : d.document.name = d.doc.name := by
    rw [Draft.document]
    simp only [Document.withFixmes, Document.withTodos]
    split <;> split <;> rfl
  refine ⟨?_, ?_, ?_⟩
  · rw [hsections]
    obtain ⟨s, hs⟩ := Option.isSome_iff_exists.1 ho
    simp [hs]
  · rw [hsections, hname]
    exact h.named
  · exact Draft.entries_document h.entries h.listed

/-! ## The end of a source -/

/-- A state in which an entry may be pending flushes it when the source ends, and the
capture of source ends when its state is left. -/
theorem Dialect.eof_settles :
    ∀ s ∈ states, (s.name ∈ pendingStates → s.eof = some .flush) ∧
      (s.name = "lua" → s.exit = some .sourceExit) := by
  decide

/-- At the end of a source nothing is pending and nothing is captured. -/
theorem Reading.Coherent.finish_settled {g : Reading} (hg : g.Coherent) :
    (Reader.finish g).draft.pending = none ∧ (Reader.finish g).draft.scratch = none := by
  have hc := hg.consistent
  obtain ⟨heofs, hexits⟩ := Dialect.eof_settles _ hg.state
  obtain ⟨hplain, -, -⟩ := Dialect.wellPhased_of_mem hg.state
  rw [State.exitsPlainly, Bool.or_eq_true, decide_eq_true_eq, decide_eq_true_eq] at hplain
  have hpending : (hooked g.state.exit g.draft).pending = g.draft.pending := by
    rcases hplain with hexit | hexit <;> rw [hexit]
    · rfl
    · exact Draft.finishCapture_pending g.draft
  have hscratch : (hooked g.state.exit g.draft).scratch = none := by
    rcases hplain with hexit | hexit
    · have hlua : g.state.name ≠ "lua" := by
        intro hn
        rw [hexits hn] at hexit
        cases hexit
      rw [hexit]
      exact Option.not_isSome_iff_eq_none.1 fun hs => hlua (hc.captured.1 hs).1
    · rw [hexit]
      exact Draft.finishCapture_scratch g.draft
  rw [finish_draft]
  -- what is pending is flushed, unless the state is one in which nothing ever is
  rcases Dialect.eof_cases _ hg.state with ⟨hp, hexit, heof⟩ | ⟨-, -, heof | heof⟩
  · have ho : g.draft.Opening := by
      have hf := hg.fits
      rw [hp] at hf
      exact hf
    rw [hexit]
    rcases heof with heof | heof <;> rw [heof]
    · exact ⟨(ho.ensureSection _).settled, (ho.ensureSection _).scratch⟩
    · exact ⟨(ho.ensureSection _).settled, (ho.ensureSection _).scratch⟩
  · have hno : ¬ g.draft.pending.isSome := by
      intro hs
      rw [heofs (hc.pending hs)] at heof
      cases heof
    rw [heof]
    exact ⟨hpending.trans (Option.not_isSome_iff_eq_none.1 hno), hscratch⟩
  · rw [heof]
    exact ⟨Draft.flush_pending _, (Draft.frame_flush _).scratch_eq_none hscratch⟩

/-- A document that was read out of a reading with nothing left over: it is what the draft
was when the source had ended, with a further group that is empty. -/
structure Reading.Completes (g : Reading) (doc : Document) : Prop where
  pending : (Reader.finish g).draft.pending = none
  scratch : (Reader.finish g).draft.scratch = none
  document : doc = (Reader.finish g).draft.freshGroup.document

theorem Draft.document_get (d : Draft) {i : GroupId} (hi : d.doc.store.Holds i) :
    d.document.store.get i = d.doc.store.get i := by
  have hinsert (s : GroupStore) (hs : s.Holds i) (g : Group) :
      (s.insert g).Holds i ∧ (s.insert g).get i = s.get i :=
    ⟨GroupStore.holds_insert.2 (Or.inl hs), GroupStore.get_insert_of_holds hs g⟩
  rw [document]
  simp only [Document.withFixmes, Document.withTodos]
  split <;> split
  · rfl
  · exact (hinsert _ hi _).2
  · exact (hinsert _ hi _).2
  · exact (hinsert _ (hinsert _ hi _).1 _).2.trans (hinsert _ hi _).2

/-- The groups of a document are those that were placed when the source ended, and they
show what they showed then. -/
theorem Reading.Completes.groups {g : Reading} {doc : Document} (h : g.Completes doc) :
    doc.sections.flatMap (·.groups) = (Reader.finish g).draft.placed ∧
      ∀ i, (Reader.finish g).draft.doc.store.Holds i →
        doc.store.get i = (Reader.finish g).draft.doc.store.get i := by
  rw [h.document]
  refine ⟨?_, fun i hi => ?_⟩
  · rw [Draft.document_sections]
    rfl
  · rw [Draft.document_get _ (GroupStore.holds_insert.2 (Or.inl hi))]
    exact GroupStore.get_insert_empty _ i

theorem firstDraft_sound (clean : Prop) (settings : Settings) (name : String) (q : Request) :
    (firstDraft settings name q).Sound clean where
  entries := by
    intro i e he
    have he : e ∈ ((GroupStore.insert {} {}).get i).entries := he
    rw [GroupStore.get_insert_empty] at he
    cases he
  pending := fun _ hp => by cases hp
  listed := fun _ hs => by cases hs
  named := by
    constructor <;> intro s hs <;> cases hs

/-- Whatever lines a source has: if they can be read, then the document is well formed,
and clean if the lines are. -/
theorem finishReading_wellFormed {settings : Settings} {q : Request} {lines : List String}
    {g : Reading} (h : readingAfter settings q lines = .ok g) :
    g.Completes (finishReading g).1 ∧
      (finishReading g).1.WellFormed (∀ line ∈ lines, IsLine line) := by
  obtain ⟨hg, -⟩ := readingAfter_steps h
  obtain ⟨named, -, hcalls⟩ := readingAfter_called h
  obtain ⟨hpending, hscratch⟩ := hg.finish_settled
  have hopened := hg.finish.2
  have hsound := (firstDraft_sound _ settings named.1 named.2).calls
    (hcalls.trans (Reading.called_finish g))
  have hdocument : (finishReading g).1 = (Reader.finish g).draft.freshGroup.document :=
    Draft.finish_document hopened
  refine ⟨⟨hpending, hscratch, hdocument⟩, ?_⟩
  rw [hdocument]
  exact hsound.freshGroup.document hopened

/-- The reading of a source that was read from a list of lines. -/
theorem exists_reading {settings : Settings} {q : Request} {lines : List String} {doc : Document}
    {log : Log} (h : parseLines settings q lines = .ok (doc, log)) :
    ∃ g, readingAfter settings q lines = .ok g ∧ doc = (finishReading g).1 := by
  rw [parseLines_eq] at h
  cases hg : readingAfter settings q lines with
  | error f =>
      rw [hg] at h
      cases h
  | ok g =>
      rw [hg] at h
      exact ⟨g, rfl, (congrArg Prod.fst (Except.ok.inj h)).symm⟩

/-- A file is read like the list of its lines, as a source of which nothing but the path
is told. -/
theorem exists_reading_file {settings : Settings} {path : String} {encoding : Source.Encoding}
    {bytes : Option (List UInt8)} {doc : Document} {log : Log}
    (h : parseFile settings path encoding bytes = .ok (doc, log)) :
    ∃ bs g, bytes = some bs ∧
      readingAfter settings { file := some path } (Source.readFile encoding bs).lines = .ok g ∧
      doc = (finishReading g).1 := by
  obtain ⟨names, hnames, h⟩ := ok_of_bind h
  cases bytes with
  | none => cases h
  | some bs =>
      obtain ⟨g₀, hstart, h⟩ := ok_of_bind h
      obtain ⟨g, hfeed, h⟩ := ok_of_bind h
      refine ⟨bs, g, rfl, ?_, ?_⟩
      · have hnamed : ({ file := some path } : Request).named = .ok (names.name,
            { parent := names.parent, fullname := some names.fullname, file := some path }) := by
          show (Source.names path >>= _) = _
          rw [hnames]
          rfl
        rw [readingAfter, hnamed]
        simp only [bind, Except.bind, hstart]
        exact hfeed
      · split at h
        · exact (congrArg Prod.fst (Except.ok.inj h)).symm
        · cases h

/-- A source is given as a list of lines, as a text or as a file. What is known of the
document of every reading is known of every document that is parsed. -/
theorem forall_parsed {settings : Settings} {P : Request → List String → Document → Prop}
    (hP : ∀ {q lines g}, readingAfter settings q lines = .ok g → P q lines (finishReading g).1) :
    (∀ q lines doc log, parseLines settings q lines = .ok (doc, log) → P q lines doc) ∧
    (∀ q text doc log, parse settings q text = .ok (doc, log) → P q (Text.lines text) doc) ∧
    ∀ path encoding bytes doc log, parseFile settings path encoding bytes = .ok (doc, log) →
      ∃ bs, bytes = some bs ∧
        P { file := some path } (Source.readFile encoding bs).lines doc := by
  have hlines : ∀ q lines doc log, parseLines settings q lines = .ok (doc, log) →
      P q lines doc := by
    intro q lines doc log h
    obtain ⟨g, hg, rfl⟩ := exists_reading h
    exact hP hg
  refine ⟨hlines, fun q text => hlines q (Text.lines text), ?_⟩
  intro path encoding bytes doc log h
  obtain ⟨bs, g, hbytes, hg, rfl⟩ := exists_reading_file h
  exact ⟨bs, hbytes, hP hg⟩

/-- Whichever way a source is given, if it can be parsed then nothing is left over at its
end and the document is well formed. The prose of a text or a file has no line feeds, and
that of a list of lines has none unless a line has one inside. -/
theorem parsed_wellFormed (settings : Settings) :
    (∀ q lines doc log, parseLines settings q lines = .ok (doc, log) →
      ∃ g, readingAfter settings q lines = .ok g ∧ g.Completes doc ∧
        doc.WellFormed (∀ line ∈ lines, IsLine line)) ∧
    (∀ q text doc log, parse settings q text = .ok (doc, log) →
      ∃ g, readingAfter settings q (Text.lines text) = .ok g ∧ g.Completes doc ∧
        doc.WellFormed True) ∧
    ∀ path encoding bytes doc log, parseFile settings path encoding bytes = .ok (doc, log) →
      ∃ bs g, bytes = some bs ∧
        readingAfter settings { file := some path } (Source.readFile encoding bs).lines = .ok g ∧
        g.Completes doc ∧ doc.WellFormed True := by
  have hclean {clean : Prop} (hc : clean) {doc : Document} (h : doc.WellFormed clean) :
      doc.WellFormed True := by
    rwa [eq_true hc] at h
  obtain ⟨hlines, htext, hfile⟩ := forall_parsed
    (P := fun q lines doc => ∃ g, readingAfter settings q lines = .ok g ∧ g.Completes doc ∧
      doc.WellFormed (∀ line ∈ lines, IsLine line)) fun h => ⟨_, h, finishReading_wellFormed h⟩
  refine ⟨hlines, fun q text doc log h => ?_, fun path encoding bytes doc log h => ?_⟩
  · obtain ⟨g, hg, hends, hformed⟩ := htext q text doc log h
    exact ⟨g, hg, hends, hclean (fun _ => isLine_of_mem_lines) hformed⟩
  · obtain ⟨bs, hbytes, g, hg, hends, hformed⟩ := hfile path encoding bytes doc log h
    exact ⟨bs, g, hbytes, hg, hends, hclean (fun _ => isLine_of_mem_readFile) hformed⟩

/-- A text that ends within a list, of which one line goes on with the item before it. -/
theorem parsed_wellFormed_list :
    ∃ doc log, ∃ g : Reading,
      parse {} { name := some "d" } "// # T\n//\n// * a\n//   b" = .ok (doc, log) ∧
      (doc.store.get ⟨1⟩).entries = [.list { items := [⟨"a b", none⟩] }] ∧
      g.Completes doc ∧ doc.WellFormed True := by
  have h : (parse {} { name := some "d" } "// # T\n//\n// * a\n//   b").toOption.map
      (fun x => (x.1.store.get ⟨1⟩).entries) = some [.list { items := [⟨"a b", none⟩] }] := by
    decide +kernel
  cases hp : parse {} { name := some "d" } "// # T\n//\n// * a\n//   b" with
  | error f =>
      rw [hp] at h
      cases h
  | ok x =>
      rw [hp] at h
      obtain ⟨g, -, hends, hformed⟩ := (parsed_wellFormed {}).2.1 _ _ _ _ hp
      exact ⟨x.1, x.2, g, rfl, Option.some.inj h, hends, hformed⟩

end DocComment
