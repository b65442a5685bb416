import DocComment.Proofs.JsonValues
import DocComment.Proofs.Tables

/-!
# Documents written as JSON

What is written of a document or of one of its sections is the text of a value, its
members in order. The text is in ASCII and is read back as that value, so two texts are
equal just when the values are (`Node.text_faithful`).

For the last step no object may have two members of one name. The names of all objects but
one are fixed by their kinds. The tables of a document are listed by the keys that its
source declares, and a key that is declared again keeps its place, so the keys of whatever
was parsed differ (`parsed_keyed`).
-/

namespace DocComment

open Json Reader

/-! ## Values with fixed names -/

theorem distinct_ofString? (s : Option String) : (ofString? s).Distinct := by
  cases s with
  | none => exact .null
  | some s => exact .str s

/-- An object of fixed names, in which the kind comes first. -/
theorem distinct_kinded {kind : String} {members : List (String × Json)} (names : List String)
    (hnames : members.map (·.1) = names) (hnodup : ("_type" :: names).Nodup)
    (h : ∀ m ∈ members, m.2.Distinct) : (kinded kind members).Distinct :=
  .obj (by rwa [List.map_cons, hnames]) (List.forall_mem_cons.2 ⟨.str kind, h⟩)

theorem distinct_map {α : Type} {f : α → Json} {xs : List α} (h : ∀ x, (f x).Distinct) :
    (arr (xs.map f)).Distinct :=
  .arr (List.forall_mem_map.2 fun x _ => h x)

theorem ListItem.distinct_toJson (i : ListItem) : i.toJson.Distinct :=
  distinct_kinded ["text", "key"] rfl (by decide) (by simp [Distinct.str, distinct_ofString?])

theorem Entry.distinct_toJson (store : GroupStore) (e : Entry) : (e.toJson store).Distinct := by
  cases e with
  | paragraph p =>
      exact distinct_kinded ["text", "klass"] rfl (by decide) (by simp [distinct_ofString?])
  | heading h => exact distinct_kinded ["text", "level"] rfl (by decide) (by simp [Distinct.str])
  | edge e =>
      exact distinct_kinded ["name", "prefix", "closing"] rfl (by decide)
        (by simp [Distinct.str, Distinct.bool, distinct_ofString?])
  | formula f =>
      exact distinct_kinded ["mode", "text"] rfl (by decide)
        (by simp [Distinct.str, distinct_ofString?])
  | code c =>
      exact distinct_kinded ["lang", "text"] rfl (by decide)
        (by simp [Distinct.str, distinct_ofString?])
  | span s =>
      exact distinct_kinded ["kind", "text", "group", "file", "section_name"] rfl (by decide)
        (by simp [Distinct.str, distinct_ofString?])
  | list l =>
      exact distinct_kinded ["items"] rfl (by decide)
        (List.forall_mem_singleton.2 (distinct_map ListItem.distinct_toJson))
  | blank => exact distinct_kinded [] rfl (by decide) nofun

theorem Group.distinct_toJson (store : GroupStore) (g : Group) : (g.toJson store).Distinct := by
  have hentries : (arr (g.entries.map (Entry.toJson store))).Distinct :=
    distinct_map (Entry.distinct_toJson store)
  exact distinct_kinded
    ["entries", "function", "binding", "constant", "param", "param_kind", "params"] rfl (by decide)
    (by simp [hentries, distinct_ofString?])

theorem GroupStore.distinct_toJson (store : GroupStore) (groups : List GroupId) :
    (store.toJson groups).Distinct :=
  distinct_map fun i => (store.get i).distinct_toJson store

theorem Section.distinct_toJson (store : GroupStore) (s : Section) : (s.toJson store).Distinct :=
  distinct_kinded ["title", "name", "groups"] rfl (by decide)
    (by simp [Distinct.str, store.distinct_toJson])

/-- Whether the tables of a document have different keys. -/
def Document.Keyed (d : Document) : Prop :=
  (d.params.map (·.1)).Nodup

theorem Document.distinct_toJson {d : Document} (h : d.Keyed) : d.toJson.Distinct := by
  have hsections : (arr (d.sections.map (Section.toJson d.store))).Distinct :=
    distinct_map (Section.distinct_toJson d.store)
  have hparams :
      (obj (d.params.map fun x => (x.1, d.store.toJson x.2.groups))).Distinct := by
    refine .obj ?_ (List.forall_mem_map.2 fun _ _ => d.store.distinct_toJson _)
    rw [List.map_map]
    exact h
  have hlisted (s : Option Section) : (ofOption (Section.toJson d.store) s).Distinct := by
    cases s with
    | none => exact .null
    | some s => exact s.distinct_toJson d.store
  exact distinct_kinded ["name", "module", "fullname", "sections", "params", "lib_params", "todo",
    "fixme", "literate", "loose"] rfl (by decide)
    (by simp [Distinct.str, Distinct.bool, distinct_ofString?, hsections, hparams, hlisted,
      d.store.distinct_toJson])

/-! ## Texts -/

/-- What can be written on its own: a document, or one of its sections. -/
inductive Node where
  | document (d : Document)
  | part (d : Document) (s : Section)

namespace Node

def toJson : Node → Json
  | document d => d.toJson
  | part d s => s.toJson d.store

/-- A node as text. -/
def text (layout : Layout) : Node → String
  | document d => d.jsonText layout
  | part d s => d.sectionText s layout

/-- Whether the tables of a document have different keys. A section lists no tables. -/
def Keyed : Node → Prop
  | document d => d.Keyed
  | part .. => True

theorem text_eq (layout : Layout) (n : Node) : n.text layout = n.toJson.sorted.text layout := by
  cases n <;> rfl

theorem distinct_toJson {n : Node} (h : n.Keyed) : n.toJson.Distinct := by
  cases n with
  | document d => exact Document.distinct_toJson h
  | part d s => exact s.distinct_toJson d.store

/-- The text of a node is in ASCII, and what is read back from it is the value of the node
with the members of its objects in order, which is the same value. Two nodes have the same
text just in case their values are equal as JSON values. -/
theorem text_faithful (indent : Option Int) :
    (∀ n : Node, Ascii (n.text (.ofIndent indent)).toList ∧
      ofText? (n.text (.ofIndent indent)) = some n.toJson.sorted ∧ n.toJson.sorted.Ordered) ∧
    (∀ n : Node, n.Keyed → n.toJson.Same n.toJson.sorted) ∧
    ∀ n n' : Node, n.Keyed → n'.Keyed →
      (n.text (.ofIndent indent) = n'.text (.ofIndent indent) ↔ n.toJson.Same n'.toJson) := by
  refine ⟨fun n => ?_, fun n h => same_sorted (distinct_toJson h), fun n n' h h' => ?_⟩
  · rw [text_eq]
    exact ⟨ascii_text _ _, ofText?_text _ _, ordered_sorted _⟩
  · rw [text_eq, text_eq, text_inj, same_iff_sorted (distinct_toJson h) (distinct_toJson h')]

/-- Two documents that list their tables in different orders. -/
theorem text_faithful_tables :
    ∃ d d' : Document, d.params ≠ d'.params ∧ (document d).Keyed ∧ (document d').Keyed ∧
      (document d).toJson.Same (document d).toJson.sorted ∧
      (document d).text (.ofIndent (some 2)) = (document d').text (.ofIndent (some 2)) := by
  refine ⟨{ name := "d", fullname := "d", params := [("é", {}), ("b", {})] },
    { name := "d", fullname := "d", params := [("b", {}), ("é", {})] }, by decide, ?_⟩
  have h : Node.Keyed (document
      { name := "d", fullname := "d", params := [("é", {}), ("b", {})] }) := by
    show (["é", "b"] : List String).Nodup
    decide
  have h' : Node.Keyed (document
      { name := "d", fullname := "d", params := [("b", {}), ("é", {})] }) := by
    show (["b", "é"] : List String).Nodup
    decide
  have hsame := (same_iff_sorted (distinct_toJson h) (distinct_toJson h')).2 rfl
  exact ⟨h, h', (text_faithful (some 2)).2.1 _ h, ((text_faithful (some 2)).2.2 _ _ h h').2 hsame⟩

end Node

/-! ## What was parsed -/

theorem names_putKey {α : Type} (key : String) (value : α) (l : List (String × α)) :
    (putKey key value l).map (·.1) =
      if key ∈ l.map (·.1) then l.map (·.1) else l.map (·.1) ++ [key] := by
  induction l with
  | nil => rfl
  | cons x l ih =>
      obtain ⟨k, v⟩ := x
      rw [putKey]
      split
      · next hk => simp [hk]
      · next hk =>
          rw [List.map_cons, ih]
          simp only [List.map_cons, List.mem_cons, Ne.symm hk, false_or]
          split <;> rfl

theorem nodup_putKey {α : Type} (key : String) (value : α) {l : List (String × α)}
    (h : (l.map (·.1)).Nodup) : ((putKey key value l).map (·.1)).Nodup := by
  rw [names_putKey]
  split
  · exact h
  · next hkey => exact List.concat_eq_append ▸ h.concat hkey

namespace Draft

variable {d e : Draft}

/-- A key is added where none was like it, and no key is ever changed. -/
theorem Write.keyed (h : Write d e) (hd : d.doc.Keyed) : e.doc.Keyed := by
  cases h with
  | remember | freshGroup | addEntry | describe | placeGroup | opened => exact hd
  | listSpan s =>
      rw [Draft.listSpan]
      split <;> exact hd
  | declare _ hreg =>
      rcases register_lists hreg with ⟨-, rfl⟩ | ⟨-, table, rfl⟩
      · exact hd
      · exact nodup_putKey table _ hd
  | clearTable key => exact nodup_putKey key _ hd

theorem Writes.keyed (h : Writes d e) (hd : d.doc.Keyed) : e.doc.Keyed := by
  induction h with
  | refl => exact hd
  | tail _ hw ih => exact hw.keyed ih

theorem Written.keyed {declares : Prop} (h : Written declares d e) (hd : d.doc.Keyed) :
    e.doc.Keyed := by
  obtain ⟨d', hw, rfl | ⟨-, -, rfl⟩⟩ := h
  · exact hw.keyed hd
  · exact hw.keyed hd

end Draft

namespace Reading

variable {r : Reader} {g g' : Reading}

theorem Coherent.keyed_feed (hg : g.Coherent) (hr : r.grammar = Dialect.grammar)
    (hd : g.draft.doc.Keyed) {line : String} (h : r.feed g line = .ok g') :
    g'.Coherent ∧ g'.draft.doc.Keyed := by
  refine evaluateAll_keeps (P := fun g => g.Coherent ∧ g.draft.doc.Keyed) ?_ ?_ h
  · intro g₁ g₂ again hg₁ he
    obtain ⟨d, hwritten, hwrites⟩ := hg₁.1.written_evaluate he
    exact ⟨(hg₁.1.evaluate hr he).1, hwrites.keyed (hwritten.keyed hg₁.2)⟩
  · exact ⟨⟨hg.state, hg.fits⟩, hd⟩

theorem Coherent.keyed_feedAll (hg : g.Coherent) (hr : r.grammar = Dialect.grammar)
    (hd : g.draft.doc.Keyed) {lines : List String} (h : r.feedAll g lines = .ok g') :
    g'.draft.doc.Keyed := by
  suffices hall : g'.Coherent ∧ g'.draft.doc.Keyed from hall.2
  refine feedAll_keeps (P := fun g => g.Coherent ∧ g.draft.doc.Keyed) ?_ ⟨hg, hd⟩ h
  intro g₁ g₂ line hg₁ hf
  exact hg₁.1.keyed_feed hr hg₁.2 hf

end Reading

theorem finishReading_keyed {settings : Settings} {q : Request} {lines : List String} {g : Reading}
    (h : readingAfter settings q lines = .ok g) : (finishReading g).1.Keyed := by
  cases hq : q.named with
  | error f =>
      rw [readingAfter, hq] at h
      cases h
  | ok named =>
      obtain ⟨g₀, hg₀, -, hd, hreads⟩ := readingAfter_eq settings hq
      have hread := (hreads settings.maxReplay settings.trace lines).symm.trans h
      have hfirst : (firstDraft settings named.1 named.2).doc.Keyed := List.nodup_nil
      have hkeyed := g.writes_finish.keyed (hg₀.keyed_feedAll rfl (hd ▸ hfirst) hread)
      obtain ⟨hends, -⟩ := finishReading_wellFormed h
      show ((finishReading g).1.params.map (·.1)).Nodup
      rw [hends.document, (Draft.document_tables _).2]
      exact hkeyed

/-- Whichever way a source is given, if it can be parsed then the tables of its document
have different keys. -/
theorem parsed_keyed (settings : Settings) :
    (∀ q lines doc log, parseLines settings q lines = .ok (doc, log) → doc.Keyed) ∧
    (∀ q text doc log, parse settings q text = .ok (doc, log) → doc.Keyed) ∧
    ∀ path encoding bytes doc log, parseFile settings path encoding bytes = .ok (doc, log) →
      doc.Keyed := by
  obtain ⟨hlines, htext, hfile⟩ := forall_parsed
    (P := fun _ _ doc => doc.Keyed) finishReading_keyed
  refine ⟨hlines, htext, fun path encoding bytes doc log h => ?_⟩
  obtain ⟨-, -, hdoc⟩ := hfile path encoding bytes doc log h
  exact hdoc

end DocComment
