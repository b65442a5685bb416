import DocComment.Html.Page
import DocComment.Proofs.Legible
import DocComment.Proofs.Placeholders

/-!
# Which documents have a page

A page is put together from parts, and all that can go wrong with a part is that one of
its texts cannot be marked up. `Renders` says that of a part and of its texts, and of two
parts put together it holds with the texts of both, so that the texts of a whole page are
those of its sections and entries (`Document.prose`).

The blank entry, which no page can show, is in no document that was read from a source. So
a document has a page if and only if everything that its texts ask for can be brought back
(`page_shown_iff`); and that is so if the source has no NUL characters. A text with NUL
characters of its own may ask for what was never put on the shelf (`page_not_shown`).
-/

namespace DocComment

namespace Html

open Text

/-! ## Parts of a page and their texts -/

/-- The faults of a number that finds nothing on the shelf. -/
def lookupFault : Fault → Bool
  | .tooManyDigits _ | .indexTooLarge | .outOfRange => true
  | _ => false

/-- A computation that fails did so at its first step or after it. -/
theorem error_of_bind {α β : Type} {x : Except Fault α} {f : α → Except Fault β} {fault : Fault}
    (h : x >>= f = .error fault) :
    x = .error fault ∨ ∃ a, x = .ok a ∧ f a = .error fault := by
  cases x with
  | error fault' => exact Or.inl (congrArg Except.error (Except.error.inj h))
  | ok a => exact Or.inr ⟨a, rfl, h⟩

/-- A part of a page that is shown if and only if its texts can be, and that nothing else
keeps from being shown. -/
structure Renders {α : Type} (x : Except Fault α) (texts : List String) : Prop where
  shown_iff : (∃ a, x = .ok a) ↔ ∀ s ∈ texts, Restorable s.toList
  fault : ∀ f, x = .error f → lookupFault f

namespace Renders

variable {α β : Type} {x : Except Fault α} {texts texts' : List String}

theorem pure (a : α) : Renders (Except.ok a) [] :=
  ⟨⟨fun _ _ hs => absurd hs List.not_mem_nil, fun _ => ⟨a, rfl⟩⟩, fun _ h => by cases h⟩

theorem bind {f : α → Except Fault β} (hx : Renders x texts) (hf : ∀ a, Renders (f a) texts') :
    Renders (x >>= f) (texts ++ texts') := by
  constructor
  · constructor
    · rintro ⟨b, hb⟩ s hs
      obtain ⟨a, ha, hb⟩ := ok_of_bind hb
      rcases List.mem_append.1 hs with hs | hs
      · exact hx.shown_iff.1 ⟨a, ha⟩ s hs
      · exact (hf a).shown_iff.1 ⟨b, hb⟩ s hs
    · intro h
      obtain ⟨a, rfl⟩ := hx.shown_iff.2 fun s hs => h s (List.mem_append_left _ hs)
      exact (hf a).shown_iff.2 fun s hs => h s (List.mem_append_right _ hs)
  · intro fault h
    rcases error_of_bind h with h | ⟨a, -, h⟩
    · exact hx.fault fault h
    · exact (hf a).fault fault h

/-- What is done with a part once it is there needs no further texts. -/
theorem map {f : α → β} (hx : Renders x texts) : Renders (do return f (← x)) texts := by
  have h := hx.bind fun a => pure (f a)
  rwa [List.append_nil] at h

theorem mapM {γ : Type} {f : γ → Except Fault α} {texts : γ → List String} {l : List γ}
    (h : ∀ c ∈ l, Renders (f c) (texts c)) : Renders (l.mapM f) (l.flatMap texts) := by
  induction l with
  | nil => exact pure []
  | cons c l ih =>
      rw [List.mapM_cons, List.flatMap_cons]
      refine (h c List.mem_cons_self).bind fun a => ?_
      exact (ih fun d hd => h d (List.mem_cons_of_mem _ hd)).map

theorem congr (hx : Renders x texts)
    (h : (∀ s ∈ texts, Restorable s.toList) ↔ ∀ s ∈ texts', Restorable s.toList) :
    Renders x texts' :=
  ⟨hx.shown_iff.trans h, hx.fault⟩

end Renders

theorem fetch_fault {shelf : Shelf} {digits : List Char} {f : Fault}
    (h : fetch shelf digits = .error f) : lookupFault f := by
  rw [fetch] at h
  split at h
  · exact Except.error.inj h ▸ rfl
  · split at h
    · exact Except.error.inj h ▸ rfl
    · split at h
      · cases h
      · exact Except.error.inj h ▸ rfl

theorem restore_fault {shelf : Shelf} {ps : List (Piece (List Char))} {f : Fault}
    (h : restore shelf ps = .error f) : lookupFault f := by
  induction ps with
  | nil => cases h
  | cons p ps ih =>
      cases p with
      | plain c =>
          rcases error_of_bind h with h | ⟨cs, -, h⟩
          · exact ih h
          · cases h
      | marked digits =>
          rcases error_of_bind h with h | ⟨item, -, h⟩
          · exact fetch_fault h
          · rcases error_of_bind h with h | ⟨cs, -, h⟩
            · exact ih h
            · cases h

theorem proseChars_fault {cs : List Char} {f : Fault} (h : proseChars cs = .error f) :
    lookupFault f := by
  rw [proseChars_eq] at h
  split at h
  · cases h
  · exact restore_fault h

theorem renders_prose (s : String) : Renders (prose s) [s] := by
  have h : Renders (proseChars s.toList) [s] := by
    refine ⟨?_, fun _ => proseChars_fault⟩
    rw [List.forall_mem_singleton]
    exact proseChars_isOk_iff
  exact h.map

/-! ## Entries -/

theorem restorable_empty : Restorable "".toList := by
  decide +kernel

theorem renders_prose_getD (t : Option String) : Renders (prose (t.getD "")) t.toList := by
  refine (renders_prose _).congr ?_
  cases t with
  | none => simpa using restorable_empty
  | some s => exact Iff.rfl

end Html

/-- Whether an entry is shown without being marked up: a paragraph of raw markup, or the
line that closes a table. -/
def Entry.verbatim : Entry → Bool
  | paragraph p => (filled p.style).isNone && (Html.rawMarkup (p.text.getD "")).isSome
  | edge e => e.closing
  | _ => false

/-- The texts of an entry that its page marks up. -/
def Entry.prose (e : Entry) : List String :=
  if e.verbatim then [] else e.texts

/-- The texts of a document that its page marks up. -/
def Document.prose (d : Document) : List String :=
  d.allSections.flatMap fun s =>
    s.title :: s.groups.flatMap fun i => (d.store.get i).entries.flatMap Entry.prose

namespace Html

theorem renders_paragraph (p : Paragraph) :
    Renders (paragraphHtml p) (Entry.paragraph p).prose := by
  rw [Entry.prose, Entry.verbatim, paragraphHtml]
  cases hstyle : filled p.style with
  | some style => exact (renders_prose_getD p.text).map
  | none =>
      cases hraw : rawMarkup (p.text.getD "") with
      | some markup => exact .pure _
      | none => exact (renders_prose_getD p.text).map

theorem renders_edge (e : TableEdge) : Renders (edgeHtml e) (Entry.edge e).prose := by
  rw [Entry.prose, Entry.verbatim, edgeHtml]
  cases e.closing with
  | true => exact .pure _
  | false => exact (renders_prose e.name).map

theorem renders_definitionRow (i : ListItem) : Renders (definitionRow i) i.texts :=
  (renders_prose_getD i.key).bind fun _ => (renders_prose i.text).map

theorem renders_list (l : ListBlock) : Renders (listHtml l) (Entry.list l).texts := by
  rw [listHtml]
  split
  · next h =>
      have htexts : (Entry.list l).texts = [] := by
        rw [Entry.texts, List.isEmpty_iff.1 h]
        rfl
      exact htexts ▸ .pure _
  · split
    · exact (Renders.mapM fun i _ => renders_definitionRow i).map
    · next h =>
        have hkeys : ∀ i ∈ l.allItems, i.texts = [i.text] := by
          intro i hi
          have hkey : i.key = none := by
            cases hk : i.key with
            | none => rfl
            | some k => exact absurd (List.any_eq_true.2 ⟨i, hi, by rw [hk]; rfl⟩) h
          rw [ListItem.texts, hkey]
          rfl
        refine Renders.map (Renders.mapM fun i hi => ?_)
        rw [hkeys i hi]
        exact (renders_prose i.text).map

theorem renders_entry (d : Document) {e : Entry} (h : e ≠ .blank) :
    Renders (entryHtml d e) e.prose := by
  cases e with
  | paragraph p => exact renders_paragraph p
  | heading heading => exact (renders_prose heading.text).map
  | edge e => exact renders_edge e
  | formula | code => exact .pure _
  | span s => exact (renders_prose_getD s.text).map
  | list l => exact renders_list l
  | blank => exact absurd rfl h

/-- A page is made of the texts of its document. -/
theorem renders_page {d : Document} (h : ∀ i, ∀ e ∈ (d.store.get i).entries, e ≠ .blank) :
    Renders (page d) d.prose := by
  refine Renders.map (Renders.mapM fun s _ => ?_)
  refine (renders_prose s.title).bind fun title => ?_
  refine Renders.map (Renders.mapM fun i _ => ?_)
  exact Renders.map (Renders.mapM fun e he => renders_entry d (h i e he))

end Html

/-! ## The pages of sources -/

theorem Document.Legible.prose {clean : Prop} {doc : Document} (h : doc.Legible clean) :
    ∀ s ∈ doc.prose, Unmarked clean s := by
  intro s hs
  obtain ⟨t, ht, hs⟩ := List.mem_flatMap.1 hs
  rcases List.mem_cons.1 hs with rfl | hs
  · exact h.titles t ht
  · obtain ⟨i, -, hs⟩ := List.mem_flatMap.1 hs
    obtain ⟨e, he, hs⟩ := List.mem_flatMap.1 hs
    rw [Entry.prose] at hs
    split at hs
    · cases hs
    · exact (h.entries i e he).texts s hs

/-- A document that was read from a source has a page if and only if whatever its texts
ask for can be brought back, and nothing else is ever wrong with its page. It has one if
the source has no NUL characters. -/
theorem page_shown_iff {settings : Settings} {q : Request} {lines : List String} {doc : Document}
    {log : Log} (h : parseLines settings q lines = .ok (doc, log)) :
    ((∃ html, Html.page doc = .ok html) ↔ ∀ s ∈ doc.prose, Html.Restorable s.toList) ∧
      (∀ fault, Html.page doc = .error fault → Html.lookupFault fault) ∧
      ('\x00' ∉ doc.fullname.toList → (∀ line ∈ lines, '\x00' ∉ line.toList) →
        (∀ s ∈ doc.prose, s.toList.length ≤ maxIndex) → ∃ html, Html.page doc = .ok html) := by
  have hlegible := legible_parsed h
  have hpage := Html.renders_page fun i e he => (hlegible.entries i e he).shown
  refine ⟨hpage.shown_iff, hpage.fault, fun hname hlines hmax => hpage.shown_iff.2 fun s hs => ?_⟩
  exact Html.restorable_of_not_mem (hlegible.prose s hs ⟨hname, hlines⟩) (hmax s hs)

/-- A source with a formula and code within its prose. -/
theorem page_shown_iff_shelved :
    ∃ doc log html, parseLines {} { name := some "d" }
        ["// # T", "// a [math]b[/math] \x60c\x60"] = .ok (doc, log) ∧
      doc.prose = ["T", "a [math]b[/math] \x60c\x60"] ∧ Html.page doc = .ok html := by
  have hread : (parseLines {} { name := some "d" }
      ["// # T", "// a [math]b[/math] \x60c\x60"]).toOption.map
        (fun x => (x.1.fullname, x.1.prose)) =
      some ("d", ["T", "a [math]b[/math] \x60c\x60"]) := by
    decide +kernel
  cases hp : parseLines {} { name := some "d" } ["// # T", "// a [math]b[/math] \x60c\x60"] with
  | error f =>
      rw [hp] at hread
      cases hread
  | ok x =>
      rw [hp] at hread
      obtain ⟨hname, hprose⟩ := Prod.mk.inj (Option.some.inj hread)
      obtain ⟨html, hpage⟩ := (page_shown_iff hp).2.2 (hname ▸ by decide) (by decide)
        (hprose ▸ by decide)
      exact ⟨x.1, x.2, html, rfl, hprose, hpage⟩

/-- The text asks for the sixth thing on the shelf, and there is only one. -/
theorem page_not_shown :
    ∃ doc log, parse {} { name := some "d" } "// # T\n// \x005\x00 \x60x\x60\n" = .ok (doc, log) ∧
      Html.page doc = .error .outOfRange := by
  have hread : (parse {} { name := some "d" } "// # T\n// \x005\x00 \x60x\x60\n").toOption.map
      (fun x => match Html.page x.1 with
        | .ok _ => none
        | .error fault => some fault) = some (some .outOfRange) := by
    decide +kernel
  cases hp : parse {} { name := some "d" } "// # T\n// \x005\x00 \x60x\x60\n" with
  | error f =>
      rw [hp] at hread
      cases hread
  | ok x =>
      rw [hp] at hread
      refine ⟨x.1, x.2, rfl, ?_⟩
      have hpage : (match Html.page x.1 with
          | .ok _ => none
          | .error fault => some fault) = some .outOfRange := Option.some.inj hread
      split at hpage
      · cases hpage
      · next fault hfault => rw [hfault, Option.some.inj hpage]

end DocComment
