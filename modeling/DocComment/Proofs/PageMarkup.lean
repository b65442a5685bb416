import DocComment.Html.Page
import DocComment.Parse
import DocComment.Proofs.Brackets
import Mathlib.Algebra.GroupWithZero.Nat
import Mathlib.Data.List.Forall2

/-!
# The markup of a page

What a document says must not become markup of its page: every opening bracket of a page
is to be one that the renderer writes. So it starts a tag of the renderer, of which
`pageTags` is the list, and it is where it is whatever the document says: if every opening
bracket of the texts of the document is turned around, the opening brackets of the page
stay in their places (`OwnMarkup`).

A page is compared with the page of the document so turned, part by part as it is put
together (`Shown`, `Follows`). A name or a title is escaped or goes through the markup of
prose, and both pages show the same brackets. A formula is shown as it is: every opening
bracket in one is an opening bracket of the page that is turned around with the document,
and these are the only ones. So the markup of a page is the renderer's own if and only if
no formula of the document holds an opening bracket (`ownMarkup_iff`). Formulas within
prose are escaped with it.
-/

namespace DocComment.Html

open Text

/-! ## Turning a document around -/

/-- A text with its opening brackets turned around. -/
def turnText (s : String) : String :=
  s.map turn

def turnItem (i : ListItem) : ListItem :=
  { text := turnText i.text, key := i.key.map turnText }

/-- An entry with the opening brackets of its texts turned around. The name of the
document that a span was written in is compared with other names and is left as it is. -/
def turnEntry : Entry → Entry
  | .paragraph p => .paragraph { text := p.text.map turnText, style := p.style.map turnText }
  | .heading h => .heading { h with text := turnText h.text }
  | .edge e => .edge { e with name := turnText e.name }
  | .formula f => .formula { f with text := f.text.map turnText }
  | .code c => .code { lang := turnText c.lang, text := c.text.map turnText }
  | .span s =>
    .span { s with text := s.text.map turnText, sectionName := s.sectionName.map turnText }
  | .list l => .list { items := l.items.map turnItem, pending := l.pending.map turnItem }
  | .blank => .blank

def turnGroup (g : Group) : Group :=
  { g with
    entries := g.entries.map turnEntry
    function := g.function.map turnText
    constant := g.constant.map turnText
    param := g.param.map turnText
    params := g.params.map turnText }

def turnSection (s : Section) : Section :=
  { s with title := turnText s.title, name := turnText s.name }

/-- A document with the opening brackets of all that is written in it turned around. -/
def turnDocument (d : Document) : Document :=
  { d with
    name := turnText d.name
    sections := d.sections.map turnSection
    todo := d.todo.map turnSection
    fixme := d.fixme.map turnSection
    store := ⟨d.store.groups.map turnGroup⟩ }

@[simp] theorem toList_turnText (s : String) : (turnText s).toList = s.toList.map turn :=
  String.toList_map

@[simp] theorem turnText_empty : turnText "" = "" := by
  simp [turnText]

theorem getD_turnText (s : Option String) : (s.map turnText).getD "" = turnText (s.getD "") := by
  cases s with
  | none => exact turnText_empty.symm
  | some s => rfl

theorem filled_turnText (s : Option String) :
    filled (s.map turnText) = (filled s).map turnText := by
  cases s with
  | none => rfl
  | some s =>
      have hempty : (turnText s).isEmpty = s.isEmpty := by
        rw [Bool.eq_iff_iff, String.isEmpty_iff, String.isEmpty_iff, turnText, String.map_eq_empty]
      by_cases hs : s.isEmpty
      · simp [filled, Option.filter, hempty, hs]
      · simp [filled, Option.filter, hempty, hs]

theorem not_mem_map_turn (cs : List Char) : '<' ∉ cs.map turn := by
  intro h
  obtain ⟨c, -, hc⟩ := List.mem_map.1 h
  unfold turn at hc
  split at hc
  · cases hc
  · next hne => exact hne hc

theorem get_turnDocument (d : Document) (i : GroupId) :
    (turnDocument d).store.get i = turnGroup (d.store.get i) := by
  show ((d.store.groups.map turnGroup)[i.index]?).getD {} =
    turnGroup ((d.store.groups[i.index]?).getD {})
  rw [Array.getElem?_map]
  cases d.store.groups[i.index]? with
  | none => rfl
  | some g => rfl

theorem allSections_turnDocument (d : Document) :
    (turnDocument d).allSections = d.allSections.map turnSection := by
  cases ht : d.todo with
  | none => cases hf : d.fixme <;> simp [Document.allSections, turnDocument, ht, hf]
  | some s => cases hf : d.fixme <;> simp [Document.allSections, turnDocument, ht, hf]

theorem allItems_turn (l : ListBlock) :
    ListBlock.allItems { items := l.items.map turnItem, pending := l.pending.map turnItem } =
      l.allItems.map turnItem := by
  cases hp : l.pending <;> simp [ListBlock.allItems, hp]

theorem map_turn_of_not_mem {cs : List Char} (h : '<' ∉ cs) : cs.map turn = cs := by
  induction cs with
  | nil => rfl
  | cons c cs ih =>
      rw [List.mem_cons, not_or] at h
      rw [List.map_cons, turn, if_neg (Ne.symm h.1), ih h.2]

theorem comp_turn {p : Char → Bool} (hp : p '>' = p '<') : p ∘ turn = p := by
  funext x
  by_cases hx : x = '<'
  · rw [hx]
    exact hp
  · rw [Function.comp_apply, turn, if_neg hx]

theorem map_turn_eq_iff {cs w : List Char} (hopen : '<' ∉ w) (hclose : '>' ∉ w) :
    cs.map turn = w ↔ cs = w := by
  constructor
  · intro h
    have hcs : '<' ∉ cs := by
      intro hmem
      have hturned : turn '<' ∈ cs.map turn := List.mem_map_of_mem hmem
      rw [h] at hturned
      exact hclose hturned
    rw [← h, map_turn_of_not_mem hcs]
  · intro h
    rw [h, map_turn_of_not_mem hopen]

/-- No bracket decides whether a block of code is highlighted. -/
theorem highlighted_turn (c : CodeBlock) :
    CodeBlock.highlighted { lang := turnText c.lang, text := c.text.map turnText } =
      c.highlighted := by
  have hlang : ∀ cs, String.ofList cs = "txt" ↔ cs = "txt".toList := by
    intro cs
    rw [← String.toList_inj, String.toList_ofList]
  rw [CodeBlock.highlighted, CodeBlock.highlighted, CodeBlock.language, CodeBlock.language]
  rw [toList_turnText, List.takeWhile_map, comp_turn (by decide)]
  rw [Bool.eq_iff_iff, bne_iff_ne, bne_iff_ne, ne_eq, ne_eq, hlang, hlang,
    map_turn_eq_iff (by decide) (by decide)]

/-- A paragraph whose brackets are turned around holds no raw markup. -/
theorem rawMarkup_turnText (s : String) : rawMarkup (turnText s) = none := by
  have hafter : after? "<html>".toList ((turnText s).toList.dropWhile (· = ' ')) = none := by
    rw [Option.eq_none_iff_forall_ne_some]
    intro rest h
    rw [after?_eq_some_iff] at h
    have hmem : '<' ∈ (turnText s).toList.dropWhile (· = ' ') := by
      rw [h]
      simp
    rw [toList_turnText] at hmem
    exact not_mem_map_turn _ ((List.dropWhile_sublist _).subset hmem)
  rw [rawMarkup, hafter]
  rfl

/-! ## Parts of a page -/

/-- The tags that a page is written with, each as far as it is the same in all pages. -/
def pageTags : List String :=
  proseTags ++
    ["<section id='", "</section>", "<h2 class='section'>", "</h2>", "<h3 id='", "</h3>",
      "<h4 id='", "<h4 class='", "</h4>", "<p>", "<p class='", "</p>", "<pre class='", "</pre>",
      "<span>", "<span class='", "</span>", "<a href='", "</a>", "<table class='definition'>",
      "</table>", "<tr>", "</tr>", "<td>", "<td class='key'>", "</td>", "<ul>", "</ul>", "<li>",
      "</li>"]

theorem bracketFirst_pageTags : BracketFirst pageTags := by
  decide

/-- A part of a page and the same part with the document turned around. -/
def Shown (n : Nat) (s s' : String) : Prop :=
  Compared pageTags n s.toList s'.toList

namespace Shown

variable {n m : Nat} {s s' t t' : String}

theorem append (hs : Shown n s s') (ht : Shown m t t') : Shown (n + m) (s ++ t) (s' ++ t') := by
  rw [Shown, String.toList_append, String.toList_append]
  exact Compared.append hs ht

/-- What the renderer writes itself. -/
theorem text (h : opensOnly pageTags s.toList) : Shown 0 s s :=
  Compared.of_opensOnly bracketFirst_pageTags h

end Shown

theorem not_mem_escapeValue (cs : List Char) : '<' ∉ cs.flatMap escapeValue := by
  intro h
  obtain ⟨c, -, hc⟩ := List.mem_flatMap.1 h
  unfold escapeValue at hc
  split at hc
  · exact absurd hc (by decide)
  · split at hc
    · exact absurd hc (by decide)
    · refine not_mem_escapeChars [c] ?_
      rw [escapeChars, List.flatMap_singleton]
      exact hc

theorem escape_append (s t : String) : escape (s ++ t) = escape s ++ escape t := by
  rw [escape, String.toList_append, escapeChars, List.flatMap_append, String.ofList_append]
  rfl

theorem escapeAttr_append (s t : String) : escapeAttr (s ++ t) = escapeAttr s ++ escapeAttr t := by
  rw [escapeAttr, String.toList_append, List.flatMap_append, String.ofList_append]
  rfl

theorem shown_escape (s : String) : Shown 0 (escape s) (escape (turnText s)) := by
  rw [Shown, escape, escape, String.toList_ofList, String.toList_ofList, toList_turnText]
  exact .of_not_mem (not_mem_escapeChars _) (not_mem_escapeChars _)
    (twins_escapeChars s.toList).length_eq

theorem shown_escapeAttr (s : String) : Shown 0 (escapeAttr s) (escapeAttr (turnText s)) := by
  rw [Shown, escapeAttr, escapeAttr, String.toList_ofList, String.toList_ofList, toList_turnText]
  exact .of_not_mem (not_mem_escapeValue _) (not_mem_escapeValue _)
    (twins_flatMap twins_escaped s.toList).length_eq

theorem shown_escape_same (s : String) : Shown 0 (escape s) (escape s) := by
  rw [Shown, escape, String.toList_ofList]
  exact .of_not_mem (not_mem_escapeChars _) (not_mem_escapeChars _) rfl

theorem shown_escapeAttr_same (s : String) : Shown 0 (escapeAttr s) (escapeAttr s) := by
  rw [Shown, escapeAttr, String.toList_ofList]
  exact .of_not_mem (not_mem_escapeValue _) (not_mem_escapeValue _) rfl

/-! ## Headings of groups -/

theorem shown_ownerName (d : Document) : Shown 0 (ownerName d) (ownerName (turnDocument d)) :=
  ((Shown.text (by decide)).append (shown_escape d.name)).append (.text (by decide))

theorem shown_functionHeading (d : Document) (g : Group) (name : String) :
    Shown 0 (functionHeading d g name)
      (functionHeading (turnDocument d) (turnGroup g) (turnText name)) := by
  have hstyle : opensOnly pageTags (bindingStyle g.binding).toList := by
    unfold bindingStyle
    split <;> decide
  have howner : Shown 0 (if g.binding = some .classFunction then ownerName d else "")
      (if g.binding = some .classFunction then ownerName (turnDocument d) else "") := by
    split
    · exact shown_ownerName d
    · exact .text (by decide)
  have hparams : Shown 0 (escape (g.params.getD "")) (escape ((turnGroup g).params.getD "")) := by
    show Shown 0 _ (escape ((g.params.map turnText).getD ""))
    rw [getD_turnText]
    exact shown_escape _
  have hid := ((Shown.text (s := "<h3 id='") (by decide)).append (shown_escapeAttr name)).append
    (Shown.text (s := "' class='entry ") (by decide))
  have hname := ((hid.append (.text hstyle)).append (.text (s := "'>") (by decide))).append howner
  exact (((hname.append (shown_escape name)).append (.text (by decide))).append hparams).append
    (.text (by decide))

theorem shown_constantHeading (d : Document) (name : String) :
    Shown 0 (constantHeading d name) (constantHeading (turnDocument d) (turnText name)) :=
  (((((Shown.text (by decide)).append (shown_escapeAttr name)).append (.text (by decide))).append
    (shown_ownerName d)).append (shown_escape name)).append (.text (by decide))

theorem paramHeading_eq (g : Group) (name : String) :
    paramHeading g name = "<h4 id='" ++ escapeAttr name ++ "' class='entry " ++
      g.paramKind.elim "param" ParamKind.name ++ "'>" ++ escape name ++
      (filled g.params).elim "" (fun v => "<span class='value'> = " ++ escape v ++ "</span>") ++
      "</h4>\n" := by
  unfold paramHeading
  cases g.paramKind <;> cases filled g.params <;> rfl

theorem shown_paramHeading (g : Group) (name : String) :
    Shown 0 (paramHeading g name) (paramHeading (turnGroup g) (turnText name)) := by
  have hkind : opensOnly pageTags (g.paramKind.elim "param" ParamKind.name).toList := by
    cases g.paramKind with
    | none => decide
    | some k => cases k <;> decide
  have hparams : filled (turnGroup g).params = (filled g.params).map turnText := filled_turnText _
  have hsame : (turnGroup g).paramKind = g.paramKind := rfl
  rw [paramHeading_eq, paramHeading_eq, hsame, hparams]
  have hid := ((Shown.text (s := "<h4 id='") (by decide)).append (shown_escapeAttr name)).append
    (Shown.text (s := "' class='entry ") (by decide))
  have hname := ((hid.append (.text hkind)).append (.text (s := "'>") (by decide))).append
    (shown_escape name)
  cases filled g.params with
  | none => exact (hname.append (.text (s := "") (by decide))).append (.text (by decide))
  | some v =>
      have hvalue := ((Shown.text (s := "<span class='value'> = ") (by decide)).append
        (shown_escape v)).append (.text (s := "</span>") (by decide))
      exact (hname.append hvalue).append (.text (by decide))

theorem shown_groupHeading (d : Document) (g : Group) :
    Shown 0 (groupHeading d g) (groupHeading (turnDocument d) (turnGroup g)) := by
  have hf : filled (turnGroup g).function = (filled g.function).map turnText := filled_turnText _
  have hc : filled (turnGroup g).constant = (filled g.constant).map turnText := filled_turnText _
  have hp : filled (turnGroup g).param = (filled g.param).map turnText := filled_turnText _
  rw [groupHeading, groupHeading, hf, hc, hp]
  cases filled g.function with
  | some name => exact shown_functionHeading d g name
  | none =>
      cases filled g.constant with
      | some name => exact shown_constantHeading d name
      | none =>
          cases filled g.param with
          | some name => exact shown_paramHeading g name
          | none => exact Shown.text (s := "") (by decide)

/-! ## Entries -/

/-- Whatever the first computation shows, the second shows with the document turned
around. -/
def Follows (n : Nat) (x y : Except Fault String) : Prop :=
  ∀ s, x = .ok s → ∃ s', y = .ok s' ∧ Shown n s s'

namespace Follows

variable {n m : Nat} {x y : Except Fault String}

theorem ok {s s' : String} (h : Shown n s s') : Follows n (.ok s) (.ok s') := by
  intro t ht
  cases ht
  exact ⟨s', rfl, h⟩

theorem bind {f g : String → Except Fault String} (h : Follows n x y)
    (hf : ∀ s s', Shown n s s' → Follows m (f s) (g s')) : Follows m (x >>= f) (y >>= g) := by
  intro t ht
  obtain ⟨s, hs, ht⟩ := ok_of_bind ht
  obtain ⟨s', rfl, hss⟩ := h s hs
  exact hf s s' hss t ht

end Follows

theorem follows_prose (s : String) : Follows 0 (prose s) (prose (turnText s)) := by
  intro t ht
  obtain ⟨out, hout, ht⟩ := ok_of_bind ht
  obtain ⟨out', hout', htwins⟩ := twins_prose hout
  refine ⟨String.ofList out', ?_, ?_⟩
  · rw [prose, toList_turnText, hout']
    rfl
  · rw [← Except.ok.inj ht, Shown, String.toList_ofList, String.toList_ofList]
    exact Compared.of_tagged ((tagged_prose hout).mono fun t ht => List.mem_append_left _ ht) htwins

theorem follows_prose_within (s : String) {before after before' : String}
    (hb : Shown 0 before before') (ha : opensOnly pageTags after.toList) :
    Follows 0 (do return before ++ (← prose s) ++ after)
      (do return before' ++ (← prose (turnText s)) ++ after) :=
  (follows_prose s).bind fun _ _ h => .ok ((hb.append h).append (.text ha))

theorem follows_heading (h : Heading) :
    Follows 0 (headingHtml h) (headingHtml { h with text := turnText h.text }) := by
  have hlevel : opensOnly pageTags h.level.name.toList := by
    cases h.level <;> decide
  exact follows_prose_within h.text
    (((Shown.text (by decide)).append (.text hlevel)).append (.text (by decide))) (by decide)

theorem follows_paragraph (p : Paragraph)
    (hraw : filled p.style = none → rawMarkup (p.text.getD "") = none) :
    Follows 0 (paragraphHtml p)
      (paragraphHtml { text := p.text.map turnText, style := p.style.map turnText }) := by
  simp only [paragraphHtml, filled_turnText, getD_turnText]
  cases hstyle : filled p.style with
  | some style =>
      exact follows_prose_within _
        (((Shown.text (by decide)).append (shown_escapeAttr style)).append (.text (by decide)))
        (by decide)
  | none =>
      rw [hraw hstyle, Option.map_none]
      simp only [rawMarkup_turnText]
      exact follows_prose_within _ (.text (by decide)) (by decide)

theorem follows_edge (e : TableEdge) :
    Follows 0 (edgeHtml e) (edgeHtml { e with name := turnText e.name }) := by
  rw [edgeHtml, edgeHtml]
  cases e.closing with
  | true => exact .ok (.text (by decide))
  | false =>
      have hlead : opensOnly pageTags
          (if (filled e.lead).isSome then "<span>.</span>" else "").toList := by
        split <;> decide
      exact follows_prose_within e.name
        ((((Shown.text (by decide)).append (shown_escapeAttr e.name)).append
          (.text (by decide))).append (.text hlead)) (by decide)

theorem shown_code (c : CodeBlock) :
    Shown 0 (codeHtml c) (codeHtml { lang := turnText c.lang, text := c.text.map turnText }) := by
  have hstyle : opensOnly pageTags (if c.highlighted then "prettyprint lang-" else "").toList := by
    split <;> decide
  unfold codeHtml
  rw [highlighted_turn, getD_turnText]
  exact ((((((Shown.text (by decide)).append (.text hstyle)).append (shown_escapeAttr _)).append
    (.text (by decide))).append (shown_escape _)).append (.text (by decide)))

theorem shown_link {target target' label label' : String} (ht : Shown 0 target target')
    (hl : Shown 0 label label') :
    Shown 0 ("<span class='ref'><a href='" ++ target ++ "'>" ++ label ++ "</a></span>")
      ("<span class='ref'><a href='" ++ target' ++ "'>" ++ label' ++ "</a></span>") :=
  ((((Shown.text (by decide)).append ht).append (.text (by decide))).append hl).append
    (.text (by decide))

theorem shown_spanLink (d : Document) (s : Span) :
    Shown 0 (spanLink d s) (spanLink (turnDocument d)
      { s with text := s.text.map turnText, sectionName := s.sectionName.map turnText }) := by
  have hattr : ∀ page t, Shown 0 (escapeAttr (page ++ t)) (escapeAttr (page ++ turnText t)) := by
    intro page t
    rw [escapeAttr_append, escapeAttr_append]
    exact (shown_escapeAttr_same page).append (shown_escapeAttr t)
  have hlabel : ∀ page t, Shown 0 (escape (page ++ t)) (escape (page ++ turnText t)) := by
    intro page t
    rw [escape_append, escape_append]
    exact (shown_escape_same page).append (shown_escape t)
  cases horigin : s.origin with
  | none =>
      simp only [spanLink, horigin]
      exact .text (by decide)
  | some i =>
      have hf : filled (turnGroup (d.store.get i)).function =
          (filled (d.store.get i).function).map turnText := filled_turnText _
      simp only [spanLink, horigin, get_turnDocument, spanTarget, hf, filled_turnText]
      cases filled (d.store.get i).function with
      | some f => exact shown_link (hattr _ f) (hlabel "#" f)
      | none =>
          cases filled s.sectionName with
          | some name => exact shown_link (hattr _ name) (shown_escape name)
          | none => exact shown_link (shown_escapeAttr_same _) (shown_escape_same _)

theorem follows_span (d : Document) (s : Span) :
    Follows 0 (spanHtml d s) (spanHtml (turnDocument d)
      { s with text := s.text.map turnText, sectionName := s.sectionName.map turnText }) := by
  have hstyle : opensOnly pageTags s.kind.style.toList := by
    cases s.kind <;> decide
  have hname : opensOnly pageTags s.kind.name.toList := by
    cases s.kind <;> decide
  rw [spanHtml, spanHtml, getD_turnText]
  have hopen := (((Shown.text (s := "<p class='") (by decide)).append (.text hstyle)).append
    (Shown.text (s := "'>") (by decide))).append (shown_spanLink d s)
  have hkind := ((hopen.append (Shown.text (s := "<span>") (by decide))).append
    (.text hname)).append (Shown.text (s := "</span> ") (by decide))
  exact follows_prose_within _ hkind (by decide)

theorem compared_turn {tags : List String} (cs : List Char) :
    Compared tags (cs.count '<') cs (cs.map turn) := by
  induction cs with
  | nil => exact .nil
  | cons c cs ih =>
      by_cases hc : c = '<'
      · rw [hc, List.count_cons_self]
        exact .bare ih
      · rw [List.count_cons_of_ne hc, List.map_cons, turn, if_neg hc]
        exact .char hc hc ih

/-- A formula is shown as it is, opening brackets and all. -/
theorem shown_mathTag (f : Formula) :
    Shown ((f.text.getD "").toList.count '<') (mathTag f.mode f.text)
      (mathTag f.mode (f.text.map turnText)) := by
  rw [Shown, mathTag, mathTag, getD_turnText, toList_turnText, String.toList_ofList,
    String.toList_ofList]
  generalize (f.text.getD "").toList = cs
  have hbetween : ∀ mark mark' : String, opensOnly pageTags mark.toList →
      opensOnly pageTags mark'.toList →
      Compared pageTags (cs.count '<') (mark.toList ++ cs ++ mark'.toList)
        (mark.toList ++ cs.map turn ++ mark'.toList) := by
    intro mark mark' hm hm'
    have happend := ((Compared.of_opensOnly bracketFirst_pageTags hm).append
      (compared_turn cs)).append (Compared.of_opensOnly bracketFirst_pageTags hm')
    rw [Nat.zero_add] at happend
    exact happend
  unfold mathChars
  rw [List.all_map, comp_turn rfl]
  split
  · next hall =>
      have hcount : cs.count '<' = 0 := by
        rw [List.count_eq_zero]
        intro hmem
        exact absurd (List.all_eq_true.1 hall _ hmem) (by decide)
      rw [hcount]
      exact .nil
  · cases f.mode with
    | inline => exact hbetween _ _ (by decide) (by decide)
    | block => exact hbetween _ _ (by decide) (by decide)

/-! ## Rows -/

/-- Parts of a page that follow each other. -/
inductive Rows : Nat → List String → List String → Prop where
  | nil : Rows 0 [] []
  | cons {n m : Nat} {s s' : String} {ss ss' : List String} (h : Shown n s s')
      (hs : Rows m ss ss') : Rows (n + m) (s :: ss) (s' :: ss')

namespace Rows

variable {n : Nat} {ss ss' : List String}

theorem join (h : Rows n ss ss') : Shown n (String.join ss) (String.join ss') := by
  induction h with
  | nil => exact .text (by decide)
  | cons h _ ih =>
      rw [String.join_cons, String.join_cons]
      exact h.append ih

theorem lines (h : Rows n ss ss') : Rows n (ss.map (· ++ "\n")) (ss'.map (· ++ "\n")) := by
  induction h with
  | nil => exact .nil
  | cons h _ ih => exact .cons (h.append (.text (s := "\n") (by decide))) ih

end Rows

/-- Parts that are made one by one of the items of a list. -/
theorem rows_mapM {α : Type} {f g : α → Except Fault String} {k : α → α} {n : α → Nat}
    {xs : List α} (h : ∀ x ∈ xs, Follows (n x) (f x) (g (k x))) {ss : List String}
    (hss : xs.mapM f = .ok ss) :
    ∃ ss', (xs.map k).mapM g = .ok ss' ∧ Rows (xs.map n).sum ss ss' := by
  induction xs generalizing ss with
  | nil =>
      cases hss
      exact ⟨[], rfl, .nil⟩
  | cons x xs ih =>
      rw [List.mapM_cons] at hss
      obtain ⟨s, hs, hss⟩ := ok_of_bind hss
      obtain ⟨rest, hrest, hss⟩ := ok_of_bind hss
      obtain ⟨s', hs', hshown⟩ := h x List.mem_cons_self s hs
      obtain ⟨rest', hrest', hrows⟩ := ih (fun y hy => h y (List.mem_cons_of_mem _ hy)) hrest
      refine ⟨s' :: rest', ?_, ?_⟩
      · rw [List.map_cons, List.mapM_cons, hs', hrest']
        rfl
      · rw [← Except.ok.inj hss, List.map_cons, List.sum_cons]
        exact .cons hshown hrows

theorem text_append (p : Parts) (s : String) : (p.append s).text = p.text ++ s := by
  unfold Parts.append
  split
  · next hs => simp [String.isEmpty_iff.1 hs]
  · simp [Parts.text]

theorem text_foldl_appendLine (p : Parts) (rows : List String) :
    (rows.foldl Parts.appendLine p).text = p.text ++ String.join (rows.map (· ++ "\n")) := by
  induction rows generalizing p with
  | nil => simp
  | cons row rows ih =>
      rw [List.foldl_cons, ih, Parts.appendLine, text_append, text_append, List.map_cons,
        String.join_cons, String.append_assoc, String.append_assoc, String.append_assoc]

theorem rowsWithin_eq (opening closing : String) (rows : List String) :
    rowsWithin opening closing rows =
      opening ++ "\n" ++ String.join (rows.map (· ++ "\n")) ++ closing := by
  rw [rowsWithin, text_append, text_foldl_appendLine, Parts.appendLine, text_append, text_append]
  simp [Parts.text]

theorem follows_rowsWithin {opening closing : String} (ho : opensOnly pageTags opening.toList)
    (hc : opensOnly pageTags closing.toList) {f : ListItem → Except Fault String}
    (hf : ∀ i, Follows 0 (f i) (f (turnItem i))) (items : List ListItem) :
    Follows 0 (do return rowsWithin opening closing (← items.mapM f))
      (do return rowsWithin opening closing (← (items.map turnItem).mapM f)) := by
  intro s hs
  obtain ⟨rows, hrows, hs⟩ := ok_of_bind hs
  obtain ⟨rows', hrows', hrel⟩ := rows_mapM (n := fun _ => 0) (fun i _ => hf i) hrows
  refine ⟨rowsWithin opening closing rows', ?_, ?_⟩
  · rw [hrows']
    rfl
  · have hzero : (items.map fun _ => 0).sum = 0 := by simp
    rw [hzero] at hrel
    rw [← Except.ok.inj hs, rowsWithin_eq, rowsWithin_eq]
    exact (((Shown.text ho).append (.text (by decide))).append hrel.lines.join).append (.text hc)

theorem follows_definitionRow (i : ListItem) :
    Follows 0 (definitionRow i) (definitionRow (turnItem i)) := by
  rw [definitionRow, definitionRow]
  show Follows 0 _ (do let key ← prose ((i.key.map turnText).getD ""); _)
  rw [getD_turnText]
  refine (follows_prose _).bind ?_
  intro key key' hkey
  exact follows_prose_within i.text
    (((Shown.text (by decide)).append hkey).append (.text (by decide))) (by decide)

theorem follows_bulletRow (i : ListItem) : Follows 0 (bulletRow i) (bulletRow (turnItem i)) :=
  follows_prose_within i.text (.text (by decide)) (by decide)

theorem follows_list (l : ListBlock) :
    Follows 0 (listHtml l)
      (listHtml { items := l.items.map turnItem, pending := l.pending.map turnItem }) := by
  have hkeys : ((l.allItems.map turnItem).any fun i => i.key.isSome) =
      l.allItems.any fun i => i.key.isSome := by
    rw [List.any_map]
    congr 1
    funext i
    exact Option.isSome_map
  simp only [listHtml, allItems_turn, hkeys, List.isEmpty_map]
  split
  · exact .ok (.text (by decide))
  · split
    · exact follows_rowsWithin (by decide) (by decide) follows_definitionRow _
    · exact follows_rowsWithin (by decide) (by decide) follows_bulletRow _

/-! ## Pages -/

/-- The opening brackets that an entry puts on a page as they are. -/
def bareBrackets : Entry → Nat
  | .formula f => (f.text.getD "").toList.count '<'
  | _ => 0

/-- The entries that a page shows. -/
def shownEntries (d : Document) : List Entry :=
  d.allSections.flatMap fun s => s.groups.flatMap fun i => (d.store.get i).entries

/-- Whether an entry is raw markup, which is shown in place of a paragraph as it is. -/
def isRawMarkup : Entry → Bool
  | .paragraph p => (filled p.style).isNone && (rawMarkup (p.text.getD "")).isSome
  | _ => false

theorem follows_entry (d : Document) {e : Entry} (hraw : isRawMarkup e = false) :
    Follows (bareBrackets e) (entryHtml d e) (entryHtml (turnDocument d) (turnEntry e)) := by
  cases e with
  | paragraph p =>
      refine follows_paragraph p ?_
      intro hstyle
      rw [isRawMarkup, hstyle] at hraw
      simpa using hraw
  | heading h => exact follows_heading h
  | edge e => exact follows_edge e
  | formula f =>
      have hformula := ((Shown.text (s := "<p>") (by decide)).append (shown_mathTag f)).append
        (Shown.text (s := "</p>") (by decide))
      rw [Nat.zero_add] at hformula
      exact .ok hformula
  | code c => exact .ok (shown_code c)
  | span s => exact follows_span d s
  | list l => exact follows_list l
  | blank =>
      intro s hs
      cases hs

theorem follows_group (d : Document) (i : GroupId)
    (hraw : ∀ e ∈ (d.store.get i).entries, isRawMarkup e = false) :
    Follows ((d.store.get i).entries.map bareBrackets).sum (groupHtml d i)
      (groupHtml (turnDocument d) i) := by
  intro s hs
  obtain ⟨parts, hparts, hs⟩ := ok_of_bind hs
  obtain ⟨parts', hparts', hrows⟩ := rows_mapM (fun e he => follows_entry d (hraw e he)) hparts
  refine ⟨groupHeading (turnDocument d) (turnGroup (d.store.get i)) ++
    String.join (parts'.map (· ++ "\n")), ?_, ?_⟩
  · have hentries : (turnGroup (d.store.get i)).entries = (d.store.get i).entries.map turnEntry :=
      rfl
    simp only [groupHtml, get_turnDocument, hentries, hparts']
    rfl
  · have happend := (shown_groupHeading d (d.store.get i)).append hrows.lines.join
    rw [Nat.zero_add] at happend
    exact Except.ok.inj hs ▸ happend

/-- The opening brackets that a group puts on a page as they are. -/
def bareInGroup (d : Document) (i : GroupId) : Nat :=
  ((d.store.get i).entries.map bareBrackets).sum

theorem follows_section (d : Document) (s : Section)
    (hraw : ∀ i ∈ s.groups, ∀ e ∈ (d.store.get i).entries, isRawMarkup e = false) :
    Follows (s.groups.map (bareInGroup d)).sum (sectionHtml d s)
      (sectionHtml (turnDocument d) (turnSection s)) := by
  intro t ht
  obtain ⟨title, htitle, ht⟩ := ok_of_bind ht
  obtain ⟨groups, hgroups, ht⟩ := ok_of_bind ht
  obtain ⟨title', htitle', hshown⟩ := follows_prose s.title title htitle
  obtain ⟨groups', hgroups', hrows⟩ :=
    rows_mapM (k := id) (fun i hi => follows_group d i (hraw i hi)) hgroups
  refine ⟨"<section id='" ++ escapeAttr (turnText s.name) ++ "'>\n<h2 class='section'>" ++ title' ++
    "</h2>\n" ++ String.join groups' ++ "</section>\n", ?_, ?_⟩
  · rw [List.map_id] at hgroups'
    simp only [sectionHtml, turnSection, htitle', hgroups']
    rfl
  · have hopen := (((Shown.text (s := "<section id='") (by decide)).append
      (shown_escapeAttr s.name)).append (Shown.text (s := "'>\n<h2 class='section'>") (by decide)))
    have happend := (((hopen.append hshown).append (Shown.text (s := "</h2>\n") (by decide))).append
      hrows.join).append (Shown.text (s := "</section>\n") (by decide))
    rw [Nat.add_zero, Nat.zero_add] at happend
    exact Except.ok.inj ht ▸ happend

theorem follows_page (d : Document) (hraw : ∀ e ∈ shownEntries d, isRawMarkup e = false) :
    Follows (d.allSections.map fun s => (s.groups.map (bareInGroup d)).sum).sum (page d)
      (page (turnDocument d)) := by
  intro t ht
  obtain ⟨parts, hparts, ht⟩ := ok_of_bind ht
  have hsection : ∀ s ∈ d.allSections, Follows (s.groups.map (bareInGroup d)).sum (sectionHtml d s)
      (sectionHtml (turnDocument d) (turnSection s)) := by
    intro s hs
    refine follows_section d s ?_
    intro i hi e he
    exact hraw e (List.mem_flatMap.2 ⟨s, hs, List.mem_flatMap.2 ⟨i, hi, he⟩⟩)
  obtain ⟨parts', hparts', hrows⟩ := rows_mapM hsection hparts
  refine ⟨String.join parts', ?_, ?_⟩
  · rw [page, allSections_turnDocument, hparts']
    rfl
  · exact Except.ok.inj ht ▸ hrows.join

theorem bareBrackets_eq_zero_iff (d : Document) :
    (d.allSections.map fun s => (s.groups.map (bareInGroup d)).sum).sum = 0 ↔
      ∀ e ∈ shownEntries d, bareBrackets e = 0 := by
  have hsum : ∀ {α : Type} (n : α → Nat) (xs : List α),
      (xs.map n).sum = 0 ↔ ∀ x ∈ xs, n x = 0 := by
    intro α n xs
    rw [List.sum_eq_zero_iff_forall_eq_nat, List.forall_mem_map]
  constructor
  · intro h e he
    obtain ⟨s, hs, he⟩ := List.mem_flatMap.1 he
    obtain ⟨i, hi, he⟩ := List.mem_flatMap.1 he
    have hgroup := (hsum _ _).1 ((hsum _ _).1 h s hs) i hi
    exact (hsum _ _).1 hgroup e he
  · intro h
    refine (hsum _ _).2 fun s hs => (hsum _ _).2 fun i hi => (hsum _ _).2 fun e he => h e ?_
    exact List.mem_flatMap.2 ⟨s, hs, List.mem_flatMap.2 ⟨i, hi, he⟩⟩

/-- The page of a document in which the renderer writes all markup: every opening bracket
starts a tag of the renderer, and stays where it is if the brackets of the document are
turned around. -/
def OwnMarkup (d : Document) (s : String) : Prop :=
  opensOnly pageTags s.toList ∧
    ∃ s', page (turnDocument d) = .ok s' ∧ openings s.toList = openings s'.toList

/-- **No text becomes markup, but for formulas.** The page of a document without raw
markup holds no opening brackets but the renderer's own if and only if no formula that it
shows holds one. -/
theorem ownMarkup_iff {d : Document} {s : String}
    (hraw : ∀ e ∈ shownEntries d, isRawMarkup e = false) (h : page d = .ok s) :
    OwnMarkup d s ↔ ∀ f, .formula f ∈ shownEntries d → '<' ∉ (f.text.getD "").toList := by
  obtain ⟨s', hs', hshown⟩ := follows_page d hraw s h
  have hown : OwnMarkup d s ↔ ∀ e ∈ shownEntries d, bareBrackets e = 0 := by
    rw [← bareBrackets_eq_zero_iff, ← Compared.own_iff bracketFirst_pageTags hshown, OwnMarkup, hs']
    constructor
    · intro ⟨hopens, t, ht, heq⟩
      cases ht
      exact ⟨hopens, heq⟩
    · intro ⟨hopens, heq⟩
      exact ⟨hopens, s', rfl, heq⟩
  rw [hown]
  constructor
  · intro hzero f hf
    exact List.count_eq_zero.1 (hzero _ hf)
  · intro hformula e he
    cases e with
    | formula f => exact List.count_eq_zero.2 (hformula f he)
    | _ => rfl

/-- A document with an opening bracket in its title and in a formula. -/
def bracketSample : Document :=
  { name := "d", fullname := "d", sections := [{ title := "a<b", name := "d", groups := [⟨0⟩] }],
    store := ⟨#[{ entries := [.formula { mode := .block, text := some "a<b" }] }]⟩ }

/-- The title is escaped, the formula is not. -/
theorem not_ownMarkup_bracketSample :
    (∀ e ∈ shownEntries bracketSample, isRawMarkup e = false) ∧
      page bracketSample = .ok
        "<section id='d'>\n<h2 class='section'>a&lt;b</h2>\n<p>$$a<b$$</p>\n</section>\n" ∧
      ¬ OwnMarkup bracketSample
        "<section id='d'>\n<h2 class='section'>a&lt;b</h2>\n<p>$$a<b$$</p>\n</section>\n" := by
  have hraw : ∀ e ∈ shownEntries bracketSample, isRawMarkup e = false := by decide +kernel
  have hpage : page bracketSample = .ok
      "<section id='d'>\n<h2 class='section'>a&lt;b</h2>\n<p>$$a<b$$</p>\n</section>\n" := by
    decide +kernel
  refine ⟨hraw, hpage, ?_⟩
  intro hown
  have hmem : .formula { mode := .block, text := some "a<b" } ∈ shownEntries bracketSample := by
    decide +kernel
  exact (ownMarkup_iff hraw hpage).1 hown _ hmem (by decide)

/-- The bracket of a formula in a comment reaches the page. -/
theorem not_ownMarkup_formula :
    ∃ d log s, parse {} { name := some "d" } "// # T\n// [math]a < b[/math]\n" = .ok (d, log) ∧
      (∀ e ∈ shownEntries d, isRawMarkup e = false) ∧ page d = .ok s ∧ ¬ OwnMarkup d s := by
  have hrun : (match parse {} { name := some "d" } "// # T\n// [math]a < b[/math]\n" with
      | .error _ => false
      | .ok (d, _) =>
        (shownEntries d).all (!isRawMarkup ·) &&
          match page d with
          | .error _ => false
          | .ok s => !opensOnly pageTags s.toList) = true := by
    decide +kernel
  split at hrun
  · cases hrun
  · next d log hparse =>
      rw [Bool.and_eq_true] at hrun
      obtain ⟨hraw, hrun⟩ := hrun
      split at hrun
      · cases hrun
      · next s hpage =>
          refine ⟨d, log, s, hparse, ?_, hpage, ?_⟩
          · intro e he
            simpa using List.all_eq_true.1 hraw e he
          · intro hown
            rw [hown.1] at hrun
            cases hrun

end DocComment.Html
