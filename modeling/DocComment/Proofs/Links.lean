import DocComment.Html.Page
import DocComment.Proofs.Legible
import DocComment.Proofs.ShownItems

/-!
# Links to what is still to do

A span that is listed at the end of a document has a link to where it was written: to the
function of its group, if the group documents one in the end, and else to the section it
was written in. The page has an element for either.

What makes the link of a function good is that a group is placed when an item is declared
on it, so a group that documents something is in some section (`finishReading_documents`).
What makes the link of a section good is that a span is only written while a section is
open, and that sections are named: the first one for the document, the others for their
titles, which are not empty (`Dialect.title_ne_empty`). `Draft.Linked` keeps track of
that.
-/

namespace DocComment

open Text Pattern Relation Reader

/-! ## Titles -/

theorem Dialect.newSection_pattern {s : State} (hs : s ∈ states) {r : Rule} (hr : r ∈ s.rules)
    (ha : r.action = some .newSection) :
    r.pattern = sectionTitle ∨ r.pattern = lineStart ++ sectionTitle := by
  have hmem : r ∈ (states.flatMap (·.rules)).filter (·.action = some .newSection) :=
    List.mem_filter.2 ⟨List.mem_flatMap.2 ⟨s, hs, hr⟩, decide_eq_true ha⟩
  have hmem : r ∈ [({ pattern := sectionTitle, action := some .newSection } : Rule),
      { pattern := lineStart ++ sectionTitle, action := some .newSection }] := hmem
  simp only [List.mem_cons, List.not_mem_nil, or_false] at hmem
  rcases hmem with rfl | rfl
  · exact Or.inl rfl
  · exact Or.inr rfl

theorem Dialect.sectionTitle_takes {s t : Spot} {marks : Marks} (h : sectionTitle.Takes s t marks) :
    ∃ m : Mark, marks = [(0, m)] ∧ m.text ≠ "" := by
  obtain ⟨_, _, _, ⟨_, _, _, ⟨_, _, _, ⟨_, rfl⟩, ⟨_, rfl⟩, rfl⟩,
    ⟨_, ⟨⟨w, hlen, -, hpasses⟩, rfl⟩, rfl⟩, rfl⟩, ⟨_, rfl⟩, rfl⟩ := h
  refine ⟨_, rfl, ?_⟩
  rw [mark_text_of_passes hpasses]
  intro hw
  rw [String.ofList_eq_empty_iff.1 hw] at hlen
  cases hlen

/-- The title of a section is not empty. -/
theorem Dialect.title_ne_empty {line : String} {c : Captures} {p : Pattern}
    (hp : p = sectionTitle ∨ p = lineStart ++ sectionTitle) (h : p.read? line = some c) :
    c.text 0 ≠ "" := by
  obtain ⟨t, marks, htakes, rfl⟩ := read?_takes h
  rcases hp with rfl | rfl
  · obtain ⟨m, rfl, hm⟩ := sectionTitle_takes htakes
    exact hm
  · obtain ⟨_, _, _, ⟨_, _, _, ⟨_, rfl⟩, ⟨_, rfl⟩, rfl⟩, htitle, rfl⟩ := htakes
    obtain ⟨m, rfl, hm⟩ := sectionTitle_takes htitle
    exact hm

theorem anchorOfTitle_ne_empty {title : String} (h : title ≠ "") : anchorOfTitle title ≠ "" := by
  intro hname
  rw [anchorOfTitle] at hname
  exact h (by simpa using hname)

/-! ## Drafts -/

/-- It can be told where the span was written: in a file, in one of the sections of the
given names, and by a group. -/
structure Span.Points (s : Span) (file : String) (names : List String) : Prop where
  file : s.file = some file
  origin : s.origin.isSome
  place : ∃ n ∈ names, s.sectionName = some n

namespace Draft

/-- The names of the sections so far. -/
def sectionNames (d : Draft) : List String :=
  d.doc.sections.map (·.name) ++ (d.current.map (·.name)).toList

/-- All sections are named, and all spans that are listed point to one of them. -/
structure Linked (d : Draft) : Prop where
  name : d.doc.name ≠ ""
  sections : "" ∉ d.sectionNames
  todos : ∀ s ∈ d.todos, s.Points d.doc.fullname d.sectionNames
  fixmes : ∀ s ∈ d.fixmes, s.Points d.doc.fullname d.sectionNames

namespace Linked

variable {d e : Draft}

theorem of_points (h : d.Linked) (hname : e.doc.name = d.doc.name)
    (hfull : e.doc.fullname = d.doc.fullname) (hnames : e.sectionNames = d.sectionNames)
    (htodos : ∀ s ∈ e.todos, s.Points d.doc.fullname d.sectionNames)
    (hfixmes : ∀ s ∈ e.fixmes, s.Points d.doc.fullname d.sectionNames) : e.Linked where
  name := hname ▸ h.name
  sections := hnames ▸ h.sections
  todos := hfull ▸ hnames ▸ htodos
  fixmes := hfull ▸ hnames ▸ hfixmes

theorem sectionNames_of_quiet (h : Quiet d e) : e.sectionNames = d.sectionNames := by
  rw [sectionNames, h.sections, h.current, sectionNames]

/-- What is written while a section is open points to it. -/
theorem quiet (h : d.Linked) (hd : d.current.isSome) (hq : Quiet d e) : e.Linked := by
  have hpoints {before after : List Span} (hl : ListsBetween d e before after)
      (hb : ∀ s ∈ before, s.Points d.doc.fullname d.sectionNames) :
      ∀ s ∈ after, s.Points d.doc.fullname d.sectionNames := by
    obtain ⟨new, rfl, hnew⟩ := hl
    obtain ⟨t, ht⟩ := Option.isSome_iff_exists.1 hd
    intro s hs
    rcases List.mem_append.1 hs with hs | hs
    · exact hb s hs
    · obtain ⟨hfile, hplace, i, hi, -⟩ := hnew s hs
      refine ⟨hfile, hi ▸ rfl, t.name, ?_, by rw [hplace, ht]; rfl⟩
      simp [sectionNames, ht]
  exact h.of_points hq.name hq.fullname (sectionNames_of_quiet hq) (hpoints hq.todos h.todos)
    (hpoints hq.fixmes h.fixmes)

theorem silent (h : d.Linked) (hs : Silent d e) : e.Linked :=
  h.of_points hs.name hs.fullname (sectionNames_of_quiet hs.toQuiet)
    (hs.lists.todos ▸ h.todos) (hs.lists.fixmes ▸ h.fixmes)

theorem declared {x : Item} (h : d.Linked) (hd : Declared d x e) : e.Linked :=
  h.of_points hd.name hd.fullname (by rw [sectionNames, hd.sections, hd.current, sectionNames])
    (hd.todos ▸ h.todos) (hd.fixmes ▸ h.fixmes)

theorem openSection (h : d.Linked) {title : String} (ht : d.hasSection → title ≠ "") :
    (d.openSection title).Linked := by
  obtain ⟨name, hname, hnames⟩ : ∃ name, name ≠ "" ∧
      (d.openSection title).sectionNames = d.sectionNames ++ [name] := by
    have hsame := same_flush d
    have hname : d.flush.freshGroup.doc.name = d.doc.name := (quiet_flush d).name
    have hs : d.flush.freshGroup.hasSection = d.hasSection := by
      rw [hasSection, hasSection, show d.flush.freshGroup.current = _ from hsame.current,
        show d.flush.freshGroup.doc.sections = _ from hsame.sections]
    refine ⟨if d.hasSection then anchorOfTitle title else d.doc.name, ?_, ?_⟩
    · split
      · next hd => exact anchorOfTitle_ne_empty (ht hd)
      · exact h.name
    · rw [← hs, ← hname]
      show (List.map _ (d.flush.doc.sections ++ d.flush.current.toList)) ++ [_] = _
      rw [hsame.current, hsame.sections, List.map_append, sectionNames, Option.toList_map]
  have hpoints {l : List Span} (hl : ∀ s ∈ l, s.Points d.doc.fullname d.sectionNames) :
      ∀ s ∈ l, s.Points d.doc.fullname (d.openSection title).sectionNames := by
    intro s hs
    obtain ⟨hfile, horigin, n, hn, hplace⟩ := hl s hs
    exact ⟨hfile, horigin, n, hnames ▸ List.mem_append_left _ hn, hplace⟩
  have hcalm := calm_openSection d title
  have hlists := lists_openSection d title
  refine ⟨hcalm.name ▸ h.name, ?_, ?_, ?_⟩
  · rw [hnames, List.mem_append, List.mem_singleton]
    exact fun hmem => hmem.elim h.sections fun heq => hname heq.symm
  · rw [hcalm.fullname, hlists.todos]
    exact hpoints h.todos
  · rw [hcalm.fullname, hlists.fixmes]
    exact hpoints h.fixmes

end Linked

end Draft

namespace Reading

open Draft

variable {r : Reader} {line : String} {g g' : Reading}

theorem Enters.linked {e : Draft} (he : g.Enters line e) (hg : g.Coherent) (h : g.draft.Linked) :
    e.Linked := by
  cases he with
  | idle => exact h
  | @acts m a _ hm ha hl =>
      have hfits := hg.before_fits hm ha
      cases hl with
      | quiet _ hopened hq => exact h.quiet (hfits.opened hopened) hq
      | declares hx hbefore hd =>
          have hopened := Action.before_ne_opening (Action.declared?_eq_some hx).2.1
          exact (h.quiet (hfits.opened hopened) hbefore).declared hd
      | opens _ ht hq =>
          refine (h.openSection fun hs => ?_).quiet rfl hq
          rcases ht with ⟨rfl, rfl⟩ | hno
          · exact Dialect.title_ne_empty
              (Dialect.newSection_pattern hg.state (State.matchLine_mem hm) ha)
              (State.matchLine_read hm)
          · rw [hno] at hs
            cases hs
      | leaves hq =>
          have hleft : { g.draft with functionGroup := none }.Linked :=
            ⟨h.name, h.sections, h.todos, h.fixmes⟩
          exact hleft.quiet (hfits.opened (by decide)) hq
      | @switches _ enabled _ ha' hq =>
          have hmode : { g.draft with doc := { g.draft.doc with loose := enabled } }.Linked :=
            ⟨h.name, h.sections, h.todos, h.fixmes⟩
          refine hmode.quiet (hfits.opened ?_) hq
          rcases ha' with ⟨rfl, -⟩ | ⟨rfl, -, -⟩ <;> decide

theorem Tracked.linked_feedAll (hg : g.Tracked) (hr : r.grammar = Dialect.grammar)
    {lines : List String} (h : r.feedAll g lines = .ok g') (hl : g.draft.Linked) :
    g'.draft.Linked := by
  refine (feedAll_keeps (P := fun g => g.Tracked ∧ g.draft.Linked) ?_ ⟨hg, hl⟩ h).2
  intro g₁ g₂ line hg₁ hf
  refine evaluateAll_keeps (P := fun g => g.Tracked ∧ g.draft.Linked) ?_
    ⟨hg₁.1.nextLine (g₁.line + 1), hg₁.2⟩ hf
  intro g₁ g₂ again hg₁ he
  obtain ⟨e, henters, hsilent⟩ := hg₁.1.enters_evaluate hr he
  exact ⟨(hg₁.1.evaluate hr he).1, (henters.linked hg₁.1.toCoherent hg₁.2).silent hsilent⟩

theorem Coherent.linked_finish (hg : g.Coherent) (h : g.draft.Linked) :
    (Reader.finish g).draft.Linked := by
  rcases hg.finish_cases with ⟨hd, hq⟩ | ⟨ho, hq⟩
  · exact h.quiet hd hq
  · refine (h.openSection fun hs => ?_).quiet rfl hq
    rw [hasSection, ho.current, ho.sections] at hs
    cases hs

end Reading

/-! ## Pages -/

namespace Html

/-- What a link within a page can lead to, the heading of a function or a section: its
name, and how its element starts. -/
inductive Anchor (doc : Document) : String → String → Prop where
  | function {i : GroupId} {f : String} (hi : i ∈ doc.sections.flatMap (·.groups))
      (hf : (doc.store.get i).function = some f) (hne : f ≠ "") :
      Anchor doc f ("<h3 id='" ++ escapeAttr f ++ "' class='entry ")
  | title {s : Section} (hs : s ∈ doc.sections) (hne : s.name ≠ "") :
      Anchor doc s.name ("<section id='" ++ escapeAttr s.name ++ "'>\n<h2 class='section'>")

/-- The span has a link within the page. -/
def LinksTo (doc : Document) (s : Span) (name : String) : Prop :=
  ∃ label, spanLink doc s = "<span class='ref'><a href='" ++ escapeAttr ("#" ++ name) ++ "'>"
    ++ escape label ++ "</a></span>"

theorem infix_append (s t : String) : s.toList <:+: (s ++ t).toList := by
  rw [String.toList_append]
  exact (List.prefix_append _ _).isInfix

theorem infix_join {s : String} {l : List String} (h : s ∈ l) :
    s.toList <:+: (String.join l).toList := by
  obtain ⟨pre, post, rfl⟩ := List.append_of_mem h
  rw [String.toList_join, List.flatMap_append, List.flatMap_cons]
  exact List.infix_append' _ _ _

theorem exists_of_mapM {α : Type} {f : α → Except Fault String} {l : List α} {parts : List String}
    (h : l.mapM f = .ok parts) {a : α} (ha : a ∈ l) : ∃ s ∈ parts, f a = .ok s := by
  induction l generalizing parts with
  | nil => cases ha
  | cons b l ih =>
      rw [List.mapM_cons] at h
      obtain ⟨s, hs, h⟩ := ok_of_bind h
      obtain ⟨rest, hrest, h⟩ := ok_of_bind h
      cases h
      rcases List.mem_cons.1 ha with rfl | ha
      · exact ⟨s, List.mem_cons_self, hs⟩
      · obtain ⟨t, ht, hf⟩ := ih hrest ha
        exact ⟨t, List.mem_cons_of_mem _ ht, hf⟩

/-- How the heading of a function starts. -/
theorem groupHtml_function {doc : Document} {i : GroupId} {f html : String}
    (hf : (doc.store.get i).function = some f) (hne : f ≠ "") (h : groupHtml doc i = .ok html) :
    ∃ rest, html = "<h3 id='" ++ escapeAttr f ++ "' class='entry " ++ rest := by
  obtain ⟨entries, -, h⟩ := ok_of_bind h
  cases h
  rw [groupHeading, hf, filled_of_ne hne]
  unfold functionHeading
  simp only [String.append_assoc]
  exact ⟨_, rfl⟩

/-- How a section starts, and that its groups are within it. -/
theorem sectionHtml_eq {doc : Document} {s : Section} {html : String}
    (h : sectionHtml doc s = .ok html) :
    (∃ rest, html = "<section id='" ++ escapeAttr s.name ++ "'>\n<h2 class='section'>" ++ rest) ∧
      ∀ i ∈ s.groups, ∃ group, groupHtml doc i = .ok group ∧ group.toList <:+: html.toList := by
  obtain ⟨title, -, h⟩ := ok_of_bind h
  obtain ⟨groups, hgroups, h⟩ := ok_of_bind h
  cases h
  refine ⟨⟨title ++ "</h2>\n" ++ String.join groups ++ "</section>\n", ?_⟩, fun i hi => ?_⟩
  · simp only [String.append_assoc]
  · obtain ⟨group, hgroup, hshown⟩ := exists_of_mapM hgroups hi
    refine ⟨group, hshown, (infix_join hgroup).trans ?_⟩
    rw [String.toList_append, String.toList_append]
    exact List.infix_append _ _ _

/-- A page has an element for each of its anchors. -/
theorem Anchor.shown {doc : Document} {name opening html : String} (h : Anchor doc name opening)
    (hpage : page doc = .ok html) : opening.toList <:+: html.toList := by
  obtain ⟨parts, hparts, hpage⟩ := ok_of_bind hpage
  cases hpage
  have hsection {s : Section} (hs : s ∈ doc.sections) :
      ∃ part ∈ parts, sectionHtml doc s = .ok part :=
    exists_of_mapM hparts (List.mem_append_left _ (List.mem_append_left _ hs))
  cases h with
  | function hi hf hne =>
      obtain ⟨s, hs, hi⟩ := List.mem_flatMap.1 hi
      obtain ⟨part, hpart, hshown⟩ := hsection hs
      obtain ⟨group, hgroup, hwithin⟩ := (sectionHtml_eq hshown).2 _ hi
      obtain ⟨rest, rfl⟩ := groupHtml_function hf hne hgroup
      exact ((infix_append _ rest).trans hwithin).trans (infix_join hpart)
  | title hs =>
      obtain ⟨part, hpart, hshown⟩ := hsection hs
      obtain ⟨rest, rfl⟩ := (sectionHtml_eq hshown).1
      exact (infix_append _ rest).trans (infix_join hpart)

/-- A span that points to a section of the document links to it, unless its group
documents a function. -/
theorem spanTarget_eq {doc : Document} {s : Span} {names : List String}
    (h : s.Points doc.fullname names) (hnames : "" ∉ names) (origin : Group) :
    (∃ f label, origin.function = some f ∧ f ≠ "" ∧ spanTarget doc s origin = ("#" ++ f, label)) ∨
      ∃ n ∈ names, n ≠ "" ∧ ∃ label, spanTarget doc s origin = ("#" ++ n, label) := by
  -- a file that is the document itself is not named in the link, nor is one without a name
  have hfile : filled s.file = none ∨ filled s.file = some doc.fullname := by
    rw [h.file]
    by_cases hfull : doc.fullname = ""
    · rw [hfull]
      exact Or.inl rfl
    · exact Or.inr (filled_of_ne hfull)
  obtain ⟨n, hn, hplace⟩ := h.place
  have hne : n ≠ "" := fun heq => hnames (heq ▸ hn)
  cases hf : filled origin.function with
  | some f =>
      obtain ⟨hfunction, hfilled⟩ := Option.filter_eq_some_iff.1 hf
      refine Or.inl ⟨f, "#" ++ f, hfunction, by simpa using hfilled, ?_⟩
      rcases hfile with hfile | hfile <;> simp [spanTarget, hfile, hf]
  | none =>
      refine Or.inr ⟨n, hn, hne, n, ?_⟩
      rcases hfile with hfile | hfile <;>
        simp [spanTarget, hfile, hf, hplace, filled_of_ne hne]

end Html

/-! ## Documents -/

/-- The span has a link within the page, and the page has what it leads to. -/
def Document.LinksSpan (doc : Document) (s : Span) : Prop :=
  s.origin.isSome ∧ ∃ name opening, Html.LinksTo doc s name ∧ Html.Anchor doc name opening ∧
    ∀ html, Html.page doc = .ok html → opening.toList <:+: html.toList

/-- Every entry of the lists at the end of a document is a span with such a link. -/
def Document.LinksSpans (doc : Document) : Prop :=
  ∀ list ∈ doc.todo.toList ++ doc.fixme.toList, ∀ i ∈ list.groups,
    ∀ e ∈ (doc.store.get i).entries, ∃ s, e = .span s ∧ doc.LinksSpan s

/-- The group of a function that a span leads to is in some section. -/
theorem linksSpan_of_points {settings : Settings} {q : Request} {lines : List String} {g : Reading}
    (h : readingAfter settings q lines = .ok g) {s : Span}
    (hs : s.Points (finishReading g).1.fullname ((finishReading g).1.sections.map (·.name)))
    (hnames : "" ∉ (finishReading g).1.sections.map (·.name)) :
    (finishReading g).1.LinksSpan s := by
  obtain ⟨hitems, -, hplaced⟩ := finishReading_documents h
  refine ⟨hs.origin, ?_⟩
  obtain ⟨i, hi⟩ := Option.isSome_iff_exists.1 hs.origin
  have hlink {name label : String} (ht : Html.spanTarget (finishReading g).1 s
      ((finishReading g).1.store.get i) = ("#" ++ name, label)) :
      Html.LinksTo (finishReading g).1 s name :=
    ⟨label, by simp only [Html.spanLink, hi, ht]⟩
  rcases Html.spanTarget_eq hs hnames ((finishReading g).1.store.get i) with
    ⟨f, label, hf, hne, ht⟩ | ⟨n, hn, hne, label, ht⟩
  · have hitem : ((finishReading g).1.store.get i).item .function = some f := hf
    rw [hitems, Option.map_eq_some_iff] at hitem
    obtain ⟨x, hx, -⟩ := hitem
    obtain ⟨hmem, rfl, -⟩ := Declaration.mem_of_last? hx
    have hanchor := Html.Anchor.function (hplaced x hmem) hf hne
    exact ⟨f, _, hlink ht, hanchor, fun _ => hanchor.shown⟩
  · obtain ⟨t, htitle, rfl⟩ := List.mem_map.1 hn
    have hanchor := Html.Anchor.title htitle hne
    exact ⟨t.name, _, hlink ht, hanchor, fun _ => hanchor.shown⟩

theorem finishReading_linksSpans {settings : Settings} {q : Request} {named : String × Request}
    {lines : List String} {g : Reading} (hq : q.named = .ok named) (hname : named.1 ≠ "")
    (h : readingAfter settings q lines = .ok g) : (finishReading g).1.LinksSpans := by
  obtain ⟨g₀, named', hq', hdraft, hg₀, hreads, -⟩ := exists_firstReading h
  obtain rfl : named = named' := Except.ok.inj (hq.symm.trans hq')
  have hfirst : g₀.draft.Linked := by
    rw [hdraft]
    refine ⟨hname, List.not_mem_nil, ?_, ?_⟩ <;> intro s hs <;> cases hs
  have hg := readingAfter_tracked h
  have hlinked := hg.linked_finish (hg₀.linked_feedAll rfl ((hreads lines).symm.trans h) hfirst)
  have hdoc := (finishReading_wellFormed h).1.document
  have hfull : (finishReading g).1.fullname = (Reader.finish g).draft.doc.fullname := by
    rw [hdoc, Draft.document_fullname]
    rfl
  have hnames :
      (finishReading g).1.sections.map (·.name) = (Reader.finish g).draft.sectionNames := by
    rw [hdoc, Draft.document_sections, List.map_append, Draft.sectionNames, Option.toList_map]
    rfl
  have hspan {s : Span}
      (hs : s.Points (Reader.finish g).draft.doc.fullname (Reader.finish g).draft.sectionNames) :=
    linksSpan_of_points h (hfull ▸ hnames ▸ hs) (hnames ▸ hlinked.sections)
  have hend := (hg.placed.steps hg.finish.1).freshGroup
  obtain ⟨htodo, hfixme⟩ := Draft.document_lists hend.todo hend.fixme
  rw [← hdoc] at htodo hfixme
  intro list hlist i hi e he
  rcases List.mem_append.1 hlist with hlist | hlist
  · obtain ⟨j, rfl, hj⟩ := htodo.found list (Option.mem_toList.1 hlist)
    obtain rfl := List.mem_singleton.1 hi
    obtain ⟨s, hs, rfl⟩ := List.mem_map.1 (hj ▸ he)
    exact ⟨s, rfl, hspan (hlinked.todos s hs)⟩
  · obtain ⟨j, rfl, hj⟩ := hfixme.found list (Option.mem_toList.1 hlist)
    obtain rfl := List.mem_singleton.1 hi
    obtain ⟨s, hs, rfl⟩ := List.mem_map.1 (hj ▸ he)
    exact ⟨s, rfl, hspan (hlinked.fixmes s hs)⟩

/-- Whichever way a source is given: if it has a name, then no link of the lists at the
end of its document dangles. -/
theorem parsed_linksSpans (settings : Settings) :
    (∀ q named lines doc log, q.named = .ok named → named.1 ≠ "" →
      parseLines settings q lines = .ok (doc, log) → doc.LinksSpans) ∧
    (∀ q named text doc log, q.named = .ok named → named.1 ≠ "" →
      parse settings q text = .ok (doc, log) → doc.LinksSpans) ∧
    ∀ path names encoding bytes doc log, Source.names path = .ok names → names.name ≠ "" →
      parseFile settings path encoding bytes = .ok (doc, log) → doc.LinksSpans := by
  obtain ⟨hlines, htext, hfile⟩ := forall_parsed
    (P := fun q _ doc => ∀ named, q.named = .ok named → named.1 ≠ "" → doc.LinksSpans)
    fun h _ hq hname => finishReading_linksSpans hq hname h
  refine ⟨fun q named lines doc log hq hname h => hlines q lines doc log h named hq hname,
    fun q named text doc log hq hname h => htext q text doc log h named hq hname,
    fun path names encoding bytes doc log hnames hname h => ?_⟩
  have hq : ({ file := some path } : Request).named = .ok (names.name,
      { parent := names.parent, fullname := some names.fullname, file := some path }) := by
    show (Source.names path >>= _) = _
    rw [hnames]
    rfl
  obtain ⟨-, -, hdoc⟩ := hfile path encoding bytes doc log h
  exact hdoc _ hq hname

/-- A span of a section and one of a function. -/
theorem parsed_linksSpans_function :
    ∃ doc log, parse {} { name := some "d" }
        "// # T\n// TODO: a\n\n// b\n// FIXME: c\nlib.f = function()\n" = .ok (doc, log) ∧
      doc.todo.isSome ∧ doc.fixme.isSome ∧ doc.LinksSpans := by
  have hlisted : (parse {} { name := some "d" }
      "// # T\n// TODO: a\n\n// b\n// FIXME: c\nlib.f = function()\n").toOption.any
        fun x => x.1.todo.isSome && x.1.fixme.isSome := by
    decide +kernel
  cases hp : parse {} { name := some "d" }
      "// # T\n// TODO: a\n\n// b\n// FIXME: c\nlib.f = function()\n" with
  | error f =>
      rw [hp] at hlisted
      cases hlisted
  | ok x =>
      rw [hp] at hlisted
      obtain ⟨htodo, hfixme⟩ := (Bool.and_eq_true _ _).mp hlisted
      exact ⟨x.1, x.2, rfl, htodo, hfixme,
        (parsed_linksSpans {}).2.1 _ ("d", { name := some "d" }) _ _ _ rfl (by decide) hp⟩

end DocComment
