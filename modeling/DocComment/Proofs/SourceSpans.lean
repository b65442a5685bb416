import DocComment.Proofs.Growth
import DocComment.Proofs.Listing

/-!
# Notes in the source

A line of source may be a note: a comment of one line under a keyword, such as `// TODO`.
It goes into the current group, whichever that is at the time, and here it is told what
becomes of it.

The note is in that group for good; what is in question is whether the group gets into a
section. It does if it is in one already, and if source is being captured into it.
Otherwise it stays current while lines go by that start no group of their own, and all
that can still place it is a line that opens a table, as the line is added to the current
group. Whatever else starts a group abandons it first (`Reading.Waits`), and with the
group the note is lost. A plain parameter leaves such a group behind, so a note right
after one is lost where no table follows.
-/

namespace DocComment

open Text Pattern Relation Reader

/-! ## What a note says -/

/-- The lines of source that are notes: whole text, keyword, rest. -/
def Dialect.notePattern : Pattern :=
  indent ++ capture 0 ("//" ++ spaces ++ capture 1 spanKeyword ++ afterKeyword 2) ++ stop

theorem Dialect.sourceTodo_rule {r : Rule} (hr : r ∈ lua.rules)
    (ha : r.action = some .sourceTodo) : r.pattern = notePattern ∧ r.next = .stay := by
  have hmem : r ∈ lua.rules.filter (·.action = some .sourceTodo) :=
    List.mem_filter.2 ⟨hr, decide_eq_true ha⟩
  have hmem : r ∈ [({ pattern := notePattern, action := some .sourceTodo } : Rule)] := hmem
  rw [List.mem_singleton] at hmem
  rw [hmem]
  exact ⟨rfl, rfl⟩

theorem Dialect.spanKeyword_takes {s t : Spot} {marks : Marks} (h : spanKeyword.Takes s t marks) :
    marks = [] ∧ ∃ kind : SpanKind, s.Passes kind.name.toList t := by
  rcases h with ⟨h, hm⟩ | ⟨h, hm⟩ | ⟨h, hm⟩ | ⟨h, hm⟩
  · exact ⟨hm, .todo, h⟩
  · exact ⟨hm, .fixme, h⟩
  · exact ⟨hm, .warn, h⟩
  · exact ⟨hm, .note, h⟩

/-- A note has one of the keywords, and its text is of one line. -/
theorem Dialect.note_captures {line : String} {c : Captures} (h : notePattern.read? line = some c) :
    (∃ kind : SpanKind, kind.name = c.text 1) ∧ '\n' ∉ (c.text 2).toList := by
  obtain ⟨t, marks, htakes, rfl⟩ := read?_takes h
  -- of the parts of the pattern only the keyword and the rest of the line matter
  obtain ⟨_, _, _, ⟨_, _, _, ⟨_, rfl⟩, ⟨inner, hinner, rfl⟩, rfl⟩, ⟨_, rfl⟩, rfl⟩ := htakes
  obtain ⟨_, _, _, ⟨_, _, _, ⟨_, _, _, ⟨_, rfl⟩, ⟨_, rfl⟩, rfl⟩, ⟨kw, hkw, rfl⟩, rfl⟩, hrest,
    rfl⟩ := hinner
  obtain ⟨_, _, _, ⟨_, _, _, ⟨_, _, _, ⟨_, rfl⟩, hcolon, rfl⟩, ⟨_, rfl⟩, rfl⟩,
    ⟨_, ⟨⟨w, -, hw, hpasses⟩, rfl⟩, rfl⟩, rfl⟩ := hrest
  obtain ⟨rfl, kind, hkind⟩ := spanKeyword_takes hkw
  obtain rfl := hcolon.elim And.right And.right
  refine ⟨⟨kind, ?_⟩, ?_⟩
  · show _ = Mark.text _
    rw [mark_text_of_passes hkind, String.ofList_toList]
  · show '\n' ∉ (Mark.text _).toList
    rw [mark_text_of_passes hpasses, String.toList_ofList]
    intro hmem
    exact absurd (hw _ hmem) (by decide)

namespace Draft

variable {d e : Draft}

/-- A pending span that is flushed is in the current group for good. -/
theorem shows_flush {s : Span} (hp : d.pending = some (.span s)) (hh : d.doc.store.Holds d.group) :
    d.flush.doc.store.Shows d.group ((d.doc.store.get d.group).entries ++ [.span s]) := by
  have hget : d.flush.doc.store.get d.group =
      { d.doc.store.get d.group with
        entries := (d.doc.store.get d.group).entries ++ [.span s] } := by
    rw [flush, hp]
    exact GroupStore.get_update_self hh _
  rw [GroupStore.Shows, hget]
  refine ⟨List.prefix_refl _, ?_⟩
  rw [List.getLast?_concat]
  exact Bool.false_ne_true

/-! ## Groups that wait for a section -/

/-- A group is the current one, in no section, and no source is being captured. -/
structure Awaits (d : Draft) (i : GroupId) : Prop where
  group : d.group = i
  unplaced : i ∉ d.placed
  scratch : d.scratch = none
  held : d.doc.store.Holds i

namespace Awaits

variable {i : GroupId}

theorem of_same (h : d.Awaits i) (hs : SamePlaces d e) : e.Awaits i :=
  ⟨hs.group.trans h.group, hs.placed ▸ h.unplaced, hs.scratch_eq_none h.scratch,
    hs.holds i h.held⟩

theorem freshGroup (h : d.Awaits i) : d.freshGroup.Abandoned i := by
  refine ⟨GroupStore.holds_insert.2 (Or.inl h.held), ?_, fun s hs => ?_, h.unplaced⟩
  · rintro rfl
    exact d.doc.store.not_holds_nextId h.held
  · have hn : d.scratch = some s := hs
    rw [h.scratch] at hn
    cases hn

theorem flagUndocumented (h : d.Awaits i) : d.flagUndocumented.Abandoned i := by
  rw [Draft.flagUndocumented]
  split
  · exact h.freshGroup
  · exact (grows_addTodo _ _).abandoned i h.freshGroup

theorem startCapture (h : d.Awaits i) : d.startCapture.Abandoned i := by
  have hf := h.freshGroup
  rw [Draft.startCapture]
  split
  · next s hs =>
      rw [h.scratch] at hs
      cases hs
  · refine ⟨hf.held, hf.group, fun s hs => ?_, hf.unplaced⟩
    cases hs
    exact hf.group

theorem captureOr (h : d.Awaits i) {line : String} {declare : Draft → Except Fault Draft}
    (hgrows : ∀ d', declare d' = .ok e → Grows d' e)
    (he : Action.captureOr d line declare = .ok e) : e.Awaits i ∨ e.Abandoned i := by
  rcases Action.captureOr_cases he with rfl | ⟨-, he⟩
  · exact Or.inl (h.of_same (same_captureLine d line))
  · exact Or.inr ((hgrows _ he).abandoned i h.flagUndocumented)

theorem applyDirective (h : d.Awaits i) {option : String} {enabled : Bool} {line : Option Int}
    (he : d.applyDirective option enabled line = .ok e) : e.Awaits i ∨ e.Abandoned i := by
  rw [Draft.applyDirective] at he
  split at he
  · split at he
    · split at he
      · refine Except.ok.inj he ▸ ?_
        have hd : Awaits { d with doc := { d.doc with literate := enabled } } i :=
          h.of_same ⟨rfl, rfl, rfl, rfl, rfl, rfl, fun _ => id⟩
        rw [setLiterate]
        split
        · exact Or.inr hd.startCapture
        · rw [finishCapture_of_none hd.scratch]
          exact Or.inl hd
      · exact Or.inl (Except.ok.inj he ▸ h.of_same (same_setLoose d enabled))
    · cases he
  · cases he

/-- A line of source leaves it waiting, or else abandons it. Opening a table is the
exception. -/
theorem apply (h : d.Awaits i) {a : Action} (hs : a.before = .source) (ho : a ≠ .openTable)
    {line : Nat} {c : Captures} (he : a.apply line c d = .ok e) :
    e.Awaits i ∧ a ≠ .startComment ∨ e.Abandoned i := by
  have hstay (ha : a ≠ .startComment) (hx : e.Awaits i ∨ e.Abandoned i) :
      e.Awaits i ∧ a ≠ .startComment ∨ e.Abandoned i :=
    hx.imp_left fun hw => ⟨hw, ha⟩
  cases a with
  | undocumentedFunction =>
      rw [Action.apply] at he
      refine hstay (by decide) (h.captureOr (fun d' hd' => ?_) he)
      exact Except.ok.inj hd' ▸ grows_declareFunction d' _ _ _
  | undocumentedParam => exact hstay (by decide) (Or.inl (Except.ok.inj he ▸ h))
  | endOfFunction =>
      refine hstay (by decide) (Or.inl (Except.ok.inj he ▸ h.of_same ?_))
      refine SamePlaces.trans ?_ (same_captureLine _ _)
      exact ⟨rfl, rfl, rfl, rfl, rfl, rfl, fun _ => id⟩
  | enableOption | disableOption => exact hstay (by decide) (h.applyDirective he)
  | openTable => exact absurd rfl ho
  | sourceTodo =>
      obtain ⟨d', hd', he⟩ := ok_of_bind he
      refine hstay (by decide) (Or.inl (Except.ok.inj he ▸ h.of_same ?_))
      exact (same_addKeyword hd').trans (same_flush d')
  | startComment => exact Or.inr (Except.ok.inj he ▸ h.freshGroup)
  | sourceLine =>
      exact hstay (by decide) (Or.inl (Except.ok.inj he ▸ h.of_same (same_captureLine d _)))
  | _ => cases hs

theorem run (h : d.Awaits i) {a : Action} (hs : a.before = .source) (ho : a ≠ .openTable)
    {line : Nat} {c : Captures} {x : Effect} (hx : a.run line c d = .ok x) :
    x.draft.Awaits i ∧ a ≠ .startComment ∧ x.next = none ∨ x.draft.Abandoned i := by
  obtain ⟨e, next, log⟩ := x
  cases Action.leads_of_run hx with
  | applied _ he => exact (h.apply hs ho he).imp_left fun hw => ⟨hw.1, hw.2, rfl⟩
  | undocumentedTable =>
      rw [finishCapture_of_none h.scratch]
      exact Or.inr ((grows_openTable _ _ _).abandoned i h.freshGroup)
  | undocumentedParam he =>
      have hcases := h.captureOr (fun _ hp => grows_declareParam hp) he
      exact hcases.imp_left fun hw => ⟨hw, by decide, rfl⟩
  | warned | untitled | documentedTable | documentedParam => cases hs

end Awaits

theorem mem_placed_addPlaced (hd : d.current.isSome) (e : Entry) :
    d.group ∈ (d.flush.addEntry e).place.placed := by
  have hsame : SamePlaces d (d.flush.addEntry e) := (same_flush d).trans (same_addEntry _ e)
  have hplace : (d.flush.addEntry e).group ∈ (d.flush.addEntry e).place.placed :=
    mem_placed_placeGroup (hsame.current ▸ hd) _
  rwa [hsame.group] at hplace

theorem mem_placed_openTable (hd : d.current.isSome) (key : String) (lead : Option String) :
    d.group ∈ (d.openTable key lead).placed :=
  @mem_placed_addPlaced { d with
    doc := { d.doc with params := putKey (stripDeclaration key) {} d.doc.params },
    table := some (stripDeclaration key) } hd _

/-- A line of source that opens a table places the current group, unless it is placed
already. -/
theorem mem_placed_leavePlacedGroup (hd : d.current.isSome) (key : String) (lead : Option String) :
    d.group ∈ ((Action.leavePlacedGroup d.finishCapture).openTable key lead).placed := by
  have hgroup := finishCapture_group d
  generalize hd' : d.finishCapture = d' at hgroup
  have hopened : d'.current.isSome := hd' ▸ (grows_finishCapture d).opened hd
  rw [← hgroup, Action.leavePlacedGroup]
  split
  · next hin =>
      obtain ⟨s, hs⟩ := Option.isSome_iff_exists.1 hopened
      have hmem : d'.group ∈ d'.placed := by
        rw [inSection, hs] at hin
        rw [placed, hs]
        simp only [Option.toList_some, List.flatMap_append, List.mem_append]
        exact Or.inr (by simpa using hin)
      exact ((grows_freshGroup d').trans (grows_openTable _ _ _)).placed.subset hmem
  · exact mem_placed_openTable hopened key lead

end Draft

/-! ## Readings of source -/

/-- In source, a line is taken by a rule of the given action. The reading is the one that
the rule acts on, be it when the line is evaluated first or when it is evaluated again. -/
structure TakenInSource (settings : Settings) (q : Request) (before : List String) (line : String)
    (a : Action) (g : Reading) (m : LineMatch) : Prop where
  met : ∃ g₀, readingAfter settings q before = .ok g₀ ∧
    ReflTransGen (settings.reader.Again (dropLineEnd line)) { g₀ with line := g₀.line + 1 } g
  state : g.state = Dialect.lua
  matched : Dialect.lua.matchLine (dropLineEnd line) g.entering = some m
  action : m.rule.action = some a

namespace Reading

variable {g : Reading}

/-- What is left of a line after the action of its rule only adds to the draft. -/
theorem Tracked.grows_line (hg : g.Tracked) {r : Reader} (hr : r.grammar = Dialect.grammar)
    {line : String} {m : LineMatch} (hm : g.state.matchLine line g.entering = some m) {e : Effect}
    (ha : act g m = .ok e) {left : Nat} {k : Reading} (hk : r.evaluateAll line left g = .ok k) :
    Draft.Grows e.draft k.draft := by
  have honce {g' : Reading} {again : Bool} (he : r.evaluate line g = .ok (g', again)) :
      Draft.Grows e.draft g'.draft := by
    rcases evaluate_cases he with ⟨hm', -⟩ | ⟨m', e', hm', ha', hcases⟩
    · cases hm.symm.trans hm'
    · obtain rfl : m = m' := Option.some.inj (hm.symm.trans hm')
      obtain rfl : e = e' := Except.ok.inj (ha.symm.trans ha')
      rcases hcases with ⟨-, -, hl⟩ | ⟨_, s, -, -, hl⟩
      · exact hl.draft ▸ .refl _
      · exact hl.draft ▸ State.grows_crossTo _ _ _
  rcases evaluateAll_cases hk with he | ⟨g', left', he, hk⟩
  · exact honce he
  · exact (honce he).trans ((hg.evaluate hr he).1.evaluateAll hr hk).2

theorem Tracked.inSource (hg : g.Tracked) (hs : g.state = Dialect.lua) : g.draft.InSource := by
  have hf := hg.fits
  rw [hs] at hf
  exact hf

end Reading

namespace TakenInSource

variable {settings : Settings} {q : Request} {before after : List String} {line : String}
  {a : Action} {g last : Reading} {m : LineMatch}

/-- Where the source can be read, the line is evaluated to its end and the lines after it
are read. -/
theorem goes_on (h : TakenInSource settings q before line a g m)
    (hlast : readingAfter settings q (before ++ line :: after) = .ok last) :
    g.Tracked ∧ ∃ left g₁, settings.reader.evaluateAll (dropLineEnd line) left g = .ok g₁ ∧
      readingAfter settings q (before ++ [line]) = .ok g₁ ∧
      settings.reader.feedAll g₁ after = .ok last := by
  have hmet : MetIn settings q before line g := h.met
  exact ⟨hmet.tracked, hmet.goes_on hlast⟩

theorem matchLine (h : TakenInSource settings q before line a g m) :
    g.state.matchLine (dropLineEnd line) g.entering = some m := by
  rw [h.state]
  exact h.matched

theorem mem_rules (h : TakenInSource settings q before line a g m) :
    m.rule ∈ Dialect.lua.rules :=
  State.matchLine_mem h.matched

theorem act_eq (h : TakenInSource settings q before line a g m) :
    act g m = a.run g.line m.captures g.draft := by
  rw [act, h.action]

/-- A note goes into the current group, and nothing else happens. -/
theorem note (h : TakenInSource settings q before line .sourceTodo g m)
    (hlast : readingAfter settings q (before ++ line :: after) = .ok last) :
    ∃ kind : SpanKind, kind.name = m.captures.text 1 ∧ ∃ g₁ kept,
      readingAfter settings q (before ++ [line]) = .ok g₁ ∧
      settings.reader.feedAll g₁ after = .ok last ∧ g₁.state = Dialect.lua ∧
      Draft.SamePlaces g.draft g₁.draft ∧
      g₁.draft.doc.store.Shows g.draft.group (kept ++
        [.span { kind, text := some (Draft.withoutHyphen (m.captures.text 2)) }]) := by
  obtain ⟨hpattern, hnext⟩ := Dialect.sourceTodo_rule h.mem_rules h.action
  have hread := State.matchLine_read h.matched
  rw [hpattern] at hread
  obtain ⟨⟨kind, hkind⟩, hline⟩ := Dialect.note_captures hread
  obtain ⟨hg, left, g₁, hleft, hafter, hrest⟩ := h.goes_on hlast
  let d := g.draft.addSpan kind (m.captures.text 2)
  have hact : act g m = .ok { draft := d.flush } := by
    rw [h.act_eq, Action.run_plain rfl, Action.apply, Draft.addKeyword, ← hkind,
      SpanKind.ofName?_name]
    rfl
  obtain ⟨g', he, hl⟩ := @evaluate_of_stay settings.reader _ g m _ h.matchLine hact
    (by rw [hnext]; rfl)
  obtain rfl : g' = g₁ := evaluateAll_of_done he hleft
  have hsame : Draft.SamePlaces g.draft d := Draft.same_addSpan _ _ _
  have hshows := Draft.shows_flush (Draft.addSpan_pending g.draft kind hline)
    (hsame.group ▸ hsame.holds _ hg.placed.group)
  refine ⟨kind, hkind, g', (d.doc.store.get d.group).entries, hafter, hrest, hl.state.trans h.state,
    ?_, ?_⟩
  · rw [hl.draft]
    exact hsame.trans (Draft.same_flush d)
  · rw [hl.draft, ← hsame.group]
    exact hshows

/-- A line that opens a table places the current group. -/
theorem table (h : TakenInSource settings q before line .openTable g m)
    (hlast : readingAfter settings q (before ++ line :: after) = .ok last) :
    g.draft.group ∈ last.draft.placed := by
  obtain ⟨hg, left, g₁, hleft, -, hrest⟩ := h.goes_on hlast
  have hact : act g m = .ok { draft :=
      (Action.leavePlacedGroup g.draft.finishCapture).openTable (m.captures.text 0) none } := by
    rw [h.act_eq]
    rfl
  have hplaced := Draft.mem_placed_leavePlacedGroup (hg.inSource h.state).opened
    (m.captures.text 0) none
  have hline := hg.grows_line rfl h.matchLine hact hleft
  have hlines := ((hg.evaluateAll rfl hleft).1.feedAll rfl hrest).2
  exact (hline.trans hlines).placed.subset hplaced

end TakenInSource

/-! ## Readings in which a group waits -/

/-- The rules of source stay in source, unless they start a table or a comment. -/
theorem Dialect.lua_stays :
    ∀ r ∈ lua.rules, r.action.any fun a =>
      a.before = .source && (a = .openTable || a = .startComment || r.next = .stay) := by
  decide

namespace Reading

/-- Source is read, and a group waits for a section. -/
structure Waits (g : Reading) (i : GroupId) : Prop where
  state : g.state = Dialect.lua
  draft : g.draft.Awaits i

variable {r : Reader} {line : String} {g k : Reading} {i : GroupId}

/-- Unless a line opens a table, the group goes on waiting or is abandoned. -/
theorem Waits.evaluateAll (h : g.Waits i) (hg : g.Tracked) (hr : r.grammar = Dialect.grammar)
    {left : Nat} (hk : r.evaluateAll line left g = .ok k) :
    (∃ m, Dialect.lua.matchLine line g.entering = some m ∧ m.rule.action = some .openTable) ∨
      k.Waits i ∨ k.draft.Abandoned i := by
  cases hm : g.state.matchLine line g.entering with
  | none =>
      obtain ⟨g', he, hl⟩ := @evaluate_of_none r line g hm
      refine Or.inr (Or.inl ?_)
      rw [← evaluateAll_of_done he hk]
      exact ⟨hl.state.trans h.state, hl.draft ▸ h.draft⟩
  | some m =>
      rw [← h.state]
      have hrule := Dialect.lua_stays m.rule (h.state ▸ State.matchLine_mem hm)
      obtain ⟨a, ha, hrule⟩ := (Option.any_eq_true _ _).1 hrule
      rw [Bool.and_eq_true, decide_eq_true_eq] at hrule
      obtain ⟨hsource, hnext⟩ := hrule
      -- a rule that leaves the group waiting stays in source, and the others abandon it first
      by_cases ho : a = .openTable
      · exact Or.inl ⟨m, hm, ho ▸ ha⟩
      · right
        cases hact : act g m with
        | error f =>
            have he := @evaluate_of_error r line g m f hm hact
            rcases evaluateAll_cases hk with he' | ⟨_, _, he', -⟩ <;> cases he.symm.trans he'
        | ok e =>
            have hrun := hact
            rw [act, ha] at hrun
            rcases h.draft.run hsource ho hrun with ⟨hwaits, hcomment, hn⟩ | habandoned
            · left
              have hstay : m.rule.next = .stay := by simpa [ho, hcomment] using hnext
              obtain ⟨g', he, hl⟩ := @evaluate_of_stay r line g m e hm hact
                (by rw [hn, hstay]; rfl)
              rw [← evaluateAll_of_done he hk]
              exact ⟨hl.state.trans h.state, hl.draft ▸ hwaits⟩
            · exact Or.inr ((hg.grows_line hr hm hact hk).abandoned i habandoned)

/-- The group waits to the end of a source, or is abandoned, unless a line on the way
opens a table. -/
theorem Waits.feedAll {settings : Settings} {q : Request} {after : List String} {last : Reading} :
    ∀ {before : List String} {g : Reading}, g.Waits i → readingAfter settings q before = .ok g →
      settings.reader.feedAll g after = .ok last →
      (∃ pre line post g' m, after = pre ++ line :: post ∧
        TakenInSource settings q (before ++ pre) line .openTable g' m ∧ g'.draft.group = i) ∨
      last.Waits i ∨ last.draft.Abandoned i := by
  induction after with
  | nil =>
      intro before g h _ hlast
      cases hlast
      exact Or.inr (Or.inl h)
  | cons line after ih =>
      intro before g h hbefore hlast
      have hg := readingAfter_tracked hbefore
      rw [feedAll_cons] at hlast
      obtain ⟨g₁, hfeed, hlast⟩ := ok_of_bind hlast
      have hwaits : Waits { g with line := g.line + 1 } i := ⟨h.state, h.draft⟩
      rcases hwaits.evaluateAll (hg.nextLine _) rfl hfeed with ⟨m, hm, ha⟩ | h₁ | habandoned
      · refine Or.inl ⟨[], line, after, { g with line := g.line + 1 }, m, rfl, ?_, h.draft.group⟩
        rw [List.append_nil]
        exact ⟨⟨g, hbefore, .refl⟩, h.state, hm, ha⟩
      · rcases ih h₁ (readingAfter_concat hbefore hfeed) hlast with
          ⟨pre, line', post, g', m, rfl, htaken, hgroup⟩ | hend
        · refine Or.inl ⟨line :: pre, line', post, g', m, rfl, ?_, hgroup⟩
          rw [List.append_assoc] at htaken
          exact htaken
        · exact Or.inr hend
      · exact Or.inr (Or.inr (((hg.feed rfl hfeed).1.feedAll rfl hlast).2.abandoned i habandoned))

end Reading

/-! ## The end of a source -/

end DocComment
