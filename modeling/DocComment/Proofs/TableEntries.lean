import DocComment.Proofs.Declarations
import DocComment.Proofs.Rewording

/-!
# The entries of a table and their documentation

What is written above an entry of a table is in the current group when the entry is met,
and nothing is pending then. An entry that is declared takes the group with it and a new
one is current, so nothing can move on to a later entry. An entry that `nodoc` keeps out
takes away that paragraph alone: the group stays the current one with everything else in
it, until a line starts a group of its own. So the documentation of such an entry goes to
the group of a later one if and only if no line between the two started a group.
`parsed_entriesApart` says what the group of the later entry has of it right after the
first one, that this is still there in the document unless it says `nodoc`, and that nothing
else that was read by then gets into the group: all further entries of the group are the
same whatever was said before.

The proof rests on two properties of everything that is written. A group that is no longer
the current one never is again (`Draft.Adds.group`), which here is followed from line to
line (`Draft.MovesOn`). The group of a later entry is then the one that the first entry
left current, or it was not there yet. And such a group gets the same entries in whatever
words the source was read so far (`Reading.rewords_feedAll`).
-/

namespace DocComment

open Text Relation Reader

/-! ## Groups that were left -/

namespace Draft

/-- The second draft comes after the first one, and its current group is the same one or a
new one. -/
structure MovesOn (d e : Draft) : Prop where
  held : ∀ i, d.doc.store.Holds i → e.doc.store.Holds i
  group : e.group = d.group ∨ ¬ d.doc.store.Holds e.group

variable {except : Option GroupId} {d e f : Draft}

theorem MovesOn.refl (d : Draft) : MovesOn d d :=
  ⟨fun _ => id, Or.inl rfl⟩

theorem MovesOn.trans (h : MovesOn d e) (h' : MovesOn e f) : MovesOn d f := by
  refine ⟨fun i hi => h'.held i (h.held i hi), ?_⟩
  rcases h'.group with hg | hg
  · rw [hg]
    exact h.group
  · exact Or.inr fun hd => hg (h.held _ hd)

theorem Adds.movesOn (h : Adds except d e) : MovesOn d e :=
  ⟨h.held, h.group⟩

end Draft

namespace Reading

open Draft

variable {r : Reader} {line : String} {g g' : Reading}

theorem Tracked.movesOn_feed (hg : g.Tracked) (hr : r.grammar = Dialect.grammar)
    (h : r.feed g line = .ok g') : MovesOn g.draft g'.draft := by
  obtain ⟨g₁, d, -, hbefore, hwritten, hafter⟩ := hg.toCoherent.written_feed hr h
  rcases adds_or_loses hbefore hwritten hafter with hadds | ⟨-, hloses⟩
  · exact hadds.movesOn
  · exact hloses.adds.movesOn

theorem Tracked.movesOn_feedAll (hg : g.Tracked) (hr : r.grammar = Dialect.grammar)
    {lines : List String} (h : r.feedAll g lines = .ok g') : MovesOn g.draft g'.draft := by
  have hkeeps : g'.Tracked ∧ MovesOn g.draft g'.draft := by
    refine feedAll_keeps (P := fun k => k.Tracked ∧ MovesOn g.draft k.draft) ?_ ⟨hg, .refl _⟩ h
    intro g₁ g₂ line hg₁ hf
    exact ⟨(hg₁.1.feed hr hf).1, hg₁.2.trans (hg₁.1.movesOn_feed hr hf)⟩
  exact hkeeps.2

end Reading

/-! ## Entries -/

namespace Action

open Draft

/-- The actions that take a line for an entry of a table. -/
def takesEntry : List Action :=
  [tableParam, listParam, sameLineParam]

variable {a : Action} {line : Nat} {c : Captures} {d e f : Draft} {x : Item}

/-- An entry is declared on the current group, or on a new one if its comment is on the
same line. -/
theorem offered?_of_takesEntry (ha : a ∈ takesEntry) (h : a.offered? c d = some (e, x)) :
    x.kind = .param ∧ (e = d.flush ∨
      ∃ text d', d.flush.freshGroup.appendText text false = .ok d' ∧ e = d'.flush) := by
  simp only [takesEntry, List.mem_cons, List.not_mem_nil, or_false] at ha
  rcases ha with rfl | rfl | rfl
  · cases h
    exact ⟨rfl, Or.inl rfl⟩
  · cases h
    exact ⟨rfl, Or.inl rfl⟩
  · rw [offered?] at h
    split at h
    · next d' hd' =>
        cases h
        exact ⟨rfl, Or.inr ⟨_, d', hd', rfl⟩⟩
    · cases h

theorem writes_of_takesEntry (ha : a ∈ takesEntry) (h : a.offered? c d = some (e, x)) :
    Writes d e := by
  rcases (offered?_of_takesEntry ha h).2 with rfl | ⟨text, d', hd', rfl⟩
  · exact writes_flush d
  · exact (((writes_flush d).trans (Write.freshGroup _).writes).trans (writes_appendText hd')).trans
      (writes_flush d')

theorem quiet_of_takesEntry (ha : a ∈ takesEntry) (h : a.offered? c d = some (e, x)) :
    Quiet d e := by
  rcases (offered?_of_takesEntry ha h).2 with rfl | ⟨text, d', hd', rfl⟩
  · exact quiet_flush d
  · exact (((quiet_flush d).trans (quiet_freshGroup _)).trans (quiet_appendText hd')).trans
      (quiet_flush d')

theorem pending_of_takesEntry (ha : a ∈ takesEntry) (h : a.offered? c d = some (e, x)) :
    e.pending = none := by
  rcases (offered?_of_takesEntry ha h).2 with rfl | ⟨text, d', -, rfl⟩
  · exact flush_pending d
  · exact flush_pending d'

/-- The action does nothing but declare the entry. -/
theorem run_of_takesEntry (ha : a ∈ takesEntry) (hoff : a.offered? c d = some (e, x)) {y : Effect}
    (h : a.run line c d = .ok y) : e.declare x = .ok y.draft ∧ y.next = none := by
  simp only [takesEntry, List.mem_cons, List.not_mem_nil, or_false] at ha
  rcases ha with rfl | rfl | rfl
  · cases hoff
    obtain ⟨f, hf, h⟩ := ok_of_bind h
    cases h
    exact ⟨hf, rfl⟩
  · cases hoff
    obtain ⟨f, hf, h⟩ := ok_of_bind h
    cases h
    exact ⟨hf, rfl⟩
  · obtain ⟨f, hf, h⟩ := ok_of_bind h
    obtain ⟨d', hd', hf⟩ := ok_of_bind hf
    rw [offered?, hd'] at hoff
    cases hoff
    cases h
    exact ⟨hf, rfl⟩

end Action

/-- A line that is taken for an entry of a table is not evaluated again. -/
theorem Dialect.takesEntry_stays :
    ∀ s ∈ states, ∀ r ∈ s.rules, r.action.any (· ∈ Action.takesEntry) →
      r.next = .stay ∧ s.phase = .table := by
  decide

/-- A line of a source is taken for an entry of a table. The draft is the one that the
entry is declared on, so its current group is the group of the entry. -/
structure TakenAsEntry (settings : Settings) (q : Request) (before : List String) (line : String)
    (a : Action) (g : Reading) (d : Draft) : Prop where
  met : MetIn settings q before line g
  entry : a ∈ Action.takesEntry
  offered : ∃ m x, g.state.matchLine (dropLineEnd line) g.entering = some m ∧
    m.rule.action = some a ∧ a.offered? m.captures g.draft = some (d, x)

namespace Draft

variable {d e : Draft} {x : Item}

/-- A parameter leaves a new group behind, in which there is nothing yet. -/
theorem entries_of_declared (hx : x.kind = .param) (hkeep : d.discardNodoc? = none)
    (h : d.declare x = .ok e) : (e.doc.store.get e.group).entries = [] := by
  cases x with
  | param key definition kind =>
      rcases declareParam_cases h with hskip | ⟨-, f, -, rfl⟩
      · cases hkeep.symm.trans hskip
      · exact congrArg Group.entries (GroupStore.get_insert_nextId _ _)
  | _ => cases hx

/-- An item that is kept out leaves everything but its `nodoc`. -/
theorem entries_of_skipped (hd : d.doc.store.Holds d.group) (hp : d.pending = none)
    (h : d.discardNodoc? = some e) :
    e.group = d.group ∧ (e.doc.store.get d.group).entries = d.currentGroup.entries.dropLast := by
  rw [discardNodoc?, hp, Option.any_none, if_neg Bool.false_ne_true] at h
  split at h
  · cases h
    exact ⟨rfl, congrArg Group.entries (GroupStore.get_update_self hd _)⟩
  · cases h

end Draft

namespace TakenAsEntry

open Draft

variable {settings : Settings} {q : Request} {before between : List String} {line line' : String}
  {a b : Action} {g g' k : Reading} {d e : Draft}

theorem movesOn (h : TakenAsEntry settings q before line a g d) : MovesOn g.draft d := by
  obtain ⟨m, x, -, -, hoff⟩ := h.offered
  exact (Action.writes_of_takesEntry h.entry hoff).adds.movesOn

theorem held (h : TakenAsEntry settings q before line a g d) : d.doc.store.Holds d.group := by
  obtain ⟨m, x, -, -, hoff⟩ := h.offered
  exact ((Action.quiet_of_takesEntry h.entry hoff).group h.met.tracked.placed.group).1

theorem pending (h : TakenAsEntry settings q before line a g d) : d.pending = none := by
  obtain ⟨m, x, -, -, hoff⟩ := h.offered
  exact Action.pending_of_takesEntry h.entry hoff

theorem phase (h : TakenAsEntry settings q before line a g d) {m : LineMatch}
    (hm : g.state.matchLine (dropLineEnd line) g.entering = some m) (ha : m.rule.action = some a) :
    m.rule.next = .stay ∧ g.state.phase = .table := by
  refine Dialect.takesEntry_stays _ h.met.tracked.state _ (State.matchLine_mem hm) ?_
  rw [ha]
  exact decide_eq_true h.entry

/-- The line declares the entry and ends with that, in the state of the table. -/
theorem declares (h : TakenAsEntry settings q before line a g d) {left : Nat}
    (hk : settings.reader.evaluateAll (dropLineEnd line) left g = .ok k) :
    k.state.phase = .table ∧ ∃ x : Item, x.kind = .param ∧ d.declare x = .ok k.draft := by
  obtain ⟨m, x, hm, ha, hoff⟩ := h.offered
  obtain ⟨hstay, hphase⟩ := h.phase hm ha
  have honce {k : Reading} {again : Bool}
      (he : settings.reader.evaluate (dropLineEnd line) g = .ok (k, again)) :
      again = false ∧ k.state = g.state ∧ d.declare x = .ok k.draft := by
    rcases evaluate_cases he with ⟨hm', -⟩ | ⟨m', y, hm', hact, hcases⟩
    · cases hm.symm.trans hm'
    · obtain rfl : m = m' := Option.some.inj (hm.symm.trans hm')
      rw [act, ha] at hact
      obtain ⟨hdeclare, hnext⟩ := Action.run_of_takesEntry h.entry hoff hact
      rw [hnext, Option.getD_none, hstay] at hcases
      rcases hcases with ⟨-, hagain, hl⟩ | ⟨_, _, ht, -⟩
      · exact ⟨hagain, hl.state, hl.draft ▸ hdeclare⟩
      · cases ht
  rcases evaluateAll_cases hk with he | ⟨_, _, he, -⟩
  · obtain ⟨-, hstate, hdeclare⟩ := honce he
    exact ⟨hstate ▸ hphase, x, (Action.offered?_of_takesEntry h.entry hoff).1, hdeclare⟩
  · cases (honce he).1

/-- Right after an entry, the group of a later one shows what the first entry left, if
`nodoc` kept it out and its group is that of the later one; and otherwise it shows
nothing. -/
theorem mem_entries_iff (h : TakenAsEntry settings q before line a g d) {left : Nat}
    (hk : settings.reader.evaluateAll (dropLineEnd line) left g = .ok k)
    (hlater : MovesOn k.draft e) (y : Entry) :
    y ∈ (k.draft.doc.store.get e.group).entries ↔
      d.discardNodoc?.isSome ∧ e.group = d.group ∧ y ∈ d.currentGroup.entries.dropLast := by
  obtain ⟨-, x, hx, hdeclare⟩ := h.declares hk
  rcases declare_cases h.held hdeclare with hskip | ⟨hkeep, hdeclared⟩
  · obtain ⟨hgroup, hentries⟩ := entries_of_skipped h.held h.pending hskip
    have hheld : k.draft.doc.store.Holds d.group := (quiet_discardNodoc? hskip).held _ h.held
    rcases hlater.group with hsame | hnew
    · rw [hsame, hgroup, hentries]
      simp [hskip]
    · rw [GroupStore.get_of_not_holds hnew]
      refine ⟨fun hy => absurd hy List.not_mem_nil, fun ⟨_, hgroup', _⟩ => ?_⟩
      exact absurd (hgroup' ▸ hheld) hnew
  · refine ⟨fun hy => ?_, fun ⟨hskip, _⟩ => by simp [hkeep] at hskip⟩
    rcases hlater.group with hsame | hnew
    · rw [hsame, entries_of_declared hx hkeep hdeclare] at hy
      exact absurd hy List.not_mem_nil
    · rw [GroupStore.get_of_not_holds hnew] at hy
      exact absurd hy List.not_mem_nil

/-- Everything that was read before an entry and with it is in some group then. -/
theorem settled (h : TakenAsEntry settings q before line a g d) {left : Nat}
    (hk : settings.reader.evaluateAll (dropLineEnd line) left g = .ok k) :
    k.draft.pending = none := by
  obtain ⟨-, x, hx, hdeclare⟩ := h.declares hk
  cases x with
  | param key definition kind => exact declareParam_pending h.pending hdeclare
  | _ => cases hx

/-- The group of an entry is there when the source ends. -/
theorem held_finish {after : List String} {last : Reading}
    (h : TakenAsEntry settings q before line a g d)
    (hlast : readingAfter settings q (before ++ line :: after) = .ok last) :
    (Reader.finish last).draft.doc.store.Holds d.group := by
  obtain ⟨left, k, heval, hk, hrest⟩ := h.met.goes_on hlast
  obtain ⟨-, x, -, hdeclare⟩ := h.declares heval
  have hheld : k.draft.doc.store.Holds d.group := by
    rcases declare_cases h.held hdeclare with hskip | ⟨-, hdeclared⟩
    · exact (quiet_discardNodoc? hskip).held _ h.held
    · exact hdeclared.held _ h.held
  exact last.writes_finish.adds.held _
    (((readingAfter_tracked hk).movesOn_feedAll rfl hrest).held _ hheld)

/-- What comes between two entries leads from the reading after the first one to the group
of the second one. -/
theorem movesOn_between (hk : readingAfter settings q (before ++ [line]) = .ok k)
    (h : TakenAsEntry settings q (before ++ line :: between) line' b g' e) :
    MovesOn k.draft e := by
  obtain ⟨g₀, hg₀, hagain⟩ := h.met
  have hbetween : settings.reader.feedAll k between = .ok g₀ := by
    rw [List.append_cons, readingAfter_append, hk] at hg₀
    exact hg₀
  have hg := readingAfter_tracked hg₀
  have hnext : Reading.Coherent { g₀ with line := g₀.line + 1 } := ⟨hg.state, hg.fits⟩
  have hfirst := (readingAfter_tracked hk).movesOn_feedAll rfl hbetween
  exact (hfirst.trans (hnext.writes_of_again rfl hagain).adds.movesOn).trans h.movesOn

end TakenAsEntry

/-! ## Documents -/

/-- An entry at a place of a group stays there, unless it says `nodoc`. -/
theorem GroupStore.Keeps.getElem? {s t : GroupStore} (h : s.Keeps t) {i : GroupId} {n : Nat}
    {y : Entry} (hn : ¬ y.isNodoc) (hy : (s.get i).entries[n]? = some y) :
    (t.get i).entries[n]? = some y := by
  have hlt : n < (s.get i).entries.length := (List.getElem?_eq_some_iff.1 hy).1
  have hlast : ((s.get i).entries.take (n + 1)).getLast? = some y := by
    rw [List.getLast?_take, if_neg (Nat.succ_ne_zero n), Nat.add_sub_cancel, hy, Option.some_or]
  have hshows : s.Shows i ((s.get i).entries.take (n + 1)) := by
    refine ⟨List.take_prefix _ _, ?_⟩
    rw [hlast, Option.any_some]
    exact hn
  obtain ⟨rest, hrest⟩ := (h i _ hshows).1
  rw [← hrest, List.getElem?_append_left (by rw [List.length_take]; omega),
    List.getElem?_take_of_lt (Nat.lt_succ_self n), hy]

/-- What the group of an entry has of what was read before, up to an earlier entry. The
reading is the one after the earlier entry, and the drafts are those that the two are
declared on. -/
structure Document.EntriesApart (doc : Document) (settings : Settings) (k : Reading)
    (rest : List String) (d e : Draft) : Prop where
  /-- By then everything that was read is in some group. -/
  settled : k.draft.pending = none
  /-- Of that the later entry gets what the earlier one left when `nodoc` kept it out, if
  no group was started between the two, and nothing otherwise. -/
  inherits : ∀ y : Entry, y ∈ (k.draft.doc.store.get e.group).entries ↔
    d.discardNodoc?.isSome ∧ e.group = d.group ∧ y ∈ d.currentGroup.entries.dropLast
  /-- What it gets it keeps, but for a further `nodoc`. -/
  stays : ∀ (n : Nat) (y : Entry), ¬ y.isNodoc →
    (k.draft.doc.store.get e.group).entries[n]? = some y →
      (doc.store.get e.group).entries[n]? = some y
  /-- All that it has besides comes from the rest of the source: it is the same in
  whatever words the source was read so far. -/
  apart : ∀ d', k.draft.Rewords d' → ∃ last n later,
    settings.reader.feedAll { k with draft := d' } rest = .ok last ∧
      (doc.store.get e.group).entries =
        (k.draft.doc.store.get e.group).entries.take n ++ later ∧
      ((finishReading last).1.store.get e.group).entries =
        (d'.doc.store.get e.group).entries.take n ++ later

/-- What is written above an entry of a table goes to no later entry: of any two lines of
the source that are taken for entries, the group of the later one has of what was read up
to the earlier one only what that left there. -/
def Document.KeepsEntriesApart (doc : Document) (settings : Settings) (q : Request)
    (lines : List String) : Prop :=
  ∀ before line between line' after a g d b g' e,
    lines = before ++ line :: (between ++ line' :: after) →
    TakenAsEntry settings q before line a g d →
    TakenAsEntry settings q (before ++ line :: between) line' b g' e →
      ∃ k, readingAfter settings q (before ++ [line]) = .ok k ∧
        doc.EntriesApart settings k (between ++ line' :: after) d e

theorem finishReading_keepsEntriesApart {settings : Settings} {q : Request}
    {lines : List String} {last : Reading} (h : readingAfter settings q lines = .ok last) :
    (finishReading last).1.KeepsEntriesApart settings q lines := by
  rintro before line between line' after a g d b g' e rfl hline hlater
  obtain ⟨left, k, heval, hk, hrest⟩ := hline.met.goes_on h
  have hmoves := hlater.movesOn_between hk
  have hsource :
      readingAfter settings q ((before ++ line :: between) ++ line' :: after) = .ok last := by
    rwa [List.append_assoc, List.cons_append]
  have hheld := hlater.held_finish hsource
  have htracked := readingAfter_tracked hk
  have hscratch : k.draft.scratch = none := by
    have hfits := htracked.fits
    rw [(hline.declares heval).1] at hfits
    exact Draft.InTable.scratch hfits
  refine ⟨k, hk, hline.settled heval, hline.mem_entries_iff heval hmoves, fun n y hn hy => ?_,
    fun d' hd' => ?_⟩
  · have hgrows : Draft.Grows k.draft (Reader.finish last).draft :=
      (htracked.feedAll rfl hrest).2.trans last.grows_finish
    rw [(finishReading_wellFormed h).1.groups.2 _ hheld]
    exact hgrows.entries.getElem? hn hy
  · exact Reading.rewords_feedAll rfl htracked hscratch hd' hmoves.group hrest hheld

/-- Whichever way a source is given, if it can be parsed then what is written above an
entry of a table goes to no later entry, unless `nodoc` kept the first one out and no line
between the two started a group. -/
theorem parsed_entriesApart (settings : Settings) :
    (∀ q lines doc log, parseLines settings q lines = .ok (doc, log) →
      doc.KeepsEntriesApart settings q lines) ∧
    (∀ q text doc log, parse settings q text = .ok (doc, log) →
      doc.KeepsEntriesApart settings q (Text.lines text)) ∧
    ∀ path encoding bytes doc log, parseFile settings path encoding bytes = .ok (doc, log) →
      ∃ bs, bytes = some bs ∧ doc.KeepsEntriesApart settings { file := some path }
        (Source.readFile encoding bs).lines :=
  forall_parsed finishReading_keepsEntriesApart

/-- Two entries of a table with a comment each: nothing of the first one goes to the
second one. -/
theorem parsed_entriesApart_comments :
    ∃ doc log g d g' e k,
      parseLines {} { name := some "d" } (["// # T", "", "t = \x7b // doc", "// x"] ++ "a: 1," ::
        (["// y"] ++ "b: 2," :: ["\x7d"])) = .ok (doc, log) ∧
      TakenAsEntry {} { name := some "d" } ["// # T", "", "t = \x7b // doc", "// x"] "a: 1,"
        .tableParam g d ∧
      TakenAsEntry {} { name := some "d" }
        (["// # T", "", "t = \x7b // doc", "// x"] ++ "a: 1," :: ["// y"]) "b: 2," .tableParam g'
        e ∧
      doc.EntriesApart {} k (["// y"] ++ "b: 2," :: ["\x7d"]) d e := by
  have hline : TakenAsEntry {} { name := some "d" } ["// # T", "", "t = \x7b // doc", "// x"]
      "a: 1," .tableParam _ _ :=
    ⟨⟨_, rfl, .single rfl⟩, by decide, _, _, rfl, rfl, rfl⟩
  have hlater : TakenAsEntry {} { name := some "d" }
      (["// # T", "", "t = \x7b // doc", "// x"] ++ "a: 1," :: ["// y"]) "b: 2,"
      .tableParam _ _ :=
    ⟨⟨_, rfl, .single rfl⟩, by decide, _, _, rfl, rfl, rfl⟩
  have hok : (parseLines {} { name := some "d" } (["// # T", "", "t = \x7b // doc", "// x"] ++
      "a: 1," :: (["// y"] ++ "b: 2," :: ["\x7d"]))).toOption.any fun _ => true := by
    decide +kernel
  obtain ⟨x, hp, -⟩ := exists_ok_of_any hok
  obtain ⟨k, -, hapart⟩ := (parsed_entriesApart {}).1 _ _ _ _ hp _ _ _ _ _ _ _ _ _ _ _ rfl hline
    hlater
  exact ⟨x.1, x.2, _, _, _, _, k, hp, hline, hlater, hapart⟩

/-- The text above an entry that `nodoc` keeps out becomes the documentation of the next
entry. -/
theorem kept_out_text_inherited :
    ∃ doc log g d g' e k,
      parseLines {} { name := some "d" }
        (["// # T", "", "const A = \x7b // doc", "// text", "//", "// nodoc"] ++ "a: 1," ::
          ([] ++ "b: 2," :: ["\x7d"])) = .ok (doc, log) ∧
      TakenAsEntry {} { name := some "d" }
        ["// # T", "", "const A = \x7b // doc", "// text", "//", "// nodoc"] "a: 1,"
        .tableParam g d ∧
      TakenAsEntry {} { name := some "d" }
        (["// # T", "", "const A = \x7b // doc", "// text", "//", "// nodoc"] ++ "a: 1," :: [])
        "b: 2," .tableParam g' e ∧
      readingAfter {} { name := some "d" }
        (["// # T", "", "const A = \x7b // doc", "// text", "//", "// nodoc"] ++
          ["a: 1,"]) = .ok k ∧
      Entry.paragraph ⟨some "text", none⟩ ∈ (k.draft.doc.store.get e.group).entries ∧
      Entry.paragraph ⟨some "text", none⟩ ∈ (doc.store.get e.group).entries ∧
      ∃ t ∈ doc.params, e.group ∈ t.2.groups := by
  have hline : TakenAsEntry {} { name := some "d" }
      ["// # T", "", "const A = \x7b // doc", "// text", "//", "// nodoc"] "a: 1,"
      .tableParam _ _ :=
    ⟨⟨_, rfl, .single rfl⟩, by decide, _, _, rfl, rfl, rfl⟩
  have hlater : TakenAsEntry {} { name := some "d" }
      (["// # T", "", "const A = \x7b // doc", "// text", "//", "// nodoc"] ++ "a: 1," :: [])
      "b: 2," .tableParam _ _ :=
    ⟨⟨_, rfl, .refl⟩, by decide, _, _, rfl, rfl, rfl⟩
  have hmoved : (parseLines {} { name := some "d" }
      (["// # T", "", "const A = \x7b // doc", "// text", "//", "// nodoc"] ++ "a: 1," ::
        ([] ++ "b: 2," :: ["\x7d"]))).toOption.any fun x =>
      Entry.paragraph ⟨some "text", none⟩ ∈ (x.1.store.get ⟨4⟩).entries ∧
        x.1.params.any fun t => decide (⟨4⟩ ∈ t.2.groups) := by
    decide +kernel
  obtain ⟨x, hp, hx⟩ := exists_ok_of_any hmoved
  obtain ⟨hmem, hlisted⟩ := of_decide_eq_true hx
  obtain ⟨t, ht, hgroup⟩ := List.any_eq_true.1 hlisted
  exact ⟨x.1, x.2, _, _, _, _, _, hp, hline, hlater, rfl, List.mem_cons_self, hmem, t, ht,
    of_decide_eq_true hgroup⟩

end DocComment
