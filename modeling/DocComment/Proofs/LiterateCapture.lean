import DocComment.Proofs.BackReferences
import DocComment.Proofs.CodeBlocks

/-!
# Captured source is kept

While source is captured, a line that is the code of a program changes nothing but the
capture: it is added to it as it stands, even where it would declare something outside of
literate mode. What was captured goes into its group when source is left, when literate
mode is switched off, and at the end. `capture_lossless` says both of any lines, one after
another.

There are several ways to leave source, and more than one place ends the capture: actions
do so on their own, and the hook of the state does so again. `Draft.Delivers` is what all
of them come to. A capture that has ended is left alone by the hook, so it matters only
what an action adds in between: a table gets a line of its own, and that goes to a new
group as soon as there is any code in the old one (`Delivers.openTable`).
-/

namespace DocComment

open Text Pattern Dialect Relation Reader

/-! ## Literate mode is permitted -/

namespace Draft

/-- The options that directives may set are these, and literate mode is on only if it is
one of them. -/
structure Permits (options : List String) (d : Draft) : Prop where
  allowed : d.allowedOptions = options
  literate : d.doc.literate → "lit" ∈ options

variable {options : List String} {d e f : Draft}

theorem Write.allowedOptions (h : Write d e) : e.allowedOptions = d.allowedOptions := by
  cases h with
  | listSpan s =>
      rw [Draft.listSpan]
      split <;> rfl
  | @declare f _ _ _ _ h =>
      obtain ⟨params, libParams, rfl⟩ := register_cases h
      rfl
  | remember | freshGroup | addEntry | describe | placeGroup | opened | clearTable => rfl

theorem Writes.allowedOptions (h : Writes d e) : e.allowedOptions = d.allowedOptions := by
  induction h with
  | refl => rfl
  | tail _ hw ih => exact hw.allowedOptions.trans ih

theorem Written.allowedOptions {declares : Prop} (h : Written declares d e) :
    e.allowedOptions = d.allowedOptions := by
  obtain ⟨d', hw, rfl | ⟨-, -, rfl⟩⟩ := h
  · exact hw.allowedOptions
  · exact hw.allowedOptions

theorem openTable_literate (d : Draft) (key : String) (lead : Option String) :
    (d.openTable key lead).doc.literate = d.doc.literate :=
  (frame_addTableStart { d with
    doc := { d.doc with params := putKey (stripDeclaration key) {} d.doc.params },
    table := some (stripDeclaration key) } (stripDeclaration key) lead).literate

theorem ensureSection_literate (d : Draft) (reason : Option Template) :
    (d.ensureSection reason).1.doc.literate = d.doc.literate := by
  unfold ensureSection
  split
  · rfl
  · exact (frame_openSection d d.doc.fullname).literate

/-- A directive switches literate mode on only where that is permitted. -/
theorem applyDirective_literate {option : String} {enabled : Bool} {line : Option Int}
    (h : d.applyDirective option enabled line = .ok e) :
    e.doc.literate = d.doc.literate ∨ "lit" ∈ d.allowedOptions := by
  rw [applyDirective] at h
  split at h
  · next mode hmode =>
      split at h
      · next hallowed =>
          split at h
          · right
            unfold Mode.ofOption? at hmode
            split at hmode
            · exact List.contains_iff_mem.1 hallowed
            · cases hmode
            · cases hmode
          · exact Or.inl (Except.ok.inj h ▸ (frame_setLoose d enabled).literate)
      · cases h
  · cases h

end Draft

namespace Action

open Draft

variable {d e : Draft}

theorem apply_literate {a : Action} {line : Nat} {c : Captures} (h : a.apply line c d = .ok e) :
    e.doc.literate = d.doc.literate ∨ "lit" ∈ d.allowedOptions := by
  by_cases ha : a.onlyWrites
  · exact Or.inl (frame_apply ha h).literate
  · cases a with
    | preambleSection => exact Or.inl (Except.ok.inj h ▸ (frame_openSection d (c.text 0)).literate)
    | enableOption | disableOption => exact applyDirective_literate h
    | openTable =>
        refine Or.inl (Except.ok.inj h ▸ (openTable_literate _ _ _).trans ?_)
        exact (frame_leavePlacedGroup _).literate.trans (frame_finishCapture d).literate
    | paramsComment => exact Or.inl (Except.ok.inj h ▸ (frame_entryGroup d).literate)
    | paramsBlockComment =>
        obtain ⟨d', hd', h⟩ := ok_of_bind h
        refine Or.inl (Except.ok.inj h ▸ (frame_addTrailing hd').literate.trans ?_)
        exact (frame_entryGroup d).literate
    | closeTable => exact Or.inl (Except.ok.inj h ▸ (frame_addTableEnd d).literate)
    | _ => exact absurd rfl ha

theorem run_literate {a : Action} {line : Nat} {c : Captures} {x : Effect}
    (h : a.run line c d = .ok x) :
    x.draft.doc.literate = d.doc.literate ∨ "lit" ∈ d.allowedOptions := by
  obtain ⟨e, next, log⟩ := x
  cases leads_of_run h with
  | applied ha h => exact apply_literate h
  | warned reason => exact Or.inl (ensureSection_literate d reason)
  | untitled => exact Or.inl (frame_openSection d d.doc.fullname).literate
  | documentedTable =>
      exact Or.inl ((openTable_literate _ _ _).trans (frame_leavePlacedGroup d).literate)
  | documentedParam h => exact Or.inl (frame_declareLibParam h).literate
  | undocumentedTable =>
      exact Or.inl ((openTable_literate _ _ _).trans (frame_finishCapture d).literate)
  | undocumentedParam h =>
      rcases captureOr_cases h with rfl | ⟨-, h⟩
      · exact Or.inl (frame_captureLine d _).literate
      · exact Or.inl ((frame_declareParam h).literate.trans (frame_flagUndocumented d).literate)

end Action

namespace Draft

variable {options : List String} {d e : Draft}

theorem Permits.of_literate (hd : d.Permits options) (hw : e.allowedOptions = d.allowedOptions)
    (hl : e.doc.literate = d.doc.literate ∨ "lit" ∈ d.allowedOptions) : e.Permits options := by
  refine ⟨hw.trans hd.allowed, fun h => ?_⟩
  rcases hl with hl | hl
  · exact hd.literate (hl ▸ h)
  · exact hd.allowed ▸ hl

theorem Permits.step (hd : d.Permits options) (h : Step d e) : e.Permits options := by
  cases h with
  | act hfits h =>
      exact hd.of_literate (Action.written_run hfits h).allowedOptions (Action.run_literate h)
  | leave =>
      exact hd.of_literate (writes_finishCapture d).allowedOptions
        (Or.inl (frame_finishCapture d).literate)
  | enter =>
      refine hd.of_literate (writes_enterSource d).allowedOptions (Or.inl ?_)
      rw [Hook.enterSource]
      split
      · rw [startCapture]
        split <;> split <;> rfl
      · rfl
  | ensure =>
      exact hd.of_literate (writes_ensureSection d _).allowedOptions
        (Or.inl (ensureSection_literate d _))
  | settle =>
      exact hd.of_literate (writes_flush d).allowedOptions (Or.inl (frame_flush d).literate)

theorem Permits.steps (hd : d.Permits options) (h : ReflTransGen Step d e) : e.Permits options := by
  induction h with
  | refl => exact hd
  | tail _ hs ih => exact ih.step hs

end Draft

/-- Wherever a reader comes to, literate mode is on only if it is permitted. -/
theorem Reader.Reaches.permits {r : Reader} (hr : r.grammar = Dialect.grammar) {doc : Document}
    {file : Option String} {language : String} {options : List String}
    (hdoc : doc.sections = []) (hliterate : doc.literate → "lit" ∈ options) {g₀ g : Reading}
    (h₀ : r.start Dialect.initial (Draft.start doc file language options) = .ok g₀)
    (h : r.Reaches g₀ g) : g.draft.Permits options := by
  have hcoherent := coherent_of_start hr hdoc h₀
  induction h with
  | start =>
      rw [Reader.start, hr] at h₀
      cases h₀
      exact ⟨rfl, hliterate⟩
  | read h hf ih => exact ih.steps ((h.coherent hr hcoherent).feed hr hf).2
  | amid h hs ih =>
      have hnext := (h.coherent hr hcoherent).next_line
      induction hs with
      | refl => exact ih
      | tail hagain he ih => exact ih.steps ((hnext.of_again hr hagain).1.evaluate hr he).2

/-! ## Lines that are captured -/

namespace CodeBlock

/-- Lines in one text, if there are any. -/
def joined : List String → Option String
  | [] => none
  | lines => some ("\n".intercalate lines)

theorem foldl_addLine_eq_joined (c : CodeBlock) (lines : List String) :
    lines.foldl addLine c = { c with text := joined (c.text.toList ++ lines) } := by
  cases h : c.text with
  | some t =>
      rw [foldl_addLine h]
      rfl
  | none =>
      cases lines with
      | nil =>
          show c = { c with text := none }
          rw [← h]
      | cons line lines =>
          have hadd : (c.addLine line).text = some line := by
            rw [addLine, h]
            rfl
          rw [List.foldl_cons, foldl_addLine hadd]
          rfl

end CodeBlock

/-- Whether a line that was matched in source is captured, if source is being captured. -/
def LineMatch.captured (m : LineMatch) : Bool :=
  match m.rule.action with
  | some .sourceLine | some .undocumentedFunction | some .endOfFunction => true
  | some .undocumentedParam => !Action.tableMarker.accepts (m.captures.text 2)
  | _ => false

/-- Whether a line that was matched in source starts a comment or opens a table. -/
def LineMatch.interrupts (m : LineMatch) : Bool :=
  match m.rule.action with
  | some .startComment | some .openTable => true
  | some .undocumentedParam => Action.tableMarker.accepts (m.captures.text 2)
  | _ => false

namespace Dialect

/-- Whether a line of source is captured, if source is being captured. -/
def isCaptured (line : String) : Bool :=
  (lua.matchLine line true).any LineMatch.captured

theorem matchFrom_of_entering {rules : List Rule} (h : ∀ r ∈ rules, r.onEntry = false)
    (index : Nat) (line : String) (entering : Bool) :
    matchFrom index rules line entering = matchFrom index rules line true := by
  induction rules generalizing index with
  | nil => rfl
  | cons r rules ih =>
      have hactive (entering : Bool) : r.active entering := by
        rw [Rule.active, h r List.mem_cons_self]
        rfl
      rw [matchFrom, matchFrom, if_pos (hactive entering), if_pos (hactive true),
        ih fun r hr => h r (List.mem_cons_of_mem _ hr)]

/-- No rule of source is for the first line only. -/
theorem lua_matchLine (line : String) (entering : Bool) :
    lua.matchLine line entering = lua.matchLine line true :=
  matchFrom_of_entering (by decide) 0 line entering

/-- A rule that captures does so with the whole line. -/
theorem text_of_wholeLine {p : Pattern} {line : String} (hn : '\n' ∉ line.toList)
    {captures : Captures} (h : (capture 0 p ++ stop).read? line = some captures) :
    captures.text 0 = line := by
  obtain ⟨t, marks, ht, hcaptures⟩ := read?_takes h
  obtain ⟨m, older, newer, ⟨inner, hp, rfl⟩, ⟨⟨rfl, hstop⟩, rfl⟩, rfl⟩ := ht
  have hend : t.rest = [] := by
    rw [atStop, Bool.or_eq_true, decide_eq_true_eq, decide_eq_true_eq] at hstop
    refine hstop.resolve_right fun hline => hn ?_
    exact hp.reads.suffix.subset (hline ▸ List.mem_singleton_self _)
  obtain ⟨n, hcount⟩ : ∃ n, (capture 0 p ++ stop).captureCount = n + 1 := by
    refine ⟨(capture 0 p ++ stop).captureCount - 1, ?_⟩
    have hpos : 1 ≤ max (max (0 + 1) p.captureCount) 0 := by omega
    exact (Nat.sub_add_cancel hpos).symm
  rw [hcaptures, hcount, List.range_succ_eq_map, hend]
  show Mark.text ⟨line.toList, []⟩ = line
  simp [Mark.text]

theorem captured_rule {m : LineMatch} (hr : m.rule ∈ lua.rules) (hm : m.captured) :
    m.rule.next = .stay ∧ ∃ p, m.rule.pattern = capture 0 p ++ stop := by
  rw [LineMatch.captured] at hm
  generalize m.rule = rule at hr hm
  simp only [lua, List.mem_cons, List.not_mem_nil, or_false] at hr
  rcases hr with rfl | rfl | rfl | rfl | rfl | rfl | rfl | rfl | rfl | rfl | rfl | rfl
  case inl | inr.inl | inr.inr.inl | inr.inr.inr.inr.inr.inr.inr.inr.inr.inl |
      inr.inr.inr.inr.inr.inr.inr.inr.inr.inr.inr =>
    exact ⟨rfl, _, rfl⟩
  all_goals exact absurd hm Bool.false_ne_true

end Dialect

namespace Reading

variable {r : Reader} {g : Reading} {s : Scratch} {line : String}

/-- A line that is captured is added to the capture, and changes nothing else. -/
theorem act_captured (hs : g.draft.scratch = some s) {m : LineMatch} (hm : m.captured)
    (hline : m.captures.text 0 = line) :
    ∃ i, act g m = .ok { draft := { g.draft with
      scratch := some { s with code := s.code.addLine line }, functionGroup := i } } := by
  have hcapture {d : Draft} (hd : d.scratch = some s) :
      d.captureLine line = { d with scratch := some { s with code := s.code.addLine line } } := by
    rw [Draft.captureLine, hd]
    rfl
  have hor (declare : Draft → Except Fault Draft) :
      Action.captureOr g.draft line declare = .ok (g.draft.captureLine line) := by
    rw [Action.captureOr, hs]
    rfl
  rw [LineMatch.captured] at hm
  split at hm
  · next ha =>
      refine ⟨g.draft.functionGroup, ?_⟩
      rw [act, ha]
      show Except.ok (⟨g.draft.captureLine (m.captures.text 0), none, []⟩ : Effect) = _
      rw [hline, hcapture hs]
  · next ha =>
      refine ⟨g.draft.functionGroup, ?_⟩
      rw [act, ha]
      show Action.run .undocumentedFunction _ _ _ = _
      rw [Action.run_plain rfl, Action.apply, hline, hor, hcapture hs]
      rfl
  · next ha =>
      refine ⟨none, ?_⟩
      rw [act, ha]
      show Except.ok (⟨Draft.captureLine _ (m.captures.text 0), none, []⟩ : Effect) = _
      rw [hline]
      exact congrArg (fun d => Except.ok (⟨d, none, []⟩ : Effect))
        (hcapture (d := { g.draft with functionGroup := none }) hs)
  · next ha =>
      refine ⟨g.draft.functionGroup, ?_⟩
      rw [Bool.not_eq_true'] at hm
      rw [act, ha]
      show Action.run .undocumentedParam _ _ _ = _
      rw [Action.run, if_neg (by rw [hm]; exact Bool.false_ne_true), hline, hor, hcapture hs]
      rfl
  · cases hm

theorem evaluate_captured (hs : g.state = lua) (hscratch : g.draft.scratch = some s)
    (hn : '\n' ∉ line.toList) (hline : isCaptured line) :
    ∃ g' i, r.evaluate line g = .ok (g', false) ∧ g'.state = lua ∧
      g'.draft = { g.draft with
        scratch := some { s with code := s.code.addLine line }, functionGroup := i } := by
  rw [isCaptured, Option.any_eq_true] at hline
  obtain ⟨m, hm, hcaptured⟩ := hline
  obtain ⟨hstay, p, hpattern⟩ := captured_rule (State.matchLine_mem hm) hcaptured
  have hread := State.matchLine_read hm
  rw [hpattern] at hread
  obtain ⟨i, hact⟩ := act_captured hscratch hcaptured (text_of_wholeLine hn hread)
  rw [← lua_matchLine line g.entering, ← hs] at hm
  obtain ⟨g', hg', hl⟩ := @evaluate_of_stay r _ _ _ _ hm hact (by
    show m.rule.next.target? _ = none
    rw [hstay]
    rfl)
  exact ⟨g', i, hg', hl.state.trans hs, hl.draft⟩

/-- All the lines are added, in order. -/
theorem feedAll_captured (hs : g.state = lua) (hscratch : g.draft.scratch = some s)
    {lines : List String}
    (hlines : ∀ line ∈ lines, '\n' ∉ line.toList ∧ '\r' ∉ line.toList ∧ isCaptured line) :
    ∃ g' i, r.feedAll g lines = .ok g' ∧ g'.state = lua ∧
      g'.draft = { g.draft with
        scratch := some { s with code := lines.foldl .addLine s.code }, functionGroup := i } := by
  induction lines generalizing g s with
  | nil =>
      refine ⟨g, g.draft.functionGroup, rfl, hs, ?_⟩
      show g.draft = { g.draft with scratch := some s }
      rw [← hscratch]
  | cons line lines ih =>
      obtain ⟨⟨hn, hcr, hline⟩, hrest⟩ := List.forall_mem_cons.1 hlines
      obtain ⟨g₁, i, hg₁, hs₁, hd₁⟩ :=
        @evaluate_captured r { g with line := g.line + 1 } s line hs hscratch hn hline
      have hscratch₁ : g₁.draft.scratch = some { s with code := s.code.addLine line } := by
        rw [hd₁]
      obtain ⟨g', i', hg', hs', hd'⟩ := ih hs₁ hscratch₁ hrest
      have hfeed : r.feed g line = .ok g₁ := by
        rw [feed, dropLineEnd_of_not_mem hn hcr]
        exact evaluateAll_of_ends (.done hg₁) (Nat.zero_le _)
      refine ⟨g', i', ?_, hs', ?_⟩
      · rw [feedAll_cons, hfeed]
        exact hg'
      · rw [hd', hd₁]
        rfl

end Reading

/-! ## What becomes of the capture -/

/-- The code of an entry. -/
def Entry.code? : Entry → Option CodeBlock
  | code c => some c
  | _ => none

/-- The code blocks of a group in order. -/
def Group.codes (g : Group) : List CodeBlock :=
  g.entries.filterMap Entry.code?

/-- What is captured as it goes into its group. -/
def Scratch.block (s : Scratch) : CodeBlock :=
  { s.code with text := s.code.text.map dropFinalNewlines }

namespace Draft

/-- What was captured has been put away: if it shows anything it is the last entry of its
group, and the group, which was in no section, is in the open one. No other code is added
to any group. -/
structure Delivers (d : Draft) (s : Scratch) (e : Draft) : Prop where
  ended : e.scratch = none
  sections : e.doc.sections = d.doc.sections
  codes : ∀ i, (e.doc.store.get i).codes =
    (d.doc.store.get i).codes ++ if i = s.group ∧ showsCode s.code then [s.block] else []
  last : showsCode s.code → (e.doc.store.get s.group).entries =
    (d.doc.store.get s.group).entries ++ [.code s.block]
  placed : showsCode s.code → s.group ∉ d.placed ∧ ∃ sec later, d.current = some sec ∧
    e.current = some { sec with groups := sec.groups ++ s.group :: later } ∧ s.group ∉ later

variable {d e f : Draft} {s : Scratch}

/-- It does not matter what happened before that touched no group and no section. -/
theorem Delivers.of_before (h : d.Delivers s e)
    (hstore : ∀ i, d.doc.store.get i = f.doc.store.get i) (hs : d.doc.sections = f.doc.sections)
    (hc : d.current = f.current) : f.Delivers s e := by
  have hplaced : f.placed = d.placed := by
    rw [Draft.placed, Draft.placed, hs, hc]
  exact ⟨h.ended, h.sections.trans hs, fun i => hstore i ▸ h.codes i,
    fun hshow => hstore s.group ▸ h.last hshow, fun hshow => hplaced ▸ hc ▸ h.placed hshow⟩

/-- A capture that has ended is left alone. -/
theorem Delivers.finishCapture (h : d.Delivers s e) : d.Delivers s e.finishCapture := by
  rw [finishCapture_of_none h.ended]
  exact h

theorem Delivers.freshGroup (h : d.Delivers s e) : d.Delivers s e.freshGroup := by
  have hstore (i : GroupId) : e.freshGroup.doc.store.get i = e.doc.store.get i :=
    GroupStore.get_insert_empty _ i
  exact ⟨h.ended, h.sections, fun i => (hstore i).symm ▸ h.codes i,
    fun hshow => (hstore s.group).symm ▸ h.last hshow, h.placed⟩

/-- An entry without code in another group, which is then placed. -/
theorem Delivers.addPlaced (h : d.Delivers s e) (hgroup : showsCode s.code → e.group ≠ s.group)
    {x : Entry} (hx : x.code? = none) : d.Delivers s (e.addEntry x).place := by
  refine ⟨h.ended, h.sections, fun i => ?_, fun hshow => ?_, fun hshow => ?_⟩
  · rw [← h.codes i]
    rcases e.doc.store.get_update_cases e.group i
      (fun g => { g with entries := g.entries ++ [x] }) with hget | ⟨-, hget⟩
    · exact congrArg Group.codes hget
    · refine (congrArg Group.codes hget).trans ?_
      show (_ ++ [x]).filterMap _ = _
      rw [List.filterMap_append, List.filterMap_cons_none hx, List.filterMap_nil, List.append_nil]
      rfl
  · rw [← h.last hshow]
    exact congrArg Group.entries (GroupStore.get_update_of_ne (hgroup hshow).symm _)
  · obtain ⟨hno, sec, later, hd, he, hlater⟩ := h.placed hshow
    refine ⟨hno, sec, ?_⟩
    have hplace : (e.addEntry x).place.current =
        some (Section.place { sec with groups := sec.groups ++ s.group :: later } e.group) := by
      show e.current.map _ = _
      rw [he]
      rfl
    rw [hplace, Section.place]
    split
    · exact ⟨later, hd, rfl, hlater⟩
    · refine ⟨later ++ [e.group], hd, by simp, ?_⟩
      rw [List.mem_append, List.mem_singleton, not_or]
      exact ⟨hlater, (hgroup hshow).symm⟩

theorem Delivers.openTable (h : d.Delivers s e) (hp : e.pending = none)
    (hgroup : showsCode s.code → e.group ≠ s.group) (key : String) (lead : Option String) :
    d.Delivers s (e.openTable key lead) := by
  let e' : Draft := { e with
    doc := { e.doc with params := putKey (stripDeclaration key) {} e.doc.params }
    table := some (stripDeclaration key) }
  have h' : d.Delivers s e' := ⟨h.ended, h.sections, h.codes, h.last, h.placed⟩
  show d.Delivers s ((e'.flush.addEntry _).place).freshGroup
  rw [flush_of_settled (d := e') hp]
  exact (h'.addPlaced hgroup rfl).freshGroup

/-- The group of the code is left before a table is opened. -/
theorem Delivers.leavePlacedGroup (h : d.Delivers s e) (hheld : e.doc.store.Holds s.group) :
    d.Delivers s (Action.leavePlacedGroup e) ∧
      (showsCode s.code → (Action.leavePlacedGroup e).group ≠ s.group) := by
  rw [Action.leavePlacedGroup]
  split
  · refine ⟨h.freshGroup, fun _ heq => ?_⟩
    rw [← heq] at hheld
    exact e.doc.store.not_holds_nextId hheld
  · next hno =>
      refine ⟨h, fun hshow heq => hno ?_⟩
      obtain ⟨-, sec, later, -, he, -⟩ := h.placed hshow
      rw [inSection, he, heq]
      simp

/-- The end of a capture delivers it. -/
theorem delivers_finishCapture (hd : d.Placed) (ho : d.current.isSome) (hs : d.scratch = some s) :
    d.Delivers s d.finishCapture := by
  obtain ⟨hheld, hno, -⟩ := hd.scratch s hs
  obtain ⟨sec, hsec⟩ := Option.isSome_iff_exists.1 ho
  have hstore := finishCapture_store hs
  have hlast : (d.finishCapture.doc.store.get s.group).entries =
      (d.doc.store.get s.group).entries ++ if showsCode s.code then [.code s.block] else [] := by
    rw [hstore, attachCode]
    split
    · exact congrArg Group.entries (GroupStore.get_update_self hheld _)
    · exact (List.append_nil _).symm
  refine ⟨finishCapture_scratch d, ?_, fun i => ?_, fun hshow => ?_, fun hshow => ⟨hno, sec, ?_⟩⟩
  · rw [Draft.finishCapture, hs]
    simp only [attachCode]
    split <;> split <;> rfl
  · by_cases hi : i = s.group
    · subst hi
      rw [Group.codes, hlast, List.filterMap_append]
      simp only [true_and]
      split <;> rfl
    · rw [if_neg fun h => hi h.1, List.append_nil, finishCapture_get]
      intro t ht
      obtain rfl : s = t := Option.some.inj (hs.symm.trans ht)
      exact hi
  · rw [hlast, if_pos hshow]
  · have hend : sec.groups.getLast? ≠ some s.group := by
      intro hend
      refine hno ?_
      rw [Draft.placed, hsec]
      simp [List.mem_of_getLast? hend]
    refine ⟨[], hsec, ?_, List.not_mem_nil⟩
    have hentries : ¬ (d.finishCapture.doc.store.get s.group).entries.isEmpty := by
      rw [hlast, if_pos hshow]
      simp
    rw [hstore] at hentries
    rw [Draft.finishCapture, hs]
    simp only []
    rw [if_neg hentries, placeGroup, attachCode, if_pos hshow]
    show d.current.map _ = _
    rw [hsec, Option.map_some, Section.place, if_neg hend]

end Draft

/-! ## Out of source -/

theorem Dialect.openTable_next :
    ∀ rule ∈ lua.rules, rule.action = some .openTable → rule.next = .goTo "params" false := by
  decide

theorem Dialect.lua_stay :
    ∀ rule ∈ lua.rules, rule.next = .stay ∨ rule.action = some .startComment ∨
      rule.action = some .openTable := by
  decide

theorem Dialect.lua_plain :
    ∀ rule ∈ lua.rules, rule.action.all Action.plain ∨ rule.action = some .undocumentedParam := by
  decide

/-- Whatever ends the capture delivers it: a line that leaves source, the directive that
switches literate mode off, and the end of the lines. -/
structure Reading.DeliversCapture (r : Reader) (g : Reading) (s : Scratch) : Prop where
  /-- Lines that start a comment or open a table leave source. -/
  leaves : ∀ line n m, g.state.matchLine line g.entering = some m → m.interrupts →
    ∃ k again, r.evaluate line { g with line := n } = .ok (k, again) ∧ k.state.name ≠ "lua"
  left : ∀ line n k again, r.evaluate line { g with line := n } = .ok (k, again) →
    k.state.name ≠ "lua" → g.draft.Delivers s k.draft
  directive : ∀ line n m, g.state.matchLine line g.entering = some m →
    m.rule.action = some .disableOption → trim (m.captures.text 0) = "lit" →
    ∃ k, r.evaluate line { g with line := n } = .ok (k, false) ∧ k.state.name = "lua" ∧
      g.draft.Delivers s k.draft
  finish : g.draft.Delivers s (Reader.finish g).draft

namespace Reading

variable {r : Reader} {g : Reading} {s : Scratch} {m : LineMatch}

theorem Tracked.opened (hg : g.Tracked) (hs : g.state = lua) : g.draft.current.isSome := by
  have hfits := hg.fits
  rw [hs] at hfits
  exact hfits.opened (by decide)

/-- What is done with a line of source that leads elsewhere, and that the capture is
delivered by the time that source is left. -/
theorem act_interrupts (hg : g.Tracked) (hs : g.state = lua) (hscratch : g.draft.scratch = some s)
    (hmem : m.rule ∈ lua.rules) (hm : m.interrupts) :
    ∃ e target again next, act g m = .ok e ∧
      (e.next.getD m.rule.next).target? e.draft = some (target, again) ∧
      grammar.find? target = some next ∧ next.name ≠ "lua" ∧ next.enter = none ∧
      g.draft.Delivers s e.draft.finishCapture := by
  have hfits : Phase.source.Fits g.draft := by
    have hfits := hg.fits
    rw [hs] at hfits
    exact hfits
  have ho : g.draft.current.isSome := hg.opened hs
  have hdeparting := Draft.InSource.toDeparting hfits
  have hend := Draft.delivers_finishCapture hg.placed ho hscratch
  have hheld : g.draft.finishCapture.doc.store.Holds s.group := by
    rw [Draft.finishCapture_store hscratch]
    exact (Draft.same_attachCode _ s).holds _ (hg.placed.scratch s hscratch).1
  have hpending : g.draft.finishCapture.pending = none :=
    (Draft.finishCapture_pending _).trans hdeparting.settled
  rw [LineMatch.interrupts] at hm
  split at hm
  · next ha =>
      have hdraft : act g m = .ok { draft := g.draft.freshGroup } := by
        rw [act, ha]
        rfl
      have hdelivers : g.draft.Delivers s g.draft.freshGroup.finishCapture :=
        (Draft.delivers_finishCapture hg.placed.freshGroup ho hscratch).of_before
          (GroupStore.get_insert_empty _) rfl rfl
      rcases startComment_next m.rule hmem ha with hn | hn
      · refine ⟨_, "group", true, group, hdraft, ?_, rfl, by decide, rfl, hdelivers⟩
        rw [Option.getD_none, hn]
        rfl
      · refine ⟨_, "mgroup", false, mgroup, hdraft, ?_, rfl, by decide, rfl, hdelivers⟩
        rw [Option.getD_none, hn]
        rfl
  · next ha =>
      obtain ⟨hleft, hgroup⟩ := hend.leavePlacedGroup hheld
      have hdelivers := hleft.openTable ((Action.leavePlacedGroup_pending _).trans hpending) hgroup
        (m.captures.text 0) none
      refine ⟨_, "params", false, params, by rw [act, ha]; rfl, ?_, rfl, by decide, rfl,
        hdelivers.finishCapture⟩
      rw [Option.getD_none, openTable_next m.rule hmem ha]
      rfl
  · next ha =>
      have hgroup : g.draft.finishCapture.freshGroup.group ≠ s.group := by
        intro heq
        rw [← heq] at hheld
        exact g.draft.finishCapture.doc.store.not_holds_nextId hheld
      have hdelivers := hend.freshGroup.openTable hpending (fun _ => hgroup)
        (m.captures.text 1) (some ".")
      refine ⟨Action.openLibTable g.draft.finishCapture.freshGroup (m.captures.text 1), "params",
        false, params, ?_, rfl, rfl, by decide, rfl, hdelivers.finishCapture⟩
      rw [act, ha]
      show Action.run .undocumentedParam _ _ _ = _
      rw [Action.run, if_pos hm]
  · cases hm

/-- Every other line leaves the reading in source. -/
theorem act_continues (hmem : m.rule ∈ lua.rules) (hm : ¬ m.interrupts) {e : Effect}
    (h : act g m = .ok e) : e.next.getD m.rule.next = .stay := by
  have hstay : m.rule.next = .stay := by
    refine (lua_stay m.rule hmem).resolve_right fun ha => hm ?_
    rw [LineMatch.interrupts]
    rcases ha with ha | ha <;> rw [ha]
  have hnext : e.next = none := by
    rcases lua_plain m.rule hmem with ha | ha
    · exact act_next ha h
    · rw [LineMatch.interrupts, ha] at hm
      rw [act, ha] at h
      replace h : Action.run .undocumentedParam _ _ _ = _ := h
      rw [Action.run, if_neg hm] at h
      obtain ⟨d, -, h⟩ := ok_of_bind h
      cases h
      rfl
  rw [hnext, Option.getD_none, hstay]

/-- The directive that switches literate mode off ends the capture. -/
theorem act_nolit {options : List String} (hg : g.Tracked) (hs : g.state = lua)
    (hscratch : g.draft.scratch = some s) (hpermits : g.draft.Permits options)
    (ha : m.rule.action = some .disableOption) (hoption : trim (m.captures.text 0) = "lit") :
    ∃ d, act g m = .ok { draft := d } ∧ g.draft.Delivers s d := by
  have hliterate : g.draft.doc.literate :=
    (hg.consistent.captured.1 (by rw [hscratch]; rfl)).2
  have hallowed : g.draft.allowedOptions.contains "lit" := by
    rw [List.contains_iff_mem, hpermits.allowed]
    exact hpermits.literate hliterate
  let d : Draft := { g.draft with doc := { g.draft.doc with literate := false } }
  refine ⟨d.finishCapture, ?_, ?_⟩
  · rw [act, ha]
    show Action.run .disableOption _ _ _ = _
    rw [Action.run_plain rfl, Action.apply, hoption, Draft.applyDirective]
    simp only [Mode.ofOption?, hallowed]
    rfl
  · have hd : d.Placed := hg.placed.of_same ⟨rfl, rfl, rfl, rfl, rfl, rfl, fun _ => id⟩
    exact (Draft.delivers_finishCapture hd (hg.opened hs) hscratch).of_before (fun _ => rfl) rfl rfl

theorem deliversCapture {options : List String} (hr : r.grammar = Dialect.grammar) (hg : g.Tracked)
    (hs : g.state = lua) (hscratch : g.draft.scratch = some s)
    (hpermits : g.draft.Permits options) : g.DeliversCapture r s := by
  have hmem {line : String} {m : LineMatch} (hm : g.state.matchLine line g.entering = some m) :
      m.rule ∈ lua.rules := hs ▸ State.matchLine_mem hm
  have hname : g.state.name = "lua" := hs ▸ rfl
  refine ⟨fun line n m hm hint => ?_, fun line n k again h hk => ?_,
    fun line n m hm ha hoption => ?_, ?_⟩
  · obtain ⟨e, target, again, next, hact, htarget, hnext, hother, -, -⟩ :=
      act_interrupts (hg.nextLine n) hs hscratch (hmem hm) hint
    obtain ⟨k, hk, hl⟩ := @evaluate_of_move r _ { g with line := n } m e target again next
      hm hact htarget (hr ▸ hnext)
    exact ⟨k, again, hk, hl.state ▸ hother⟩
  · rcases evaluate_cases h with ⟨-, -, hl⟩ | ⟨m, e, hm, hact, hcases⟩
    · exact absurd (hl.state ▸ hname) hk
    rcases hcases with ⟨-, -, hl⟩ | ⟨target, next, htarget, hnext, hl⟩
    · exact absurd (hl.state ▸ hname) hk
    have hint : m.interrupts := by
      by_contra hno
      rw [act_continues (hmem hm) hno hact] at htarget
      cases htarget
    obtain ⟨e', target', again', next', hact', htarget', hnext', -, henter, hdelivers⟩ :=
      act_interrupts (hg.nextLine n) hs hscratch (hmem hm) hint
    obtain rfl : e = e' := Except.ok.inj (hact.symm.trans hact')
    obtain ⟨rfl, rfl⟩ : target = target' ∧ again = again' :=
      Prod.mk.inj (Option.some.inj (htarget.symm.trans htarget'))
    obtain rfl : next = next' := Option.some.inj ((hr ▸ hnext).symm.trans hnext')
    have hdraft : k.draft = e.draft.finishCapture := by
      rw [hl.draft, State.crossTo, henter]
      show hooked g.state.exit e.draft = _
      rw [hs]
      rfl
    exact hdraft ▸ hdelivers
  · obtain ⟨d, hact, hdelivers⟩ := act_nolit (hg.nextLine n) hs hscratch hpermits ha hoption
    have hint : ¬ m.interrupts := by
      rw [LineMatch.interrupts, ha]
      exact Bool.false_ne_true
    obtain ⟨k, hk, hl⟩ := @evaluate_of_stay r _ { g with line := n } m _ hm hact (by
      rw [act_continues (hmem hm) hint hact]
      rfl)
    exact ⟨k, hk, hl.state ▸ hname, hl.draft ▸ hdelivers⟩
  · rw [finish_draft, hs]
    exact Draft.delivers_finishCapture hg.placed (hg.opened hs) hscratch

end Reading

/-- Wherever a reader of the dialect has come to while source is captured: lines of source
code are added to the capture as they stand, and nothing else changes. And whatever ends
the capture then delivers it. -/
theorem capture_lossless {r : Reader} (hr : r.grammar = Dialect.grammar) {doc : Document}
    (hdoc : doc.sections = []) (htodo : doc.todo = none) (hfixme : doc.fixme = none)
    {file : Option String} {language : String} {options : List String}
    (hliterate : doc.literate → "lit" ∈ options) {g₀ g : Reading}
    (h₀ : r.start Dialect.initial (Draft.start doc file language options) = .ok g₀)
    (h : r.Reaches g₀ g) (hs : g.state.name = "lua") {s : Scratch}
    (hscratch : g.draft.scratch = some s) {lines : List String}
    (hlines : ∀ line ∈ lines, '\n' ∉ line.toList ∧ '\r' ∉ line.toList ∧ isCaptured line) :
    let t := { s with code := { s.code with
      text := CodeBlock.joined (s.code.text.toList ++ lines) } }
    ∃ g' i, r.feedAll g lines = .ok g' ∧ g'.state = g.state ∧
      g'.draft = { g.draft with scratch := some t, functionGroup := i } ∧
      g'.draft.document = g.draft.document ∧ g'.DeliversCapture r t := by
  intro t
  have hg := h.recalls hr (recalls_of_start hr hdoc htodo hfixme h₀)
  have hlua : g.state = lua := hg.in_source hs
  obtain ⟨g', i, hg', hs', hd'⟩ := Reading.feedAll_captured (r := r) hlua hscratch hlines
  rw [CodeBlock.foldl_addLine_eq_joined] at hd'
  have hscratch' : g'.draft.scratch = some t := by rw [hd']
  refine ⟨g', i, hg', hs'.trans hlua.symm, hd', hd' ▸ rfl, ?_⟩
  exact Reading.deliversCapture hr (hg.toTracked.feedAll hr hg').1 hs' hscratch'
    ((h.feedAll hg').permits hr hdoc hliterate h₀)

/-- Declarations that would be documented outside of literate mode. -/
theorem capture_lossless_declarations :
    ∃ g₀ g s, ({} : Reader).start Dialect.initial
        (Draft.start (Document.new "d" none none) none "js" ["lit"]) = .ok g₀ ∧
      ({} : Reader).feedAll g₀ ["// # T", "", "// doc:lit"] = .ok g ∧ g.state.name = "lua" ∧
      g.draft.scratch = some s ∧
      (∀ line ∈ ["lib.k = 2", "lib.f = function(a) \x7b", "  return a;", "\x7d", ""],
        '\n' ∉ line.toList ∧ '\r' ∉ line.toList ∧ isCaptured line) ∧
      ∃ g' k again, ({} : Reader).feedAll g
          ["lib.k = 2", "lib.f = function(a) \x7b", "  return a;", "\x7d", ""] = .ok g' ∧
        g'.draft.document = g.draft.document ∧
        ({} : Reader).evaluate "// Next." g' = .ok (k, again) ∧ k.state.name ≠ "lua" ∧
        (k.draft.doc.store.get s.group).entries = [.code {
          lang := "js"
          text := some "lib.k = 2\nlib.f = function(a) \x7b\n  return a;\n\x7d" }] := by
  have hlines : ∀ line ∈ ["lib.k = 2", "lib.f = function(a) \x7b", "  return a;", "\x7d", ""],
      '\n' ∉ line.toList ∧ '\r' ∉ line.toList ∧ isCaptured line := by decide +kernel
  have hnext : (lua.matchLine "// Next." true).any LineMatch.interrupts := by decide +kernel
  have hshow : Draft.showsCode ⟨"js", CodeBlock.joined
      ["lib.k = 2", "lib.f = function(a) \x7b", "  return a;", "\x7d", ""]⟩ := by decide +kernel
  have htext : (CodeBlock.joined
      ["lib.k = 2", "lib.f = function(a) \x7b", "  return a;", "\x7d", ""]).map dropFinalNewlines =
        some "lib.k = 2\nlib.f = function(a) \x7b\n  return a;\n\x7d" := by decide +kernel
  let run : Except Fault (Reading × Reading) := do
    let g₀ ← ({} : Reader).start Dialect.initial
      (Draft.start (Document.new "d" none none) none "js" ["lit"])
    let g ← ({} : Reader).feedAll g₀ ["// # T", "", "// doc:lit"]
    return (g₀, g)
  have hfacts : run.toOption.bind (fun x => x.2.draft.scratch.map fun s =>
      (x.2.state.name, s.code, (x.2.draft.doc.store.get s.group).entries)) =
        some ("lua", { lang := "js" }, []) := by decide +kernel
  cases hrun : run with
  | error f =>
      rw [hrun] at hfacts
      cases hfacts
  | ok x =>
      rw [hrun] at hfacts
      obtain ⟨g₀, h₀, hrun⟩ := ok_of_bind hrun
      obtain ⟨g, hg, hrun⟩ := ok_of_bind hrun
      cases hrun
      obtain ⟨s, hscratch, hfacts⟩ := Option.map_eq_some_iff.1 hfacts
      obtain ⟨hs, hfacts⟩ := Prod.mk.inj hfacts
      obtain ⟨hcode, hentries⟩ := Prod.mk.inj hfacts
      obtain ⟨g', i, hg', hs', hd', hdocument, hdelivers⟩ :=
        capture_lossless (r := {}) rfl rfl rfl rfl (fun _ => by decide) h₀ (.of_feedAll hg) hs
          hscratch hlines
      have hlua : g.state = lua :=
        ((Reaches.of_feedAll hg).coherent rfl (coherent_of_start rfl rfl h₀)).in_source hs
      obtain ⟨m, hm, hint⟩ := (Option.any_eq_true ..).mp hnext
      obtain ⟨k, again, hk, hname⟩ := hdelivers.leaves "// Next." g'.line m
        (by rw [hs', hlua, lua_matchLine, hm]) hint
      have hlast := (hdelivers.left _ _ _ _ hk hname).last
      rw [Scratch.block, hd', hcode, hentries] at hlast
      exact ⟨g₀, g, s, h₀, hg, hs, hscratch, hlines, g', k, again, hg', hdocument, hk, hname,
        (hlast hshow).trans (congrArg (fun text => [Entry.code ⟨"js", text⟩]) htext)⟩

end DocComment
