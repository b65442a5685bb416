import DocComment.Proofs.MirroredRules
import DocComment.Proofs.ReadingCalls

/-!
# Lines that no rule takes

A line that meets no rule of its state is passed over, and nobody is told. Before the
first comment that is as it should be. Afterwards every state is meant to take every line,
most of them by a last rule that matches everything. `Dialect.matchLine_eq_none_iff` says
that all states but one do.

The one is the state of a run of line comments. Its last rules are for comment lines; what
is no comment line should be blank or else end the run. But a line that ends the run may
start with spaces and tabs only, while a blank line may hold blanks of all kinds. So a
line that shows something after a blank of another kind is neither, and the run goes on
after it.
-/

namespace DocComment

open Text Pattern Dialect

/-- A line meets no rule if none that takes part accepts it. -/
theorem State.matchLine_eq_none {s : State} {line : String} {entering : Bool} :
    s.matchLine line entering = none ↔
      ∀ r ∈ s.rules, r.active entering → ¬ r.pattern.accepts line := by
  refine ⟨fun h r hr ha hp => matchLine_ne_none hr ha hp h, fun h => ?_⟩
  refine Option.eq_none_iff_forall_ne_some.2 fun m hm => ?_
  obtain ⟨-, -, -, hactive, -, -⟩ := matchFrom_eq_some hm
  exact h m.rule (matchLine_mem hm) hactive (matchLine_accepts hm)

namespace Dialect

/-- Whether a line shows something after a blank that is neither a space nor a tab. -/
def oddlyIndented (line : String) : Bool :=
  !isBlankText line && (line.toList.dropWhile isIndent).head?.any isBlank

/-! ## States that take every line -/

/-- The states without a rule for all that is left. -/
def selectiveStates : List String :=
  ["start", "mgroup", "mmath", "group", "lua"]

theorem any_catchAll :
    ∀ s ∈ states, s.name ∈ selectiveStates ∨ s.rules.any fun r => r.catchAll && !r.onEntry := by
  decide

theorem matchLine_of_catchAll {s : State} (hs : s.rules.any fun r => r.catchAll && !r.onEntry)
    (line : String) (entering : Bool) : s.matchLine line entering ≠ none := by
  obtain ⟨r, hr, h⟩ := List.any_eq_true.1 hs
  rw [Bool.and_eq_true, Bool.not_eq_true'] at h
  have hactive : r.active entering := by
    rw [Rule.active, h.2]
    rfl
  refine State.matchLine_ne_none hr hactive ?_
  have hempty : r.pattern = .empty := by
    have hc := h.1
    rw [Rule.catchAll] at hc
    cases hp : r.pattern <;> rw [hp] at hc <;> first | rfl | cases hc
  rw [hempty]
  rfl

/-- In a block comment a line is blank, as far as spaces are concerned, or it is text. -/
theorem matchLine_mgroup {line : String} (hn : '\n' ∉ line.toList) (entering : Bool) :
    mgroup.matchLine line entering ≠ none := by
  cases hline : line.toList.dropWhile (· = ' ') with
  | nil =>
      refine State.matchLine_ne_none (r := mgroup.rules[9]) (by simp [mgroup]) rfl ?_
      refine read?_isSome_of_spaces (q := stop) rfl ?_
      rw [hline]
      rfl
  | cons c cs =>
      refine State.matchLine_ne_none (r := mgroup.rules[10]) (by simp [mgroup]) rfl ?_
      refine read?_isSome_of_spaces (q := capture 0 something ++ stop) rfl ?_
      have hcs : '\n' ∉ c :: cs := by
        rw [← hline]
        exact fun hmem => hn ((List.dropWhile_sublist _).subset hmem)
      rw [hline, follow_something hcs]
      rfl

theorem matchLine_mmath {line : String} (hn : '\n' ∉ line.toList) (entering : Bool) :
    mmath.matchLine line entering ≠ none := by
  refine State.matchLine_ne_none (r := mmath.rules[4]) (by simp [mmath]) rfl ?_
  have hspaces : spaces.accepts line :=
    accepts_iff.2 ⟨⟨none, line.toList⟩, [], Nat.zero_le _, by simp, Spot.Passes.nil_iff.2 rfl⟩
  exact accepts_append_anything hn hspaces 0

theorem matchLine_lua {line : String} (hn : '\n' ∉ line.toList) (entering : Bool) :
    lua.matchLine line entering ≠ none := by
  refine State.matchLine_ne_none (r := lua.rules[11]) (by simp [lua]) rfl ?_
  have hfollow := follow_anything (i := 0) (s := ⟨none, line.toList⟩) hn []
  show (Option.map _ ((capture 0 anything ++ stop).follow done ⟨none, line.toList⟩ [])).isSome
  rw [hfollow]
  rfl

/-! ## Runs of line comments -/

theorem indent_accepts_iff {p q : Pattern} (hp : p.follow done = (indent ++ q).follow done)
    (hq : ∀ b c cs, isIndent c → q.follow done ⟨b, c :: cs⟩ [] = none) {line : String} :
    p.accepts line ↔ (q.follow done ⟨none, line.toList.dropWhile isIndent⟩ []).isSome := by
  have hfollow : (indent ++ q).follow done ⟨none, line.toList⟩ [] =
      q.follow done ⟨none, line.toList.dropWhile isIndent⟩ [] :=
    follow_indent (follow_congr steady_done) rfl hq
  rw [accepts, read?, Option.isSome_map, ← hfollow, ← hp]

theorem lit_isSome {text : String} {s : Spot} :
    ((lit text).follow done s []).isSome = text.toList.isPrefixOf s.rest := by
  rw [Bool.eq_iff_iff, @follow_isSome (lit text) _ (fun _ => True) (by simp),
    List.isPrefixOf_iff_prefix]
  constructor
  · rintro ⟨t, ht, -⟩
    exact ⟨t.rest, (show s.Passes text.toList t from ht).rest.symm⟩
  · rintro ⟨rest, hrest⟩
    exact ⟨⟨text.toList.getLast?.or s.before, rest⟩, ⟨hrest.symm, rfl⟩, trivial⟩

/-- A comment line has its slashes after the indentation. -/
theorem lineStart_accepts {line : String} :
    lineStart.accepts line ↔ "//".toList.isPrefixOf (line.toList.dropWhile isIndent) := by
  rw [← lit_isSome (s := ⟨none, line.toList.dropWhile isIndent⟩)]
  refine indent_accepts_iff rfl ?_
  intro b c cs hc
  rcases isIndent_iff.1 hc with rfl | rfl <;> rfl

theorem endsComment_accepts {line : String} :
    (indent ++ notAhead "//" ++ visible).accepts line ↔ endsComment line := by
  refine (indent_accepts_iff (q := notAhead "//" ++ visible) rfl ?_).trans ?_
  · intro b c cs hc
    rcases isIndent_iff.1 hc with rfl | rfl <;> rfl
  · rw [endsComment]
    cases line.toList.dropWhile isIndent with
    | nil => exact ⟨fun h => absurd h (by decide), fun h => absurd h (by decide)⟩
    | cons c cs =>
        show (if ((lit "//").follow done ⟨none, c :: cs⟩ []).isSome then none
          else if isVisible c then some [] else none).isSome ↔
            isVisible c && !"//".toList.isPrefixOf (c :: cs)
        simp only [lit_isSome]
        cases "//".toList.isPrefixOf (c :: cs) <;> cases isVisible c <;> simp

theorem blankText_accepts {line : String} (h : isBlankText line) :
    (run isBlank 0 ++ stop).accepts line :=
  accepts_iff.2 ⟨⟨line.toList.getLast?.or none, []⟩, _,
    ⟨line.toList, Nat.zero_le _, fun c hc => List.all_eq_true.1 h c hc, (List.append_nil _).symm,
      rfl⟩, rfl, rfl⟩

theorem isBlankText_of_accepts {line : String} (h : (run isBlank 0 ++ stop).accepts line) :
    isBlankText line := by
  obtain ⟨t, m, ⟨w, -, hw, hm⟩, rfl, hstop⟩ := accepts_iff.1 h
  rw [isBlankText, show line.toList = w ++ t.rest from hm.rest, List.all_append, Bool.and_eq_true]
  refine ⟨List.all_eq_true.2 hw, ?_⟩
  rw [atStop, Bool.or_eq_true, decide_eq_true_eq, decide_eq_true_eq] at hstop
  rcases hstop with hr | hr <;> rw [hr] <;> decide

theorem follow_lineStart {q : Pattern} {line : String} {rest : List Char}
    (h : line.toList.dropWhile isIndent = '/' :: '/' :: rest) :
    (lineStart ++ q).follow done ⟨none, line.toList⟩ [] = q.follow done ⟨some '/', rest⟩ [] := by
  have hfollow : (lineStart ++ q).follow done ⟨none, line.toList⟩ [] =
      ("//" ++ q).follow done ⟨none, line.toList.dropWhile isIndent⟩ [] := by
    refine @follow_indent (("//" ++ q).follow done) (follow_congr steady_done)
      ⟨none, line.toList⟩ rfl [] ?_
    intro b c cs hc
    rcases isIndent_iff.1 hc with rfl | rfl <;> rfl
  rw [hfollow, h]
  rfl

/-- A comment line has text or has none. -/
theorem matchLine_group_of_comment {line : String} (hn : '\n' ∉ line.toList)
    (h : lineStart.accepts line) (entering : Bool) : group.matchLine line entering ≠ none := by
  rw [lineStart_accepts, List.isPrefixOf_iff_prefix] at h
  obtain ⟨rest, hrest⟩ := h
  replace hrest : line.toList.dropWhile isIndent = '/' :: '/' :: rest := hrest.symm
  have hspaces {q : Pattern} (hq : (q.follow done ⟨none, rest.dropWhile (· = ' ')⟩ []).isSome) :
      ((lineStart ++ (spaces ++ q)).follow done ⟨none, line.toList⟩ []).isSome := by
    rw [follow_lineStart hrest]
    have hfollow : (spaces ++ q).follow done ⟨some '/', rest⟩ [] =
        q.follow done ⟨none, rest.dropWhile (· = ' ')⟩ [] :=
      follow_spaces (s := ⟨some '/', rest⟩) (follow_congr steady_done) rfl (.inl hq)
    rw [hfollow]
    exact hq
  cases htext : rest.dropWhile (· = ' ') with
  | nil =>
      refine State.matchLine_ne_none (r := group.rules[11]) (by simp [group]) rfl ?_
      rw [accepts, read?, Option.isSome_map]
      refine hspaces (q := stop) ?_
      rw [htext]
      rfl
  | cons c cs =>
      refine State.matchLine_ne_none (r := group.rules[12]) (by simp [group]) rfl ?_
      rw [accepts, read?, Option.isSome_map]
      refine hspaces (q := capture 0 something ++ stop) ?_
      have hcs : '\n' ∉ c :: cs := by
        rw [← htext]
        refine fun hmem => hn ((List.dropWhile_sublist isIndent).subset ?_)
        rw [hrest]
        exact List.mem_cons_of_mem _ (List.mem_cons_of_mem _
          ((List.dropWhile_sublist _).subset hmem))
      rw [htext, follow_something hcs]
      rfl

/-- A rule of a run of line comments takes comment lines, unless it is one of the two that
end the run. -/
theorem group_accepts {r : Rule} (hr : r ∈ group.rules) {line : String}
    (h : r.pattern.accepts line) :
    lineStart.accepts line ∨
      r.action = some .closeComment ∧ (endsComment line ∨ isBlankText line) := by
  simp only [group, List.mem_cons, List.not_mem_nil, or_false] at hr
  rcases hr with rfl | rfl | rfl | rfl | rfl | rfl | rfl | rfl | rfl | rfl | rfl | rfl | rfl
  case inl | inr.inr.inr.inr.inr.inr.inr.inr.inr.inr.inr.inl =>
    exact Or.inl (accepts_of_append h)
  case inr.inl => exact Or.inr ⟨rfl, Or.inl (endsComment_accepts.1 h)⟩
  case inr.inr.inl => exact Or.inr ⟨rfl, Or.inr (isBlankText_of_accepts h)⟩
  all_goals
    left
    -- what a rule says is read off from the right until only the start of the line is left
    repeat with_reducible replace h := accepts_of_append h
    exact h

/-- Whatever a line shows is at its start a comment, what ends the comment, or after a
blank that is no indentation. -/
theorem matchLine_group_eq_none {line : String} (hn : '\n' ∉ line.toList) (entering : Bool) :
    group.matchLine line entering = none ↔ oddlyIndented line := by
  constructor
  · intro hnone
    have hno := State.matchLine_eq_none.1 hnone
    have hblank : ¬ isBlankText line := fun h =>
      hno group.rules[2] (by simp [group]) rfl (blankText_accepts h)
    have hends : ¬ endsComment line := fun h =>
      hno group.rules[1] (by simp [group]) rfl (endsComment_accepts.2 h)
    have hcomment : ¬ lineStart.accepts line := fun h =>
      matchLine_group_of_comment hn h entering hnone
    rw [lineStart_accepts] at hcomment
    rw [endsComment] at hends
    rw [oddlyIndented, Bool.and_eq_true, Bool.not_eq_true']
    refine ⟨Bool.not_eq_true _ |>.mp hblank, ?_⟩
    cases hline : line.toList.dropWhile isIndent with
    | nil =>
        refine absurd (List.all_eq_true.2 fun c hc => ?_) hblank
        have hindent : isIndent c := by
          rw [← List.takeWhile_append_dropWhile (p := isIndent) (l := line.toList), hline,
            List.append_nil] at hc
          exact List.all_eq_true.1 List.all_takeWhile c hc
        rcases isIndent_iff.1 hindent with rfl | rfl <;> decide
    | cons c cs =>
        rw [hline] at hcomment hends
        rw [Bool.not_eq_true] at hcomment
        replace hends : ¬ (isVisible c && !"//".toList.isPrefixOf (c :: cs)) := hends
        rw [hcomment] at hends
        simpa [isVisible] using hends
  · intro hodd
    rw [oddlyIndented, Bool.and_eq_true, Bool.not_eq_true', Option.any_eq_true] at hodd
    obtain ⟨hshows, c, hc, hblank⟩ := hodd
    obtain ⟨cs, hline⟩ := List.head?_eq_some_iff.1 hc
    refine State.matchLine_eq_none.2 fun r hr _ haccepts => ?_
    rcases group_accepts hr haccepts with h | ⟨-, h | h⟩
    · rw [lineStart_accepts, hline, List.isPrefixOf_iff_prefix] at h
      obtain rfl : '/' = c := (List.cons_prefix_cons.1 h).1
      exact absurd hblank (by decide)
    · simp [endsComment, hline, isVisible, hblank] at h
    · rw [h] at hshows
      cases hshows

/-- Every state but the one before the first comment takes every line, and of a run of
line comments only what is blank at first, but neither in its indentation nor altogether,
is missed. What a run takes is a comment line or ends the run. -/
theorem matchLine_eq_none_iff {s : State} (hs : s ∈ states) (hstart : s.name ≠ "start")
    {line : String} (hn : '\n' ∉ line.toList) (entering : Bool) :
    (s.matchLine line entering = none ↔ s.name = "group" ∧ oddlyIndented line) ∧
      ∀ m, s.name = "group" → s.matchLine line entering = some m →
        lineStart.accepts line ∨
          m.rule.action = some .closeComment ∧ (endsComment line ∨ isBlankText line) := by
  constructor
  · by_cases hgroup : s.name = "group"
    · obtain rfl : s = group := eq_of_name hs (by simp [states]) hgroup
      rw [matchLine_group_eq_none hn]
      exact (and_iff_right rfl).symm
    · rw [iff_false_intro fun h : s.name = "group" ∧ _ => hgroup h.1, iff_false]
      rcases any_catchAll s hs with hname | hcatch
      · rw [selectiveStates] at hname
        simp only [List.mem_cons, List.not_mem_nil, or_false, hstart, hgroup, false_or] at hname
        rcases hname with h | h | h
        · obtain rfl : s = mgroup := eq_of_name hs (by simp [states]) h
          exact matchLine_mgroup hn entering
        · obtain rfl : s = mmath := eq_of_name hs (by simp [states]) h
          exact matchLine_mmath hn entering
        · obtain rfl : s = lua := eq_of_name hs (by simp [states]) h
          exact matchLine_lua hn entering
      · exact matchLine_of_catchAll hcatch line entering
  · intro m hgroup hm
    obtain rfl : s = group := eq_of_name hs (by simp [states]) hgroup
    exact group_accepts (State.matchLine_mem hm) (State.matchLine_accepts hm)

theorem matchLine_eq_none_iff_noBreakSpace :
    '\n' ∉ "\u00a0x".toList ∧ group.matchLine "\u00a0x" false = none := by
  have hn : '\n' ∉ "\u00a0x".toList := by decide
  refine ⟨hn, ?_⟩
  exact (matchLine_eq_none_iff (s := group) (by simp [states]) (by decide) hn false).1.2
    ⟨rfl, by decide⟩

/-- A run of line comments misses lines: not every state takes every line. -/
theorem line_missed :
    ¬ ∀ s ∈ states, s.name ≠ "start" → ∀ line : String, '\n' ∉ line.toList →
      ∀ entering, s.matchLine line entering ≠ none := by
  intro h
  have hnone : group.matchLine "\u00a0x" false = none := by decide +kernel
  exact h group (by simp [states]) (by decide) "\u00a0x" (by decide) false hnone

end Dialect

end DocComment
