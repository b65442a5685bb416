import DocComment.Proofs.Coherence
import DocComment.Proofs.LinePatterns

/-!
# No line is evaluated forever

The states of the dialect hand lines on to one another, and they do so in circles: a
comment hands a source line to source, which hands a comment line back. What keeps a line
from going round is that the states look at the same line with patterns that agree with
each other. `replayRank` puts that into a number: how often a line can at most be asked
for again from a state on, given what the line starts with. Every time that it is asked
for, the number goes down (`replayRank_lt`), and it is never more than three.

Within block comments the number is settled by whether the line opens a formula or ends
the comment; outside of them by whether it is a line comment at all and, right after an
empty comment line, by whether it is one of code. The last rule of a state of code or of a
formula would break the measure, as it hands on what is left; what is left is never a
comment line, as the rules before it read any line of theirs to its end.
-/

namespace DocComment

open Text Pattern Relation Reader

/-- The states that a transition may have the line evaluated in again. -/
def Transition.replayTargets : Transition → List String
  | .goTo target true => [target]
  | .resolve .afterLineComment => [Action.tableState, "end_comment"]
  | .resolve .afterBlankLine => [Action.tableState]
  | _ => []

/-- The patterns on which rules may ask for a line again, with the states that evaluate it
then. -/
def replaysOf (rules : List Rule) : List (Pattern × String) :=
  rules.flatMap fun r => r.next.replayTargets.map fun target => (r.pattern, target)

theorem mem_replaysOf {rules : List Rule} {r : Rule} (hr : r ∈ rules) {target : String}
    (ht : target ∈ r.next.replayTargets) : (r.pattern, target) ∈ replaysOf rules :=
  List.mem_flatMap.2 ⟨r, hr, List.mem_map.2 ⟨target, ht, rfl⟩⟩

namespace Dialect

/-- How often a line can at most be asked for again, from a state on. -/
def replayRank (line : String) (state : String) : Nat :=
  let comment := lineStart.accepts line
  match state with
  | "mgroup" => if (spaces ++ "[math]").accepts line then 1 else 0
  | "mmath" => if blockEnd.accepts line then 1 else 0
  | "preamble" | "mcode" | "mcode_body" => 2
  | "mgroup_blank" | "group_blank" | "code_body" => 3
  | "group" => if comment then 1 else 2
  | "code" => if codeStart.accepts line then 0 else if comment then 2 else 3
  | "math" => if comment then 0 else 3
  | "end_comment" => if comment then 3 else 1
  | "lua" | "params" => if comment then 2 else 0
  | _ => 0

theorem replayRank_le (line state : String) : replayRank line state ≤ 3 := by
  unfold replayRank
  dsimp only
  repeat' split
  all_goals omega

theorem replayRank_mgroup_le (line : String) : replayRank line "mgroup" ≤ 1 := by
  show (if _ then _ else _) ≤ 1
  split <;> omega

theorem replayRank_group_le (line : String) : replayRank line "group" ≤ 2 := by
  show (if _ then _ else _) ≤ 2
  split <;> omega

/-- The state of the first line of code hands on only what is no code. -/
theorem replayRank_code {line : String} {entering : Bool} {m : LineMatch}
    (hm : code.matchLine line entering = some m) (hn : '\n' ∉ line.toList) {target : String}
    (ht : target ∈ m.rule.next.replayTargets) :
    replayRank line target < replayRank line code.name := by
  have hno : ¬ codeStart.accepts line := by
    intro hc
    have hr := @State.matchLine_mem_of_accepts code line entering m [] _ _ rfl rfl
      (accepts_append_anything hn hc 0) hm
    cases mem_replaysOf hr ht
  have hp : (m.rule.pattern, target) ∈ [(Pattern.empty, "group")] :=
    mem_replaysOf (State.matchLine_mem hm) ht
  obtain rfl : target = "group" := by simpa using (Prod.ext_iff.1 (List.mem_singleton.1 hp)).2
  show (if _ then 1 else 2) < if _ then 0 else if _ then 2 else 3
  rw [if_neg hno]
  split <;> omega

/-- The state of a formula hands on only what is no comment. -/
theorem replayRank_math {line : String} {entering : Bool} {m : LineMatch}
    (hm : math.matchLine line entering = some m) (hn : '\n' ∉ line.toList) {target : String}
    (ht : target ∈ m.rule.next.replayTargets) :
    replayRank line target < replayRank line math.name := by
  have hno : ¬ lineStart.accepts line := by
    intro hc
    have hs : (lineStart ++ spaces).accepts line := by
      obtain ⟨t, hr⟩ := accepts_iff.1 hc
      exact accepts_iff.2 ⟨t, t, hr, [], Nat.zero_le _, by simp, Spot.Passes.nil_iff.2 rfl⟩
    have hr := @State.matchLine_mem_of_accepts math line entering m (math.rules.take 3) _ _ rfl rfl
      (accepts_append_anything hn hs 0) hm
    cases mem_replaysOf hr ht
  have hp : (m.rule.pattern, target) ∈ [(Pattern.empty, "group")] :=
    mem_replaysOf (State.matchLine_mem hm) ht
  obtain rfl : target = "group" := by simpa using (Prod.ext_iff.1 (List.mem_singleton.1 hp)).2
  have hle := replayRank_group_le line
  show _ < if _ then 0 else 3
  rw [if_neg hno]
  omega

/-- A run of line comments hands on code, formulas and everything that is no comment. -/
theorem replayRank_group {line : String} {entering : Bool} {m : LineMatch}
    (hm : group.matchLine line entering = some m) {target : String}
    (ht : target ∈ m.rule.next.replayTargets) :
    replayRank line target < replayRank line group.name := by
  have ha := State.matchLine_accepts hm
  have hp : (m.rule.pattern, target) ∈
      [(codeStart, "code"), (indent ++ notAhead "//" ++ visible, Action.tableState),
       (indent ++ notAhead "//" ++ visible, "end_comment"),
       (run isBlank 0 ++ stop, Action.tableState), (lineStart ++ spaces ++ "[math]", "math")] :=
    mem_replaysOf (State.matchLine_mem hm) ht
  show _ < if _ then 1 else 2
  simp only [List.mem_cons, Prod.mk.injEq, List.not_mem_nil, or_false] at hp
  rcases hp with ⟨hp, rfl⟩ | ⟨hp, rfl⟩ | ⟨hp, rfl⟩ | ⟨hp, rfl⟩ | ⟨hp, rfl⟩ <;> rw [hp] at ha
  · show (if _ then 0 else _) < _
    rw [if_pos ha, if_pos (accepts_of_append ha)]
    omega
  · show (if _ then 2 else 0) < _
    rw [if_neg (not_lineStart_of_visible ha), if_neg (not_lineStart_of_visible ha)]
    omega
  · show (if _ then 3 else 1) < _
    rw [if_neg (not_lineStart_of_visible ha), if_neg (not_lineStart_of_visible ha)]
    omega
  · show (if _ then 2 else 0) < _
    rw [if_neg (not_lineStart_of_blank ha), if_neg (not_lineStart_of_blank ha)]
    omega
  · have hc : lineStart.accepts line := accepts_of_append (accepts_of_append ha)
    show (if _ then 0 else 3) < _
    rw [if_pos hc, if_pos hc]
    omega

/-- A block comment hands on a line to its formulas only if the line is one of them. -/
theorem replayRank_mgroup {line : String} {entering : Bool} {m : LineMatch}
    (hm : mgroup.matchLine line entering = some m) {target : String}
    (ht : target ∈ m.rule.next.replayTargets) :
    replayRank line target < replayRank line mgroup.name := by
  have ha := State.matchLine_accepts hm
  have hp : (m.rule.pattern, target) ∈ [(spaces ++ "[math]", "mmath")] :=
    mem_replaysOf (State.matchLine_mem hm) ht
  simp only [List.mem_singleton, Prod.mk.injEq] at hp
  obtain ⟨hp, rfl⟩ := hp
  rw [hp] at ha
  show (if _ then 1 else 0) < if _ then 1 else 0
  rw [if_neg (not_blockEnd_of_formula ha), if_pos ha]
  omega

theorem replayRank_mmath {line : String} {entering : Bool} {m : LineMatch}
    (hm : mmath.matchLine line entering = some m) {target : String}
    (ht : target ∈ m.rule.next.replayTargets) :
    replayRank line target < replayRank line mmath.name := by
  have ha := State.matchLine_accepts hm
  have hp : (m.rule.pattern, target) ∈ [(blockEnd, "mgroup")] :=
    mem_replaysOf (State.matchLine_mem hm) ht
  simp only [List.mem_singleton, Prod.mk.injEq] at hp
  obtain ⟨hp, rfl⟩ := hp
  rw [hp] at ha
  show (if _ then 1 else 0) < if _ then 1 else 0
  rw [if_neg fun hf => not_blockEnd_of_formula hf ha, if_pos ha]
  omega

/-- Every time that a line is asked for again, there are fewer times left. -/
theorem replayRank_lt {s : State} (hs : s ∈ states) {line : String} {entering : Bool}
    {m : LineMatch} (hm : s.matchLine line entering = some m) (hn : '\n' ∉ line.toList)
    {target : String} (ht : target ∈ m.rule.next.replayTargets) :
    replayRank line target < replayRank line s.name := by
  have ha := State.matchLine_accepts hm
  have hp := mem_replaysOf (State.matchLine_mem hm) ht
  have hgroup := replayRank_group_le line
  have hmgroup := replayRank_mgroup_le line
  -- the states that stand for themselves are above; the others hand on to at most two states
  have hone {p : Pattern} {t : String} (h : (m.rule.pattern, target) ∈ [(p, t)]) :
      m.rule.pattern = p ∧ target = t := by
    simpa using h
  have htwo {p q : Pattern} {t u : String} (h : (m.rule.pattern, target) ∈ [(p, t), (q, u)]) :
      m.rule.pattern = p ∧ target = t ∨ m.rule.pattern = q ∧ target = u := by
    simpa using h
  -- source and tables hand on line comments
  have hcomments (h : (m.rule.pattern, target) ∈ [(lineStart ++ spaces ++ visible, "group")]) :
      replayRank line target < if lineStart.accepts line then 2 else 0 := by
    obtain ⟨hcomment, rfl⟩ := hone h
    rw [hcomment] at ha
    have hc : lineStart.accepts line := accepts_of_append (accepts_of_append ha)
    show (if _ then 1 else 2) < _
    rw [if_pos hc, if_pos hc]
    omega
  simp only [states, List.mem_cons, List.not_mem_nil, or_false] at hs
  rcases hs with rfl | rfl | rfl | rfl | rfl | rfl | rfl | rfl | rfl | rfl | rfl | rfl | rfl | rfl |
    rfl
  · cases hp
  · obtain ⟨-, rfl⟩ := hone (p := .empty) (t := "mgroup") hp
    show _ < 2
    omega
  · exact replayRank_mgroup hm ht
  · rcases htwo (t := "mcode") (u := "mgroup") hp with ⟨-, rfl⟩ | ⟨-, rfl⟩
    · show 2 < 3
      omega
    · show _ < 3
      omega
  · obtain ⟨-, rfl⟩ := hone (p := .empty) (t := "mgroup") hp
    show _ < 2
    omega
  · rcases htwo (t := "mgroup") (u := "mgroup") hp with ⟨-, rfl⟩ | ⟨-, rfl⟩ <;> show _ < 2 <;> omega
  · exact replayRank_mmath hm ht
  · exact replayRank_group hm ht
  · rcases htwo (p := codeStart) (t := "code") (u := "group") hp with ⟨hcode, rfl⟩ | ⟨-, rfl⟩
    · rw [hcode] at ha
      show (if _ then 0 else _) < 3
      rw [if_pos ha]
      omega
    · show _ < 3
      omega
  · exact replayRank_code hm hn ht
  · obtain ⟨-, rfl⟩ := hone (p := .empty) (t := "group") hp
    show _ < 3
    omega
  · exact replayRank_math hm hn ht
  · obtain ⟨-, rfl⟩ := hone (p := .empty) (t := "lua") hp
    show (if _ then 2 else 0) < if _ then 3 else 1
    split <;> omega
  · exact hcomments hp
  · exact hcomments hp

end Dialect

/-! ## Lines end -/

theorem Resolver.mem_replayTargets {resolver : Resolver} {d : Draft} (hd : d.Closed)
    {target : String} (ht : resolver.target d = (target, true)) :
    target ∈ (Transition.resolve resolver).replayTargets := by
  unfold Resolver.target at ht
  rcases hd.back_cases with hb | hb <;> rw [hb] at ht
  · cases resolver with
    | afterLineComment =>
        cases ht
        exact List.mem_cons_of_mem _ List.mem_cons_self
    | afterBlankLine | afterBlockComment => cases ht
  · cases resolver with
    | afterLineComment | afterBlankLine =>
        cases ht
        exact List.mem_cons_self
    | afterBlockComment => cases ht

variable {r : Reader} {line : String} {g g' : Reading}

/-- A line that is asked for again is so by the rule that it met. -/
theorem Reading.Coherent.again (hg : g.Coherent) (hr : r.grammar = Dialect.grammar)
    (h : r.Again line g g') :
    ∃ m, g.state.matchLine line g.entering = some m ∧
      g'.state.name ∈ m.rule.next.replayTargets := by
  obtain ⟨-, hrules, -⟩ := Dialect.wellPhased_of_mem hg.state
  rcases evaluate_cases h with ⟨-, hf, -⟩ | ⟨m, e, hm, ha, ⟨-, hf, -⟩ | ⟨target, s, ht, hs, hl⟩⟩
  · cases hf
  · cases hf
  · refine ⟨m, hm, ?_⟩
    rw [hl.state]
    show s.name ∈ _
    rw [hr] at hs
    rw [Dialect.name_of_find? hs]
    have hrule := hrules m.rule (State.matchLine_mem hm)
    obtain ⟨hfits, -⟩ := act_fits hg hrule ha
    rcases hfits with ⟨hn, hfits⟩ | ⟨hn, -⟩
    · rw [hn, Option.getD_none] at ht
      cases hnext : m.rule.next with
      | stay =>
          rw [hnext] at ht
          cases ht
      | goTo target' again =>
          rw [hnext] at ht
          obtain ⟨rfl, rfl⟩ : target' = target ∧ again = true := by
            simpa [Transition.target?] using ht
          exact List.mem_cons_self
      | resolve resolver =>
          rw [hnext] at ht
          rw [Rule.wellPhased, hnext, Bool.and_eq_true, Bool.and_eq_true] at hrule
          exact Resolver.mem_replayTargets (hfits.of_below hrule.2.2) (Option.some.inj ht)
    · rw [hn] at ht
      cases ht

/-- A line ends after at most as many replays as its rank allows. -/
theorem Reading.Coherent.exists_ends (hg : g.Coherent) (hr : r.grammar = Dialect.grammar)
    (hn : '\n' ∉ line.toList) :
    ∃ n o, n ≤ Dialect.replayRank line g.state.name ∧ r.Ends line g n o := by
  induction hk : Dialect.replayRank line g.state.name using Nat.strongRecOn generalizing g with
  | ind k ih =>
    cases he : r.evaluate line g with
    | error f => exact ⟨0, _, Nat.zero_le _, .fault he⟩
    | ok x =>
        obtain ⟨g', again⟩ := x
        cases again with
        | false => exact ⟨0, _, Nat.zero_le _, .done he⟩
        | true =>
            obtain ⟨m, hm, hmem⟩ := hg.again hr he
            have hlt := Dialect.replayRank_lt hg.state hm hn hmem
            rw [hk] at hlt
            obtain ⟨n, o, hle, ho⟩ := ih _ hlt (hg.evaluate hr he).1 rfl
            exact ⟨n + 1, o, by omega, .again he ho⟩

/-- A line is replayed at most three times, whatever came before it. -/
theorem Reading.Coherent.exists_ends_le (hg : g.Coherent) (hr : r.grammar = Dialect.grammar)
    (hl : IsLine line) :
    ∃ n o, n ≤ 3 ∧ r.Ends (dropLineEnd line) { g with line := g.line + 1 } n o := by
  have hg' : Reading.Coherent { g with line := g.line + 1 } := ⟨hg.state, hg.fits⟩
  obtain ⟨n, o, hle, ho⟩ := hg'.exists_ends hr hl
  exact ⟨n, o, Nat.le_trans hle (Dialect.replayRank_le _ _), ho⟩

/-- So with a bound of three or more the bound does not matter. -/
theorem feed_of_ends {n : Nat} {o : Except Fault Reading}
    (h : r.Ends (dropLineEnd line) { g with line := g.line + 1 } n o) (hle : n ≤ 3)
    (hr : 3 ≤ r.maxReplay) : r.feed g line = o := by
  refine evaluateAll_of_ends h ?_
  omega

/-- A coherent reading reads a line to its end, however often it is replayed on the
way. -/
theorem Reading.Coherent.feed_eq (hg : g.Coherent) (hr : r.grammar = Dialect.grammar)
    (hbound : 3 ≤ r.maxReplay) (hl : IsLine line) {n : Nat} {o : Except Fault Reading}
    (h : r.Ends (dropLineEnd line) { g with line := g.line + 1 } n o) : r.feed g line = o := by
  obtain ⟨n', o', hle, h'⟩ := hg.exists_ends_le hr hl
  have ho := evaluateAll_of_ends h (Nat.le_max_left n n')
  have ho' := evaluateAll_of_ends h' (Nat.le_max_right n n')
  rw [feed_of_ends h' hle hbound, ← ho, ho']

end DocComment
