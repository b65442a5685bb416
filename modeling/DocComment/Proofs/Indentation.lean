import DocComment.Proofs.CommentEquivalence
import DocComment.Proofs.Consistency
import DocComment.Proofs.MissedLines

/-!
# Where a line comment starts does not matter

Outside of block comments a line comment may be indented by spaces and tabs, and whatever
it leads to is the same without them (`indentation_irrelevant`).

`Pattern.Unindents` says so of a pattern, for all that may be read after it; thus a
pattern has it as soon as its first part has, and of a rule no more than that part is
looked at. A pattern that takes no line comment has it as well. What is left are the rules
that open a table, which capture from behind the indentation and come back to it if the
rest fails; they gain nothing by that.

One rule is different, as it captures the line from its very start: the last one of
source. It matters where source is captured, and no comment is read then, except right
after another one.
-/

namespace DocComment

open Text Pattern Dialect Relation Reader

namespace Pattern

/-! ## Patterns that pass over indentation -/

/-- A pattern that reads an indented line comment as it reads the same comment without the
indentation, whatever is done next. -/
def Unindents (p : Pattern) : Prop :=
  ∀ next, Steady next → ∀ margin cs : List Char, (∀ c ∈ margin, isIndent c) → ∀ ms,
    p.follow next ⟨none, margin ++ '/' :: '/' :: cs⟩ ms =
      p.follow next ⟨none, '/' :: '/' :: cs⟩ ms

theorem Unindents.append {p : Pattern} (hp : p.Unindents) (q : Pattern) : (p ++ q).Unindents :=
  fun _ hnext => hp _ (follow_congr hnext)

theorem dropWhile_margin {margin cs : List Char} (hm : ∀ c ∈ margin, isIndent c) :
    (margin ++ '/' :: '/' :: cs).dropWhile isIndent = '/' :: '/' :: cs := by
  rw [List.dropWhile_append_of_pos hm]
  rfl

/-- What starts after the indentation, and not within it. -/
theorem unindents_indent {q : Pattern}
    (hq : ∀ next b cs ms, q.follow next ⟨b, ' ' :: cs⟩ ms = none ∧
      q.follow next ⟨b, '\t' :: cs⟩ ms = none) : (indent ++ q).Unindents := by
  intro next hnext margin cs hm ms
  have hfollow (line : List Char) : (indent ++ q).follow next ⟨none, line⟩ ms =
      q.follow next ⟨none, line.dropWhile isIndent⟩ ms := by
    refine follow_indent (follow_congr hnext) (s := ⟨none, line⟩) rfl ?_
    intro b c cs hc
    rcases isIndent_iff.1 hc with rfl | rfl
    · exact (hq next b cs ms).1
    · exact (hq next b cs ms).2
  rw [hfollow, hfollow, dropWhile_margin hm]
  rfl

theorem unindents_lineStart : lineStart.Unindents :=
  unindents_indent fun _ _ _ _ => ⟨rfl, rfl⟩

/-! ## Patterns that take no line comment -/

/-- A pattern that takes no line comment. -/
def Foreign (p : Pattern) : Prop :=
  ∀ line, lineStart.accepts line → ¬ p.accepts line

theorem Foreign.append {p : Pattern} (hp : p.Foreign) (q : Pattern) : (p ++ q).Foreign :=
  fun line hline h => hp line hline (accepts_of_append h)

theorem Foreign.capture {p : Pattern} (hp : p.Foreign) (i : Nat) : (capture i p).Foreign := by
  intro line hline h
  obtain ⟨t, ht⟩ := accepts_iff.1 h
  exact hp line hline (accepts_iff.2 ⟨t, ht⟩)

/-- A text that neither starts with indentation nor goes together with two slashes. -/
theorem foreign_lit {text : String} (hhead : text.toList.head?.any isIndent = false)
    (hslashes : ¬ "//".toList <+: text.toList ∧ ¬ text.toList <+: "//".toList) :
    (lit text).Foreign := by
  intro line hline h
  obtain ⟨w, rest, hw, hchars⟩ := lineStart_accepts_iff.1 hline
  obtain ⟨t, ht⟩ := accepts_iff.1 h
  have hprefix : text.toList <+: line.toList := ⟨t.rest, (Spot.Passes.rest ht).symm⟩
  rw [hchars] at hprefix
  cases w with
  | nil =>
      have hcomment : "//".toList <+: [] ++ '/' :: '/' :: rest := ⟨rest, rfl⟩
      rcases List.prefix_or_prefix_of_prefix hcomment hprefix with h | h
      · exact hslashes.1 h
      · exact hslashes.2 h
  | cons c w =>
      cases htext : text.toList with
      | nil => exact hslashes.2 (htext ▸ List.nil_prefix)
      | cons d ds =>
          rw [htext] at hprefix hhead
          obtain rfl : d = c := (List.cons_prefix_cons.1 hprefix).1
          have hc := hw d List.mem_cons_self
          exact absurd hc (Bool.eq_false_iff.1 hhead)

theorem Foreign.unindents {p : Pattern} (hp : p.Foreign) : p.Unindents := by
  intro next _ margin cs hm ms
  have hnone {w : List Char} (hw : ∀ c ∈ w, isIndent c) :
      p.follow next ⟨none, w ++ '/' :: '/' :: cs⟩ ms = none := by
    rw [Option.eq_none_iff_forall_ne_some]
    intro found hfound
    obtain ⟨t, marks, ht, -⟩ := follow_takes hfound
    have hline : (String.ofList (w ++ '/' :: '/' :: cs)).toList = w ++ '/' :: '/' :: cs :=
      String.toList_ofList
    refine hp (String.ofList (w ++ '/' :: '/' :: cs))
      (lineStart_accepts_iff.2 ⟨w, cs, hw, hline⟩) (accepts_iff.2 ⟨t, ?_⟩)
    rw [hline]
    exact ht.reads
  rw [hnone hm]
  exact (hnone (w := []) (by simp)).symm

theorem foreign_lib : (lit "lib.").Foreign :=
  foreign_lit (by decide) (by decide)

theorem foreign_blockStart : (lit "/*").Foreign :=
  foreign_lit (by decide) (by decide)

theorem foreign_libFunction (i : Nat) : (libFunction i).Foreign := by
  unfold libFunction
  repeat with_reducible refine Foreign.append ?_ _
  exact foreign_lib

theorem foreign_libKey (i : Nat) : (libKey i).Foreign :=
  (foreign_lib.append _).append _

/-- A declaration with or without its keyword. -/
theorem foreign_declaration :
    (optional (declarationKeyword ++ gap) ++ libKey 0 ++ assigned 1).Foreign := by
  intro line hline h
  obtain ⟨t, m, ⟨m', hkeyword | rfl, hkey⟩, -⟩ := accepts_iff.1 h
  · obtain ⟨m'', hkeyword | hkeyword | hkeyword, -⟩ := hkeyword
    all_goals
      refine foreign_lit (by decide) (by decide) line hline (accepts_iff.2 ⟨m'', hkeyword⟩)
  · exact foreign_libKey 0 line hline (accepts_iff.2 ⟨m, hkey⟩)

/-! ## Whole lines -/

/-- A pattern that captures the same from an indented line comment as without the
indentation. -/
def IgnoresIndent (p : Pattern) : Prop :=
  ∀ margin comment : String, (∀ c ∈ margin.toList, isIndent c) → "//".toList <+: comment.toList →
    p.read? (margin ++ comment) = p.read? comment

theorem ignoresIndent_of_follow {p : Pattern}
    (h : ∀ margin cs : List Char, (∀ c ∈ margin, isIndent c) →
      p.follow done ⟨none, margin ++ '/' :: '/' :: cs⟩ [] =
        p.follow done ⟨none, '/' :: '/' :: cs⟩ []) : p.IgnoresIndent := by
  rintro margin comment hm ⟨cs, hcs⟩
  refine read?_eq_of_follow rfl ?_
  rw [String.toList_append, ← hcs]
  exact h margin.toList cs hm

theorem Unindents.ignoresIndent {p : Pattern} (hp : p.Unindents) : p.IgnoresIndent :=
  ignoresIndent_of_follow fun margin cs hm => hp done steady_done margin cs hm []

theorem ignoresIndent_empty : empty.IgnoresIndent :=
  fun _ _ _ _ => rfl

/-- The key of a table starts behind the indentation, which is no part of what is read up
to the equals sign. -/
theorem ignoresIndent_key {p q : Pattern}
    (hp : p.follow done = (indent ++ (capture 0 little ++ (spaces ++ ("=" ++ q)))).follow done) :
    p.IgnoresIndent := by
  refine ignoresIndent_of_follow fun margin cs hm => ?_
  have hgain (b : Option Char) (c : Char) (cs : List Char) (hc : isIndent c)
      (h : ((capture 0 little ++ (spaces ++ ("=" ++ q))).follow done ⟨b, c :: cs⟩ []).isSome) :
      ((capture 0 little ++ (spaces ++ ("=" ++ q))).follow done ⟨some c, cs⟩ []).isSome := by
    rw [@follow_isSome _ _ (fun _ => True) (by simp)] at h ⊢
    obtain ⟨t, ⟨m, ⟨w, hw, hm⟩, m', ⟨v, -, hv, hm'⟩, m'', hlit, hq⟩, -⟩ := h
    cases w with
    | cons d w =>
        obtain ⟨cs', hcs, hm⟩ := Spot.Passes.cons_iff.1 hm
        obtain ⟨rfl, rfl⟩ : c = d ∧ cs = cs' := by simpa using hcs
        exact ⟨t, ⟨m, ⟨w, fun x hx => hw x (List.mem_cons_of_mem _ hx), hm⟩, m',
          ⟨v, Nat.zero_le _, hv, hm'⟩, m'', hlit, hq⟩, trivial⟩
    | nil =>
        rw [Spot.Passes.nil_iff] at hm
        subst hm
        cases v with
        | cons d v =>
            obtain ⟨cs', hcs, hm'⟩ := Spot.Passes.cons_iff.1 hm'
            obtain ⟨rfl, rfl⟩ : c = d ∧ cs = cs' := by simpa using hcs
            exact ⟨t, ⟨_, ⟨[], by simp, Spot.Passes.nil_iff.2 rfl⟩, m',
              ⟨v, Nat.zero_le _, fun x hx => hv x (List.mem_cons_of_mem _ hx), hm'⟩, m'', hlit, hq⟩,
              trivial⟩
        | nil =>
            -- an equals sign is no indentation
            rw [Spot.Passes.nil_iff] at hm'
            subst hm'
            obtain ⟨cs', hcs, -⟩ := Spot.Passes.cons_iff.1 (show Spot.Passes _ ['='] m'' from hlit)
            injection hcs with hc' _
            rw [hc'] at hc
            cases hc
  have hfollow (line : List Char) : p.follow done ⟨none, line⟩ [] =
      (capture 0 little ++ (spaces ++ ("=" ++ q))).follow done
        ⟨none, line.dropWhile isIndent⟩ [] := by
    rw [hp]
    refine follow_run ?_ (follow_congr steady_done) (s := ⟨none, line⟩) rfl (.inr hgain)
    intro c hc
    rcases isIndent_iff.1 hc with rfl | rfl <;> rfl
  rw [hfollow, hfollow, dropWhile_margin hm]
  rfl

end Pattern

/-! ## Rules outside of block comments -/

namespace Dialect

theorem ignoresIndent_start : ∀ r ∈ Dialect.start.rules, r.pattern.IgnoresIndent := by
  intro r hr
  simp only [Dialect.start, List.mem_cons, List.not_mem_nil, or_false] at hr
  rcases hr with rfl | rfl | rfl
  · refine Unindents.ignoresIndent ?_
    repeat with_reducible refine Unindents.append ?_ _
    exact foreign_blockStart.unindents
  · exact foreign_blockStart.unindents.ignoresIndent
  · exact (unindents_lineStart.append _).ignoresIndent

theorem ignoresIndent_group : ∀ r ∈ group.rules, r.pattern.IgnoresIndent := by
  intro r hr
  simp only [group, List.mem_cons, List.not_mem_nil, or_false] at hr
  rcases hr with rfl | rfl | rfl | rfl | rfl | rfl | rfl | rfl | rfl | rfl | rfl | rfl | rfl
  case inr.inl =>
    exact (Foreign.unindents fun line hline h => not_lineStart_of_visible h hline).ignoresIndent
  case inr.inr.inl =>
    exact (Foreign.unindents fun line hline h => not_lineStart_of_blank h hline).ignoresIndent
  all_goals
    refine Unindents.ignoresIndent ?_
    repeat with_reducible refine Unindents.append ?_ _
    first
      | exact unindents_lineStart
      | exact unindents_lineStart.append _

theorem ignoresIndent_comment {s : State} (hs : s ∈ [groupBlank, code, codeBody, math]) :
    ∀ r ∈ s.rules, r.pattern.IgnoresIndent := by
  have hline {r : Rule} (h : r.pattern = .empty ∨ r.pattern.Unindents) :
      r.pattern.IgnoresIndent := by
    rcases h with h | h
    · rw [h]
      exact ignoresIndent_empty
    · exact h.ignoresIndent
  intro r hr
  refine hline ?_
  simp only [List.mem_cons, List.not_mem_nil, or_false] at hs
  rcases hs with rfl | rfl | rfl | rfl
  all_goals
    simp only [groupBlank, code, codeBody, math, List.mem_cons, List.not_mem_nil, or_false] at hr
  · rcases hr with rfl | rfl
    · exact .inr (unindents_lineStart.append _)
    · exact .inl rfl
  · rcases hr with rfl | rfl
    · exact .inr (((unindents_lineStart.append _).append _).append _)
    · exact .inl rfl
  · rcases hr with rfl | rfl | rfl
    · exact .inr (((unindents_lineStart.append _).append _).append _)
    · exact .inr (unindents_lineStart.append _)
    · exact .inl rfl
  · rcases hr with rfl | rfl | rfl | rfl | rfl
    · exact .inr (unindents_lineStart.append _)
    · exact .inr (unindents_lineStart.append _)
    · exact .inr ((unindents_lineStart.append _).append _)
    · exact .inr (((unindents_lineStart.append _).append _).append _)
    · exact .inl rfl

theorem ignoresIndent_endComment : ∀ r ∈ endComment.rules, r.pattern.IgnoresIndent := by
  intro r hr
  simp only [endComment, List.mem_cons, List.not_mem_nil, or_false] at hr
  rcases hr with rfl | rfl | rfl | rfl
  · exact (foreign_libFunction 0).unindents.ignoresIndent
  · exact foreign_declaration.unindents.ignoresIndent
  · refine Unindents.ignoresIndent ?_
    repeat with_reducible refine Unindents.append ?_ _
    exact (foreign_lit (by decide) (by decide)).unindents
  · exact ignoresIndent_empty

theorem foreign_wholeBlock : lua.rules[9].pattern.Foreign := by
  have hblock : ("/*" ++ anything ++ "*/" ++ spaces).Foreign :=
    ((foreign_blockStart.append _).append _).append _
  exact (hblock.capture 0).append stop

/-- All rules of source but the last one. -/
theorem ignoresIndent_lua : ∀ r ∈ lua.rules.take 11, r.pattern.IgnoresIndent := by
  intro r hr
  simp only [lua, List.take_succ_cons, List.take_zero, List.mem_cons, List.not_mem_nil,
    or_false] at hr
  rcases hr with rfl | rfl | rfl | rfl | rfl | rfl | rfl | rfl | rfl | rfl | rfl
  · exact ((((foreign_libFunction 1).append _).capture 0).append _).unindents.ignoresIndent
  · have hkey : (libKey 1 ++ spaces ++ "=" ++ spaces ++ capture 2 something).Foreign := by
      repeat with_reducible refine Foreign.append ?_ _
      exact foreign_libKey 1
    exact ((hkey.capture 0).append _).unindents.ignoresIndent
  · have hbrace : (lit "\x7d").Foreign := foreign_lit (by decide) (by decide)
    exact (((hbrace.append _).capture 0).append _).unindents.ignoresIndent
  · refine Unindents.ignoresIndent ?_
    repeat with_reducible refine Unindents.append ?_ _
    exact unindents_lineStart
  · refine Unindents.ignoresIndent ?_
    repeat with_reducible refine Unindents.append ?_ _
    exact unindents_lineStart
  · exact ignoresIndent_key (q := spaces ++ (one isOpening ++ docMark)) rfl
  · exact ignoresIndent_key (q := docMark) rfl
  · exact ((unindents_indent fun _ _ _ _ => ⟨rfl, rfl⟩).append _).ignoresIndent
  · exact ((unindents_lineStart.append _).append _).ignoresIndent
  · exact foreign_wholeBlock.unindents.ignoresIndent
  · exact foreign_blockStart.unindents.ignoresIndent

theorem ignoresIndent_params : ∀ r ∈ params.rules, r.pattern.IgnoresIndent := by
  have hblock : params.blockOpening.Unindents :=
    ((unindents_indent fun _ _ _ _ => ⟨rfl, rfl⟩).append _).append _
  intro r hr
  simp only [params, List.mem_cons, List.not_mem_nil, or_false] at hr
  rcases hr with rfl | rfl | rfl | rfl | rfl | rfl | rfl | rfl | rfl
  case inr.inr.inr.inr.inr.inr.inr.inr => exact ignoresIndent_empty
  all_goals
    refine Unindents.ignoresIndent ?_
    repeat first
      | exact unindents_indent fun _ _ _ _ => ⟨rfl, rfl⟩
      | with_reducible refine Unindents.append ?_ _
    first
      | done
      | exact unindents_lineStart
      | exact hblock

/-- The states within a block comment, where slashes are text. -/
def blockStates : List String :=
  ["preamble", "mgroup", "mgroup_blank", "mcode", "mcode_body", "mmath"]

theorem ignoresIndent_of_mem {s : State} (hs : s ∈ states) (hblock : s.name ∉ blockStates)
    (hlua : s.name ≠ "lua") : ∀ r ∈ s.rules, r.pattern.IgnoresIndent := by
  simp only [states, List.mem_cons, List.not_mem_nil, or_false] at hs
  rcases hs with rfl | rfl | rfl | rfl | rfl | rfl | rfl | rfl | rfl | rfl | rfl | rfl | rfl | rfl |
    rfl
  · exact ignoresIndent_start
  case inr.inr.inr.inr.inr.inr.inr.inl => exact ignoresIndent_group
  case inr.inr.inr.inr.inr.inr.inr.inr.inr.inr.inr.inr.inl => exact ignoresIndent_endComment
  case inr.inr.inr.inr.inr.inr.inr.inr.inr.inr.inr.inr.inr.inl => exact absurd rfl hlua
  case inr.inr.inr.inr.inr.inr.inr.inr.inr.inr.inr.inr.inr.inr => exact ignoresIndent_params
  all_goals
    first
      | exact absurd (by decide) hblock
      | exact ignoresIndent_comment (by simp)

/-- A line comment that ends no comment is evaluated again within a comment, or else in
source, right after a comment. -/
theorem replayTargets_of_comment :
    ∀ s ∈ states, s.name ∉ blockStates → ∀ r ∈ s.rules, r.action ≠ some .closeComment →
      ∀ target ∈ r.next.replayTargets, target ∉ blockStates ∧ target ≠ "end_comment" ∧
        (target = "lua" → s.name = "end_comment" ∧ r.action = none) := by
  decide

theorem group_of_closeComment :
    ∀ s ∈ states, s.name ∉ blockStates → ∀ r ∈ s.rules, r.action = some .closeComment →
      s.name = "group" := by
  decide

theorem not_closeComment_of_comment {s : State} (hs : s ∈ states) (hblock : s.name ∉ blockStates)
    {r : Rule} (hr : r ∈ s.rules) {line : String} (hline : lineStart.accepts line)
    (h : r.pattern.accepts line) : r.action ≠ some .closeComment := by
  intro ha
  obtain rfl : s = group :=
    eq_of_name hs (by simp [states]) (group_of_closeComment s hs hblock r hr ha)
  simp only [group, List.mem_cons, List.not_mem_nil, or_false] at hr
  rcases hr with rfl | rfl | rfl | rfl | rfl | rfl | rfl | rfl | rfl | rfl | rfl | rfl | rfl
  case inr.inl => exact not_lineStart_of_visible h hline
  case inr.inr.inl => exact not_lineStart_of_blank h hline
  all_goals cases ha

end Dialect

/-! ## The rule that a line comment meets -/

theorem matchFrom_append (index : Nat) (rules rules' : List Rule) (line : String)
    (entering : Bool) :
    matchFrom index (rules ++ rules') line entering =
      (matchFrom index rules line entering).or
        (matchFrom (index + rules.length) rules' line entering) := by
  induction rules generalizing index with
  | nil => rfl
  | cons r rules ih =>
      have hlength : index + (r :: rules).length = index + 1 + rules.length := by
        rw [List.length_cons]
        omega
      rw [List.cons_append, matchFrom, matchFrom, ih, hlength]
      split
      · split <;> rfl
      · rfl

theorem matchFrom_congr {rules : List Rule} {line line' : String}
    (h : ∀ r ∈ rules, r.pattern.read? line = r.pattern.read? line') (index : Nat)
    (entering : Bool) :
    matchFrom index rules line entering = matchFrom index rules line' entering := by
  induction rules generalizing index with
  | nil => rfl
  | cons r rules ih =>
      rw [matchFrom, matchFrom, h r List.mem_cons_self,
        ih fun r hr => h r (List.mem_cons_of_mem _ hr)]

variable {margin comment : String}

theorem lineStart_of_slashes (h : "//".toList <+: comment.toList) : lineStart.accepts comment := by
  obtain ⟨rest, hrest⟩ := h
  exact lineStart_accepts_iff.2 ⟨[], rest, by simp, hrest.symm⟩

theorem wholeLine_read? {line : String} (hn : '\n' ∉ line.toList) :
    (capture 0 anything ++ stop).read? line = some [some line] := by
  have htext : Mark.text ⟨line.toList, []⟩ = line := by simp [Mark.text]
  have hfollow := follow_anything (i := 0) (s := ⟨none, line.toList⟩) hn []
  have hcaptures : ((List.range 1).map fun i =>
      (([(0, ⟨line.toList, []⟩)] : Marks).lookup i).map Mark.text) = [some line] :=
    congrArg (fun t => [some t]) htext
  exact hcaptures ▸ congrArg _ hfollow

/-- The last rule of source captures the whole line; it is the only one that captures a
line comment as source. -/
theorem lua_matchLine_indented (hm : ∀ c ∈ margin.toList, isIndent c)
    (hcomment : "//".toList <+: comment.toList) (hn : '\n' ∉ comment.toList) (entering : Bool) :
    lua.matchLine (margin ++ comment) entering = lua.matchLine comment entering ∧
        (∀ m, lua.matchLine comment entering = some m → m.rule.action ≠ some .sourceLine) ∨
      ∃ m m', lua.matchLine (margin ++ comment) entering = some m ∧
        lua.matchLine comment entering = some m' ∧ m.rule.action = some .sourceLine ∧
        m.rule = m'.rule ∧ m.captures = [some (margin ++ comment)] ∧
        m'.captures = [some comment] := by
  have hlast (line : String) : lua.matchLine line entering =
      (matchFrom 0 (lua.rules.take 11) line entering).or
        (matchFrom 11 (lua.rules.drop 11) line entering) :=
    matchFrom_append 0 (lua.rules.take 11) (lua.rules.drop 11) line entering
  have hwhole {line : String} (hn : '\n' ∉ line.toList) :
      matchFrom 11 (lua.rules.drop 11) line entering =
        some ⟨11, lua.rules[11], [some line]⟩ := by
    have hread : lua.rules[11].pattern.read? line = some [some line] := wholeLine_read? hn
    have hactive : lua.rules[11].active entering := rfl
    have hdrop : lua.rules.drop 11 = [lua.rules[11]] := rfl
    rw [hdrop, matchFrom, if_pos hactive, hread]
  have hsame : matchFrom 0 (lua.rules.take 11) (margin ++ comment) entering =
      matchFrom 0 (lua.rules.take 11) comment entering :=
    matchFrom_congr (fun r hr => ignoresIndent_lua r hr margin comment hm hcomment) 0 entering
  rw [hlast, hlast, hsame]
  cases hx : matchFrom 0 (lua.rules.take 11) comment entering with
  | some m =>
      left
      refine ⟨rfl, ?_⟩
      rintro m' hm' ha
      obtain rfl : m = m' := Option.some.inj hm'
      obtain ⟨pre, post, hrules, -, hread, -⟩ := matchFrom_eq_some hx
      have hmem : m.rule ∈ lua.rules.take 11 := by
        rw [hrules]
        exact List.mem_append_right _ List.mem_cons_self
      have haccepts := accepts_of_read hread
      simp only [lua, List.take_succ_cons, List.take_zero, List.mem_cons, List.not_mem_nil,
        or_false] at hmem
      rcases hmem with h | h | h | h | h | h | h | h | h | h | h <;> rw [h] at ha haccepts
      case inr.inr.inr.inr.inr.inr.inr.inr.inr.inl =>
        exact foreign_wholeBlock comment (lineStart_of_slashes hcomment) haccepts
      all_goals cases ha
  | none =>
      right
      have hmargin : '\n' ∉ (margin ++ comment).toList := by
        rw [String.toList_append, List.mem_append]
        rintro (h | h)
        · exact absurd (hm _ h) (by decide)
        · exact hn h
      exact ⟨_, _, hwhole hmargin, hwhole hn, rfl, rfl, rfl, rfl⟩

/-! ## Evaluating a line comment -/

variable {r : Reader} {g k : Reading}

/-- A line that meets the same rule is evaluated alike. -/
theorem evaluate_of_matchLine {line line' : String}
    (h : g.state.matchLine line g.entering = g.state.matchLine line' g.entering)
    (hsome : g.state.matchLine line' g.entering ≠ none) :
    r.evaluate line g = r.evaluate line' g := by
  obtain ⟨m, hm⟩ := Option.ne_none_iff_exists'.1 hsome
  rw [evaluate, evaluate, h, hm]

/-- Lines that are evaluated alike end alike, if they do where they are evaluated
again. -/
theorem alike_of_evaluate {line line' : String} (h : r.evaluate line g = r.evaluate line' g)
    {left : Nat}
    (hagain : ∀ k, r.evaluate line' g = .ok (k, true) → ∀ left' < left,
      Alike (r.evaluateAll line left' k) (r.evaluateAll line' left' k)) :
    Alike (r.evaluateAll line left g) (r.evaluateAll line' left g) := by
  unfold evaluateAll
  rw [h]
  cases he : r.evaluate line' g with
  | error f => exact .error f
  | ok x =>
      obtain ⟨k, again⟩ := x
      cases again with
      | false => exact .ok (.refl k)
      | true =>
          cases left with
          | zero => exact .error _
          | succ left => exact hagain k he left (Nat.lt_succ_self left)

/-- In source a line comment is evaluated alike with its indentation and without, or else
is captured as it stands. -/
theorem evaluate_lua_indented (hs : g.state = lua) (hm : ∀ c ∈ margin.toList, isIndent c)
    (hcomment : "//".toList <+: comment.toList) (hn : '\n' ∉ comment.toList) :
    r.evaluate (margin ++ comment) g = r.evaluate comment g ∧
        (∀ m, lua.matchLine comment g.entering = some m → m.rule.action ≠ some .sourceLine) ∨
      ∃ k k', r.evaluate (margin ++ comment) g = .ok (k, false) ∧
        r.evaluate comment g = .ok (k', false) ∧
        k.Like { g with entering := false, draft := g.draft.captureLine (margin ++ comment) } ∧
        k'.Like { g with entering := false, draft := g.draft.captureLine comment } ∧
        ∃ m, lua.matchLine comment g.entering = some m ∧ m.rule.action = some .sourceLine := by
  rcases lua_matchLine_indented hm hcomment hn g.entering with
    ⟨hsame, haction⟩ | ⟨m, m', hx, hx', ha, hrule, hc, hc'⟩
  · refine Or.inl ⟨evaluate_of_matchLine ?_ ?_, haction⟩
    · rw [hs]
      exact hsame
    · rw [hs]
      exact matchLine_lua hn g.entering
  · right
    have hcapture {m : LineMatch} {line : String} (ha : m.rule.action = some .sourceLine)
        (hc : m.captures = [some line])
        (hx : g.state.matchLine line g.entering = some m) :
        ∃ k, r.evaluate line g = .ok (k, false) ∧
          k.Like { g with entering := false, draft := g.draft.captureLine line } := by
      have hact : act g m = .ok { draft := g.draft.captureLine line } := by
        rw [act, ha, hc]
        rfl
      have hstay : m.rule.next = .stay := by
        have hmem := State.matchLine_mem hx
        rw [hs] at hmem
        exact (by decide : ∀ r ∈ lua.rules, r.action = some .sourceLine → r.next = .stay) _ hmem ha
      refine evaluate_of_stay hx hact ?_
      show m.rule.next.target? _ = none
      rw [hstay]
      rfl
    rw [← hs] at hx hx'
    obtain ⟨k, hk, hl⟩ := hcapture ha hc hx
    obtain ⟨k', hk', hl'⟩ := hcapture (hrule ▸ ha) hc' hx'
    exact ⟨k, k', hk, hk', hl, hl', m', hs ▸ hx', hrule ▸ ha⟩

/-- A reading outside of block comments that captures no source, now or where it goes on
with a line comment. -/
structure Reading.PassesIndent (g : Reading) : Prop where
  outside : g.state.name ∉ blockStates
  plain : g.state.name = "end_comment" ∨ g.state.name = "lua" → g.draft.doc.literate = false

namespace Reading

theorem Coherent.evaluate_indented (hg : g.Coherent) (hout : g.state.name ∉ blockStates)
    (hlua : g.state.name ≠ "lua") (hm : ∀ c ∈ margin.toList, isIndent c)
    (hcomment : "//".toList <+: comment.toList) :
    r.evaluate (margin ++ comment) g = r.evaluate comment g ∨
      ∃ k k', r.evaluate (margin ++ comment) g = .ok (k, false) ∧
        r.evaluate comment g = .ok (k', false) ∧ k.Like k' := by
  have hsame : g.state.matchLine (margin ++ comment) g.entering =
      g.state.matchLine comment g.entering :=
    matchFrom_congr (fun r hr =>
      ignoresIndent_of_mem hg.state hout hlua r hr margin comment hm hcomment) 0 g.entering
  cases hx : g.state.matchLine comment g.entering with
  | some m => exact .inl (evaluate_of_matchLine hsame (by rw [hx]; simp))
  | none =>
      obtain ⟨k, hk, hl⟩ := @evaluate_of_none r _ _ (hsame.trans hx)
      obtain ⟨k', hk', hl'⟩ := @evaluate_of_none r _ _ hx
      exact .inr ⟨k, k', hk, hk', hl.trans hl'.symm⟩

theorem PassesIndent.evaluate (hp : g.PassesIndent) (hg : g.Coherent)
    (hm : ∀ c ∈ margin.toList, isIndent c) (hcomment : "//".toList <+: comment.toList)
    (hn : '\n' ∉ comment.toList) :
    r.evaluate (margin ++ comment) g = r.evaluate comment g ∨
      ∃ k k', r.evaluate (margin ++ comment) g = .ok (k, false) ∧
        r.evaluate comment g = .ok (k', false) ∧ k.Like k' := by
  by_cases hlua : g.state.name = "lua"
  · have hs : g.state = lua := hg.in_source hlua
    refine (evaluate_lua_indented hs hm hcomment hn).imp And.left ?_
    rintro ⟨k, k', hk, hk', hl, hl', -⟩
    have hscratch : g.draft.scratch = none := by
      rw [← Option.not_isSome_iff_eq_none, hg.consistent.captured, hp.plain (.inr hlua)]
      simp
    have hnone (line : String) : g.draft.captureLine line = g.draft := by
      rw [Draft.captureLine, hscratch]
    rw [hnone] at hl hl'
    exact ⟨k, k', hk, hk', hl.trans hl'.symm⟩
  · exact hg.evaluate_indented hp.outside hlua hm hcomment

/-- A line comment that is evaluated again is so in a reading of this kind. -/
theorem Coherent.passesIndent_of_again (hg : g.Coherent) (hr : r.grammar = Dialect.grammar)
    (hout : g.state.name ∉ blockStates)
    (hplain : g.state.name = "end_comment" → g.draft.doc.literate = false)
    (hcomment : "//".toList <+: comment.toList) (h : r.Again comment g k) : k.PassesIndent := by
  obtain ⟨m, hx, hmem⟩ := hg.again hr h
  have hrule := State.matchLine_mem hx
  have hclose := not_closeComment_of_comment hg.state hout hrule (lineStart_of_slashes hcomment)
    (State.matchLine_accepts hx)
  obtain ⟨htarget, hend, hlua⟩ :=
    replayTargets_of_comment g.state hg.state hout m.rule hrule hclose k.state.name hmem
  refine ⟨htarget, ?_⟩
  rintro (hname | hname)
  · exact absurd hname hend
  · obtain ⟨hs, ha⟩ := hlua hname
    rcases evaluate_cases h with ⟨-, hno, -⟩ | ⟨m', e, hx', he, ⟨-, hno, -⟩ | ⟨target, s, -, -, hl⟩⟩
    · cases hno
    · cases hno
    · obtain rfl : m = m' := Option.some.inj (hx.symm.trans hx')
      have hdraft : e.draft = g.draft := by
        rw [act, ha] at he
        cases he
        rfl
      obtain rfl : s = lua := by
        have hks : k.state = s := hl.state
        exact hks ▸ (hg.evaluate hr h).1.in_source hname
      have hstate : g.state = endComment := eq_of_name hg.state (by simp [states]) hs
      rw [hl.draft, hstate, hdraft]
      show (Hook.enterSource g.draft).doc.literate = false
      rw [Hook.enterSource, hplain hs, if_neg Bool.false_ne_true]
      exact hplain hs

/-- A line comment ends alike with its indentation and without. -/
theorem PassesIndent.evaluateAll (hp : g.PassesIndent) (hg : g.Coherent)
    (hr : r.grammar = Dialect.grammar) (hm : ∀ c ∈ margin.toList, isIndent c)
    (hcomment : "//".toList <+: comment.toList) (hn : '\n' ∉ comment.toList) (left : Nat) :
    Alike (r.evaluateAll (margin ++ comment) left g) (r.evaluateAll comment left g) := by
  induction left using Nat.strongRecOn generalizing g with
  | ind left ih =>
      rcases hp.evaluate (r := r) hg hm hcomment hn with heq | ⟨k, k', hk, hk', hl⟩
      · refine alike_of_evaluate heq fun k hk left' hleft => ?_
        exact ih left' hleft (hg.passesIndent_of_again hr hp.outside (fun h => hp.plain (.inl h))
          hcomment hk) (hg.evaluate hr hk).1
      · unfold Reader.evaluateAll
        rw [hk, hk']
        exact .ok hl

end Reading

/-! ## Right after a comment -/

/-- Right after a comment a line comment is left to source, which is captured from there
on if the mode is literate. -/
theorem evaluate_endComment (hr : r.grammar = Dialect.grammar) (hs : g.state = endComment)
    (hcomment : "//".toList <+: comment.toList) :
    ∃ k, r.evaluate comment g = .ok (k, true) ∧
      k.Like { g with state := lua, entering := true, draft := Hook.enterSource g.draft } := by
  have hline := lineStart_of_slashes hcomment
  have hanswer : answer g.state.rules comment g.entering =
      some (none, [], .goTo "lua" true) := by
    have hskip {r : Rule} (h : r.pattern.Foreign) : r.pattern.read? comment = none :=
      read?_eq_none_iff.2 (h comment hline)
    have hfunction : endComment.rules[2].pattern.Foreign := by
      show (lit "function" ++ gap ++ capture 0 name ++ spaces ++ parameters 1).Foreign
      repeat with_reducible refine Foreign.append ?_ _
      exact foreign_lit (by decide) (by decide)
    rw [hs]
    exact (answer_skip (hskip (foreign_libFunction 0)) _ _).trans
      ((answer_skip (hskip foreign_declaration) _ _).trans
        ((answer_skip (hskip hfunction) _ _).trans (answer_of_read? rfl rfl)))
  obtain ⟨k, hk, hl⟩ := evaluate_silent hr hanswer (s := lua) rfl
  refine ⟨k, hk, hl.trans ⟨rfl, rfl, rfl, ?_⟩⟩
  show g.state.crossTo lua g.draft = Hook.enterSource g.draft
  rw [hs]
  rfl

theorem enterSource_scratch {d : Draft} (hd : d.scratch = none) (hl : d.doc.literate) :
    ∃ i, (Hook.enterSource d).scratch = some ⟨{ lang := d.language }, i⟩ := by
  rw [Hook.enterSource, if_pos hl]
  split
  · exact ⟨_, by rw [Draft.startCapture, hd]; rfl⟩
  · exact ⟨_, by rw [Draft.startCapture, show d.place.scratch = none from hd]; rfl⟩

/-- Right after a comment in literate mode, source captures the line comment as its first
line. It comes to that if a line may be evaluated again at all. -/
structure Reading.CapturesComment (g : Reading) (left : Nat) (comment : String) : Prop where
  state : g.state.name = "end_comment"
  literate : g.draft.doc.literate
  replays : 0 < left
  source : ∃ m, lua.matchLine comment true = some m ∧ m.rule.action = some .sourceLine

/-- A line comment that ends a comment in literate mode either meets something else in
source, or is captured with its indentation. -/
theorem Reading.Coherent.captures (hg : g.Coherent) (hr : r.grammar = Dialect.grammar)
    (hend : g.state.name = "end_comment") (hliterate : g.draft.doc.literate)
    (hm : ∀ c ∈ margin.toList, isIndent c) (hcomment : "//".toList <+: comment.toList)
    (hn : '\n' ∉ comment.toList) (left : Nat) :
    (¬ g.CapturesComment left comment →
      Alike (r.evaluateAll (margin ++ comment) left g) (r.evaluateAll comment left g)) ∧
    (g.CapturesComment left comment → ∃ (k k' : Reading) (d : Draft) (s : Scratch),
      r.evaluateAll (margin ++ comment) left g = .ok k ∧ r.evaluateAll comment left g = .ok k' ∧
        d.scratch = some s ∧ s.code.text = none ∧ k'.draft = d.captureLine comment ∧
        k.Like { k' with draft := d.captureLine (margin ++ comment) }) := by
  have hs : g.state = endComment := eq_of_name hg.state (by simp [states]) hend
  obtain ⟨k, hk, hl⟩ := @evaluate_endComment _ r g hr hs hcomment
  have heq : r.evaluate (margin ++ comment) g = r.evaluate comment g := by
    refine (hg.evaluate_indented (by rw [hend]; decide) (by rw [hend]; decide) hm
      hcomment).resolve_right ?_
    rintro ⟨-, k', -, hk', -⟩
    rw [hk] at hk'
    cases hk'
  have hks : k.state = lua := hl.state
  rcases evaluate_lua_indented (r := r) hks hm hcomment hn with
    ⟨hsame, hno⟩ | ⟨k₁, k₁', hk₁, hk₁', hl₁, hl₁', hsource⟩
  · constructor
    · intro _
      refine alike_of_evaluate heq fun k' hk' left' _ => ?_
      obtain rfl : k = k' := by
        rw [hk] at hk'
        cases hk'
        rfl
      have hc := (hg.evaluate hr hk).1
      refine alike_of_evaluate hsame fun k'' hk'' left'' _ => ?_
      refine PassesIndent.evaluateAll ?_ (hc.evaluate hr hk'').1 hr hm hcomment hn left''
      refine hc.passesIndent_of_again hr ?_ ?_ hcomment hk''
      · rw [hks]
        decide
      · intro hname
        rw [hks] at hname
        exact absurd hname (by decide)
    · rintro ⟨-, -, -, m, hx, ha⟩
      rw [hl.entering] at hno
      exact absurd ha (hno m hx)
  · rw [hl.entering] at hsource
    constructor
    · intro hno
      cases left with
      | zero =>
          refine alike_of_evaluate heq fun k' _ left' hlt => ?_
          exact absurd hlt (Nat.not_lt_zero left')
      | succ left => exact absurd ⟨hend, hliterate, Nat.succ_pos left, hsource⟩ hno
    · rintro ⟨-, -, hleft, -⟩
      obtain ⟨left, rfl⟩ := Nat.exists_eq_succ_of_ne_zero (Nat.ne_of_gt hleft)
      have hcapture : g.draft.scratch = none := by
        rw [← Option.not_isSome_iff_eq_none, hg.consistent.captured, hend]
        simp
      obtain ⟨i, hi⟩ := enterSource_scratch hcapture hliterate
      have hdraft : k.draft = Hook.enterSource g.draft := hl.draft
      rw [← hdraft] at hi
      have hone {line : String} {k' : Reading} (he : r.evaluate line k = .ok (k', false)) :
          ∀ left, r.evaluateAll line left k = .ok k' := by
        intro left
        unfold evaluateAll
        rw [he]
      refine ⟨k₁, k₁', k.draft, _, ?_, ?_, hi, rfl, hl₁'.draft,
        hl₁.trans ⟨hl₁'.state.symm, hl₁'.entering.symm, hl₁'.line.symm, rfl⟩⟩
      · unfold evaluateAll
        rw [heq, hk]
        exact hone hk₁ left
      · unfold evaluateAll
        rw [hk]
        exact hone hk₁' left

/-- Whatever was read before, a line comment outside of block comments leads to the same
reading or the same fault whether it is indented or not; except that right after a comment
in literate mode one that source takes for its own is captured as it stands. -/
theorem indentation_irrelevant (hr : r.grammar = Dialect.grammar) {doc : Document}
    (hdoc : doc.sections = []) {file : Option String} {language : String} {options : List String}
    {g₀ : Reading}
    (h₀ : r.start Dialect.initial (Draft.start doc file language options) = .ok g₀)
    (h : r.Reaches g₀ g) (hout : g.state.name ∉ blockStates) (hscratch : g.draft.scratch = none)
    {rest : String} (hm : ∀ c ∈ margin.toList, isIndent c) (hn : '\n' ∉ rest.toList) :
    (¬ g.CapturesComment r.maxReplay.toNat (dropLineEnd ("//" ++ rest)) →
      Alike (r.feed g (margin ++ "//" ++ rest)) (r.feed g ("//" ++ rest))) ∧
    (g.CapturesComment r.maxReplay.toNat (dropLineEnd ("//" ++ rest)) →
      ∃ (k k' : Reading) (d : Draft) (s : Scratch),
        r.feed g (margin ++ "//" ++ rest) = .ok k ∧ r.feed g ("//" ++ rest) = .ok k' ∧
          d.scratch = some s ∧ s.code.text = none ∧
          k'.draft = d.captureLine (dropLineEnd ("//" ++ rest)) ∧
          k.Like { k' with draft := d.captureLine (margin ++ dropLineEnd ("//" ++ rest)) }) := by
  have hg : g.Coherent := h.coherent hr (coherent_of_start hr hdoc h₀)
  have hcomment : "//".toList <+: (dropLineEnd ("//" ++ rest)).toList := by
    rw [dropLineEnd_append ⟨['/'], '/', rfl, rfl⟩, String.toList_append]
    exact List.prefix_append _ _
  have hline : dropLineEnd (margin ++ "//" ++ rest) = margin ++ dropLineEnd ("//" ++ rest) := by
    have hslashes : ∃ cs c, (margin ++ "//").toList = cs ++ [c] ∧ isNewline c = false :=
      ⟨margin.toList ++ ['/'], '/', by simp, rfl⟩
    rw [dropLineEnd_append hslashes, dropLineEnd_append ⟨['/'], '/', rfl, rfl⟩,
      String.append_assoc]
  have hinline : '\n' ∉ (dropLineEnd ("//" ++ rest)).toList := by
    refine fun hmem => hn ?_
    have hmem := (dropLineEnd_prefix_self _).subset hmem
    rw [String.toList_append, List.mem_append] at hmem
    exact hmem.resolve_left (by decide)
  rw [feed, feed, hline]
  generalize dropLineEnd ("//" ++ rest) = comment at hcomment hinline
  by_cases hend : g.state.name = "end_comment" ∧ g.draft.doc.literate
  · have hiff : g.CapturesComment r.maxReplay.toNat comment ↔
        Reading.CapturesComment { g with line := g.line + 1 } r.maxReplay.toNat comment :=
      ⟨fun ⟨h₁, h₂, h₃, h₄⟩ => ⟨h₁, h₂, h₃, h₄⟩, fun ⟨h₁, h₂, h₃, h₄⟩ => ⟨h₁, h₂, h₃, h₄⟩⟩
    rw [hiff]
    exact hg.next_line.captures hr hend.1 hend.2 hm hcomment hinline _
  · refine ⟨fun _ => ?_, fun hc => absurd ⟨hc.state, hc.literate⟩ hend⟩
    refine Reading.PassesIndent.evaluateAll (g := { g with line := g.line + 1 }) ⟨hout, ?_⟩
      hg.next_line hr hm hcomment hinline _
    rintro (hname | hname)
    · exact Bool.eq_false_iff.2 fun hl => hend ⟨hname, hl⟩
    · refine Bool.eq_false_iff.2 fun hl => ?_
      have hsome := hg.consistent.captured.2 ⟨hname, hl⟩
      rw [hscratch] at hsome
      cases hsome

/-- A comment in front of a comment, in literate mode. -/
theorem indentation_irrelevant_literate :
    ∃ g₀ g, ({} : Reader).start Dialect.initial
        (Draft.start (Document.new "d" none none) none "js" ["lit"]) = .ok g₀ ∧
      ({} : Reader).feedAll g₀ ["// # T", "", "// doc:lit", "/*", "x", "*/"] = .ok g ∧
      g.state.name ∉ blockStates ∧ g.draft.scratch = none ∧
      Alike (({} : Reader).feed g ("\t" ++ "//" ++ " y")) (({} : Reader).feed g ("//" ++ " y")) :=
  have hno {g : Reading} : ¬ g.CapturesComment 8 "// y" := by
    rintro ⟨-, -, -, m, hm, ha⟩
    have htakes : (lua.matchLine "// y" true).all (·.rule.action ≠ some .sourceLine) = true := by
      decide +kernel
    rw [hm, Option.all_some, decide_eq_true_eq] at htakes
    exact htakes ha
  have h := @indentation_irrelevant "\t" {} _ rfl (Document.new "d" none none) rfl none "js" ["lit"]
    _ rfl (@Reaches.of_feedAll _ _ _ ["// # T", "", "// doc:lit", "/*", "x", "*/"] rfl)
    (by decide +kernel) (by decide +kernel) " y" (by decide) (by decide)
  ⟨_, _, rfl, rfl, by decide +kernel, by decide +kernel, h.1 hno⟩

theorem Reader.Alike.scratch_eq {o o' : Except Fault Reading} (h : Alike o o') :
    o.toOption.map (·.draft.scratch) = o'.toOption.map (·.draft.scratch) := by
  cases h with
  | ok hl => exact congrArg (fun d : Draft => some d.scratch) hl.draft
  | error f => rfl

/-- A line comment without text, right after a comment in literate mode, is kept with its
indentation. -/
theorem indentation_captured :
    ∃ g₀ g, ({} : Reader).start Dialect.initial
        (Draft.start (Document.new "d" none none) none "js" ["lit"]) = .ok g₀ ∧
      ({} : Reader).Reaches g₀ g ∧ g.state.name ∉ blockStates ∧ g.draft.scratch = none ∧
      ¬ Alike (({} : Reader).feed g ("  " ++ "//" ++ "")) (({} : Reader).feed g ("//" ++ "")) := by
  refine ⟨_, _, rfl,
    @Reaches.of_feedAll _ _ _ ["// # T", "", "// doc:lit", "/*", "x", "*/"] rfl, by decide +kernel,
    by decide +kernel, fun h => ?_⟩
  exact absurd h.scratch_eq (by decide +kernel)

end DocComment
