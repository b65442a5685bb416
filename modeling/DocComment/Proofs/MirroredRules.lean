import DocComment.Proofs.CommentForms
import Mathlib.Data.List.Forall2

/-!
# The two forms meet the same rules

The states of a mode list their rules in different orders, and not every rule of one has a
partner in the other. Here it is shown that this makes no difference to the items of a
comment: rules without a partner take none of them, and where two rules have changed
places, no item is taken by both. What is left is two lists of rules that do the same one
by one (`answer_of_mirrored`).

What comes of it is `bothAnswer`: in every mode that takes an item, both forms of the item
meet the same action with the same captures, and go on in the same way. The readings of
the two forms are not looked at here.
-/

namespace DocComment

open Text Pattern Dialect

/-! ## Rules in the two forms -/

/-- Rules of the two forms that do the same with an item, in paired states. -/
structure RulesMirrored (m : CommentMode) (item : CommentItem) (r r' : Rule) : Prop where
  active : r.onEntry = false ∧ r'.onEntry = false
  action : r.action = r'.action
  reads : r'.pattern.read? item.inLine = r.pattern.read? item.inBlock
  next : ∃ way, m.allows item way ∧ r.next = CommentMode.transition CommentMode.block way ∧
    r'.next = CommentMode.transition CommentMode.line way

/-- Answers to an item in the two forms that go on in the same way. -/
structure AnswersMirrored (m : CommentMode) (item : CommentItem)
    (x y : Option Action × Captures × Transition) : Prop where
  action : x.1 = y.1
  captures : x.2.1 = y.2.1
  next : ∃ way, m.allows item way ∧ x.2.2 = CommentMode.transition CommentMode.block way ∧
    y.2.2 = CommentMode.transition CommentMode.line way

variable {m : CommentMode} {item : CommentItem}

theorem answer_of_mirrored {rules rules' : List Rule}
    (h : List.Forall₂ (RulesMirrored m item) rules rules') (entering entering' : Bool) :
    Option.Rel (AnswersMirrored m item) (answer rules item.inBlock entering)
      (answer rules' item.inLine entering') := by
  induction h with
  | nil => exact .none
  | @cons r r' rules rules' hr _ ih =>
      have hactive : r.active entering = true ∧ r'.active entering' = true := by
        rw [Rule.active, Rule.active, hr.active.1, hr.active.2]
        exact ⟨rfl, rfl⟩
      rw [answer_cons, answer_cons, if_pos hactive.1, if_pos hactive.2, hr.reads]
      cases r.pattern.read? item.inBlock with
      | none => exact ih
      | some captures => exact .some ⟨hr.action, rfl, hr.next⟩

theorem RulesMirrored.of_spaces {p p' q : Pattern} {action : Option Action}
    {next next' : Transition}
    (way : Option (CommentMode × Bool)) (hway : m.allows item way)
    (hnext : next = CommentMode.transition CommentMode.block way)
    (hnext' : next' = CommentMode.transition CommentMode.line way)
    (hp : p.follow done = (spaces ++ q).follow done)
    (hp' : p'.follow done = (lineStart ++ (spaces ++ q)).follow done)
    (hcount : p'.captureCount = p.captureCount)
    (h : (q.follow done ⟨none, item.inBlock.toList.dropWhile (· = ' ')⟩ []).isSome ∨
      SkipsSpaces (q.follow done)) :
    RulesMirrored m item { pattern := p, action := action, next := next }
      { pattern := p', action := action, next := next' } :=
  ⟨⟨rfl, rfl⟩, rfl, read?_mirrored (follow_congr steady_done) hp hp' hcount h, way, hway, hnext,
    hnext'⟩

/-! ## Rules without a partner -/

theorem read?_eq_none {p : Pattern} {line : String}
    (h : p.follow done ⟨none, line.toList⟩ [] = none) : p.read? line = none := by
  rw [read?]
  exact congrArg (Option.map _) h

/-- No item ends a run of line comments. -/
theorem visible_read? (item : CommentItem) :
    (indent ++ notAhead "//" ++ visible).read? item.inLine = none := by
  obtain ⟨cs, hline, -⟩ := item.inLine_eq
  refine read?_eq_none ?_
  rw [hline]
  rfl

theorem blank_read? (item : CommentItem) : (run isBlank 0 ++ stop).read? item.inLine = none := by
  obtain ⟨cs, hline, -⟩ := item.inLine_eq
  refine read?_eq_none ?_
  rw [hline]
  rfl

/-- Text is not indented as code is. -/
theorem CommentItem.Good.not_indented {c : String} (h : (text c).Good) (hne : c ≠ "")
    {q : Pattern} : ("    " ++ q).read? c = none := by
  obtain ⟨x, xs, hc, hx, -⟩ := h.text_head hne
  refine read?_eq_none ?_
  rw [hc]
  refine follow_lit_none ?_ []
  intro hpre
  have hpre : ' ' :: [' ', ' ', ' '] <+: x :: xs := hpre
  rw [List.cons_prefix_cons] at hpre
  exact hx hpre.1.symm

/-- A line that has something after its spaces is no blank line. -/
theorem blankLine_read? {line : String} (hne : line.toList.dropWhile (· = ' ') ≠ [])
    (hnl : line.toList.dropWhile (· = ' ') ≠ ['\n']) : blankLine.read? line = none := by
  have hspaces : blankLine.follow done ⟨none, line.toList⟩ [] =
      stop.follow done ⟨none, line.toList.dropWhile (· = ' ')⟩ [] :=
    follow_spaces (follow_congr steady_done) rfl (.inr (.of_none fun _ _ _ => rfl))
  refine read?_eq_none ?_
  rw [hspaces, follow, if_neg]
  rw [atStop, Bool.or_eq_true, decide_eq_true_eq, decide_eq_true_eq]
  exact not_or.2 ⟨hne, hnl⟩

theorem CommentItem.Good.not_blank {c : String} (h : (text c).Good) (hne : c ≠ "") :
    blankLine.read? c = none := by
  obtain ⟨x, xs, hc, hx, hnl⟩ := h.text_head hne
  have hdrop : c.toList.dropWhile (· = ' ') = x :: xs := by
    rw [hc, List.dropWhile_cons_of_neg (by simpa using hx)]
  refine blankLine_read? (by rw [hdrop]; exact List.cons_ne_nil _ _) ?_
  rw [hdrop]
  intro hline
  rw [hline] at hnl
  exact hnl List.mem_cons_self

theorem codeStart_read?_text {c : String} (h : (CommentItem.text c).Good) (hne : c ≠ "") :
    codeStart.read? ("// " ++ c) = none := by
  obtain ⟨x, xs, hc, hx, -⟩ := h.text_head hne
  have hline : ("// " ++ c).toList = '/' :: '/' :: ' ' :: x :: xs := by simp [hc]
  refine read?_eq_none ?_
  rw [hline]
  refine follow_lit_none ?_ []
  intro hpre
  have hpre : [' ', ' ', ' '] <+: ' ' :: x :: xs := hpre
  simp [List.cons_prefix_cons] at hpre
  exact hx hpre.1.symm

theorem read?_append_eq_none {p : Pattern} {line : String} (h : p.read? line = none) (q : Pattern) :
    (p ++ q).read? line = none := by
  rw [read?_eq_none_iff] at h ⊢
  exact fun ha => h (accepts_of_append ha)

/-! ## Answers in the two forms -/

/-- A line that a rule takes meets that rule or another. -/
theorem answer_isSome {rules : List Rule} {r : Rule} (hr : r ∈ rules) {line : String}
    {entering : Bool} (ha : r.active entering) (h : (r.pattern.read? line).isSome) :
    (answer rules line entering).isSome := by
  rw [answer, List.findSome?_isSome_iff]
  refine ⟨r, hr, ?_⟩
  rw [if_pos ha, Option.isSome_map]
  exact h

/-- A word in capitals is no formula, so it does not matter which of the two is looked for
first. -/
theorem capitals_or_formula {c : String} (h : (CommentItem.text c).Good) (hne : c ≠ "") :
    (spaces ++ capitals).read? c = none ∨ (spaces ++ "[math]").read? c = none := by
  obtain ⟨x, xs, hc, hx, -⟩ := h.text_head hne
  by_cases hopen : x = '['
  · left
    refine read?_eq_none ?_
    rw [hc, hopen]
    rfl
  · right
    refine read?_eq_none ?_
    have hskip : SkipsSpaces ((lit "[math]").follow done) := .of_none fun _ _ _ => rfl
    have hspaces : (spaces ++ "[math]").follow done ⟨none, c.toList⟩ [] =
        (lit "[math]").follow done ⟨none, c.toList.dropWhile (· = ' ')⟩ [] :=
      follow_spaces (follow_congr steady_done) rfl (.inr hskip)
    rw [hspaces, hc, List.dropWhile_cons_of_neg (by simpa using hx)]
    refine follow_lit_none ?_ []
    intro hpre
    have hpre : '[' :: ['m', 'a', 't', 'h', ']'] <+: x :: xs := hpre
    rw [List.cons_prefix_cons] at hpre
    exact hopen hpre.1.symm

theorem answer_prose_text {c : String} (h : (CommentItem.text c).Good) (hne : c ≠ "")
    (entering entering' : Bool) :
    Option.Rel (AnswersMirrored .prose (.text c)) (answer mgroup.rules c entering)
      (answer group.rules ("// " ++ c) entering') := by
  have hblock : answer mgroup.rules c entering =
      answer (mgroup.rules[1] :: mgroup.rules[2] :: mgroup.rules[3] :: mgroup.rules[4] ::
        mgroup.rules[6] :: mgroup.rules[5] :: mgroup.rules.drop 7) c entering := by
    have hskip : answer mgroup.rules c entering =
        answer (mgroup.rules.tail.take 4 ++ mgroup.rules.drop 5) c entering :=
      answer_skip (blockEnd_read? h.not_blockEnd) _ _
    have hswap : answer (mgroup.rules.drop 5) c entering =
        answer (mgroup.rules[6] :: mgroup.rules[5] :: mgroup.rules.drop 7) c entering :=
      answer_swap (capitals_or_formula h hne) _ _
    rw [hskip, answer_append, hswap, ← answer_append]
    rfl
  have hline : answer group.rules ("// " ++ c) entering' =
      answer (group.rules.drop 3) ("// " ++ c) entering' :=
    (answer_skip (codeStart_read?_text h hne) _ _).trans
      ((answer_skip (visible_read? (.text c)) _ _).trans (answer_skip (blank_read? (.text c)) _ _))
  rw [hblock, hline]
  refine answer_of_mirrored ?_ entering entering'
  refine .cons ?title (.cons ?heading (.cons ?function (.cons ?constant (.cons ?formula
    (.cons ?capitals (.cons ?bullet (.cons ?definition (.cons ?gap (.cons ?text .nil)))))))))
  case title =>
    exact .of_spaces (q := "# " ++ (capture 0 something ++ stop)) none rfl rfl rfl rfl rfl rfl
      (.inr (.of_none fun _ _ _ => rfl))
  case heading =>
    exact .of_spaces (q := "## " ++ (capture 0 something ++ stop)) none rfl rfl rfl rfl rfl rfl
      (.inr (.of_none fun _ _ _ => rfl))
  case function =>
    exact .of_spaces (q := libFunction 0) none rfl rfl rfl rfl rfl rfl
      (.inr (.of_none fun _ _ _ => rfl))
  case constant =>
    exact .of_spaces (q := libName 0 ++ (spaces ++ stop)) none rfl rfl rfl rfl rfl rfl
      (.inr (.of_none fun _ _ _ => rfl))
  case formula =>
    exact .of_spaces (q := "[math]") (some (.formula, true)) rfl rfl rfl rfl rfl rfl
      (.inr (.of_none fun _ _ _ => rfl))
  case capitals =>
    exact .of_spaces (q := capitals) none rfl rfl rfl rfl rfl rfl
      (.inr (.of_none fun _ _ _ => rfl))
  case bullet =>
    exact .of_spaces (q := capture 0 (run (· = '*') 1) ++ (gap ++ (capture 1 something ++ stop)))
      none rfl rfl rfl rfl rfl rfl (.inr (.of_none fun _ _ _ => rfl))
  case definition =>
    exact .of_spaces
      (q := capture 0 "+" ++ (gap ++ (capture 1 little ++ (":" ++ (spaces ++
        (capture 2 something ++ stop)))))) none rfl rfl rfl rfl rfl rfl
      (.inr (.of_none fun _ _ _ => rfl))
  case gap =>
    exact .of_spaces (q := stop) (some (.gap, false)) rfl rfl rfl rfl rfl rfl
      (.inr (.of_none fun _ _ _ => rfl))
  case text =>
    exact .of_spaces (q := capture 0 something ++ stop) none rfl rfl rfl rfl rfl rfl
      (.inl (h.follow_text hne))

/-! ## Formulas -/

/-- The end of a formula is not looked for among the spaces before it. -/
theorem skipsSpaces_formulaEnd : SkipsSpaces (formulaEnd.follow done) := by
  intro b cs ms h
  rw [@follow_isSome formulaEnd _ (fun _ => True) (by simp)] at h ⊢
  obtain ⟨t, ⟨m₁, ⟨m₂, ⟨m₃, ⟨m₄, ⟨w, hw, hpass⟩, hlit⟩, h₃⟩, h₂⟩, h₁⟩, -⟩ := h
  cases w with
  | nil =>
      -- a formula does not end at a space
      rw [Spot.Passes.nil_iff] at hpass
      subst hpass
      obtain ⟨cs', hcs, -⟩ := Spot.Passes.cons_iff.1 (show Spot.Passes _ ('[' :: _) _ from hlit)
      injection hcs with hspace _
      exact absurd hspace (by decide)
  | cons c w =>
      obtain ⟨cs', hcs, hpass⟩ := Spot.Passes.cons_iff.1 hpass
      injection hcs with hc hcs
      subst hc hcs
      exact ⟨t, ⟨m₁, ⟨m₂, ⟨m₃, ⟨m₄, ⟨w, fun x hx => hw x (List.mem_cons_of_mem _ hx), hpass⟩,
        hlit⟩, h₃⟩, h₂⟩, h₁⟩, trivial⟩

theorem formulaEnd_mirrored {c : String} (h : (CommentItem.text c).Good) (hne : c ≠ "") :
    (lineStart ++ spaces ++ formulaEnd).read? ("// " ++ c) = formulaEnd.read? c := by
  obtain ⟨x, xs, hc, hx, -⟩ := h.text_head hne
  have hline : ("// " ++ c).toList = '/' :: '/' :: ' ' :: c.toList := by simp
  refine read?_eq_of_follow rfl ?_
  have hspaces : spaces.follow (formulaEnd.follow done) ⟨some '/', ' ' :: c.toList⟩ [] =
      formulaEnd.follow done ⟨none, (' ' :: c.toList).dropWhile (· = ' ')⟩ [] :=
    follow_spaces (follow_congr steady_done) rfl (.inr skipsSpaces_formulaEnd)
  have hdrop : (' ' :: c.toList).dropWhile (· = ' ') = c.toList := by
    rw [hc, List.dropWhile_cons_of_pos rfl, List.dropWhile_cons_of_neg (by simpa using hx)]
  rw [hline]
  show spaces.follow (formulaEnd.follow done) ⟨some '/', ' ' :: c.toList⟩ [] = _
  rw [hspaces, hdrop]

theorem needs_formulaEnd : formulaEnd.Needs "[/math]" :=
  ((((needs_lit _).append_left _).append_right _).append_right _).append_right _

theorem needs_formulaLine : formulaLine.Needs "[/math]" :=
  ((((needs_lit _).append_left _).append_right _).append_right _).append_right _

theorem CommentItem.Good.not_formulaEnd {s : String} (h : (code s).Good) :
    ¬ "[/math]".toList <:+: ("    " ++ s).toList ∧
      ¬ "[/math]".toList <:+: ("//   " ++ s).toList := by
  have hne : ∀ c : Char, c ≠ '[' → ∀ cs : List Char, "[/math]".toList <:+: c :: cs →
      "[/math]".toList <:+: cs := by
    intro c hc cs hin
    refine (List.infix_cons_iff.1 hin).resolve_left ?_
    intro hpre
    have hpre : '[' :: _ <+: c :: cs := hpre
    rw [List.cons_prefix_cons] at hpre
    exact hc hpre.1.symm
  have hblock : ("    " ++ s).toList = ' ' :: ' ' :: ' ' :: ' ' :: s.toList := by simp
  have hline : ("//   " ++ s).toList = '/' :: '/' :: ' ' :: ' ' :: ' ' :: s.toList := by simp
  rw [hblock, hline]
  constructor
  · intro hin
    exact h.2.2 (hne _ (by decide) _ (hne _ (by decide) _ (hne _ (by decide) _
      (hne _ (by decide) _ hin))))
  · intro hin
    exact h.2.2 (hne _ (by decide) _ (hne _ (by decide) _ (hne _ (by decide) _
      (hne _ (by decide) _ (hne _ (by decide) _ hin)))))

/-- The last rule within a formula takes all that is left to it. -/
theorem formulaText_mirrored (h : item.Good) (hm : m.allows item none) :
    RulesMirrored m item mmath.rules[4] math.rules[3] := by
  refine .of_spaces (q := capture 0 anything ++ stop) none hm rfl rfl rfl rfl rfl (.inl ?_)
  rw [follow_anything]
  · rfl
  · intro hmem
    exact h.inline.1 ((List.dropWhile_sublist _).subset hmem)

theorem formulaStart_mirrored (hm : m.allows item none) :
    RulesMirrored m item mmath.rules[2] math.rules[1] :=
  .of_spaces (q := "[math]" ++ (capture 0 anything ++ stop)) none hm rfl rfl rfl rfl rfl
    (.inr (.of_none fun _ _ _ => rfl))

theorem formulaText_read? (h : item.Good) :
    (mmath.rules[4].pattern.read? item.inBlock).isSome := by
  refine read?_isSome_of_spaces (q := capture 0 anything ++ stop) rfl ?_
  rw [follow_anything]
  · rfl
  · intro hmem
    exact h.inline.1 ((List.dropWhile_sublist _).subset hmem)

theorem answer_formula_text {c : String} (h : (CommentItem.text c).Good) (hne : c ≠ "")
    (entering entering' : Bool) :
    Option.Rel (AnswersMirrored .formula (.text c)) (answer mmath.rules c entering)
      (answer (math.rules.take 4) ("// " ++ c) entering') := by
  have hblock : answer mmath.rules c entering = answer mmath.rules.tail c entering :=
    answer_skip (blockEnd_read? h.not_blockEnd) _ _
  rw [hblock]
  refine answer_of_mirrored ?_ entering entering'
  refine .cons ?_ (.cons (formulaStart_mirrored rfl)
    (.cons ?_ (.cons (formulaText_mirrored h rfl) .nil)))
  · exact .of_spaces (q := "[math]" ++ (capture 0 anything ++ ("[/math]" ++ (spaces ++
      (capture 1 anything ++ stop))))) (some (.prose, false)) rfl rfl rfl rfl rfl rfl
      (.inr (.of_none fun _ _ _ => rfl))
  · exact ⟨⟨rfl, rfl⟩, rfl, formulaEnd_mirrored h hne, some (.prose, false), rfl, rfl, rfl⟩

theorem answer_formula_code {s : String} (h : (CommentItem.code s).Good)
    (entering entering' : Bool) :
    Option.Rel (AnswersMirrored .formula (.code s)) (answer mmath.rules ("    " ++ s) entering)
      (answer (math.rules.take 4) ("//   " ++ s) entering') := by
  obtain ⟨hnb, hnl⟩ := h.not_formulaEnd
  have hblock : answer mmath.rules ("    " ++ s) entering =
      answer [mmath.rules[2], mmath.rules[4]] ("    " ++ s) entering :=
    (answer_skip (blockEnd_read? h.not_blockEnd) _ _).trans
      ((answer_skip (needs_formulaLine.read? hnb) _ _).trans
        (answer_drop (needs_formulaEnd.read? hnb) [mmath.rules[2]] _ _))
  have hline : answer (math.rules.take 4) ("//   " ++ s) entering' =
      answer [math.rules[1], math.rules[3]] ("//   " ++ s) entering' :=
    (answer_skip ((needs_formulaLine.append_left _).read? hnl) _ _).trans
      (answer_drop ((needs_formulaEnd.append_left _).read? hnl) [math.rules[1]] _ _)
  rw [hblock, hline]
  exact answer_of_mirrored
    (.cons (formulaStart_mirrored rfl) (.cons (formulaText_mirrored h rfl) .nil)) entering entering'

/-! ## The answers to an item -/

/-- What both forms of an item meet in a mode. -/
def BothAnswer (m : CommentMode) (item : CommentItem) (entering entering' : Bool) : Prop :=
  ∃ x y, answer m.block.rules item.inBlock entering = some x ∧
    answer m.line.rules item.inLine entering' = some y ∧ AnswersMirrored m item x y

/-- The answers of both forms are there if one of them is. Rules after those that answer
do not matter. -/
theorem BothAnswer.of_rel {entering entering' : Bool} {n : Nat}
    (h : Option.Rel (AnswersMirrored m item) (answer m.block.rules item.inBlock entering)
      (answer (m.line.rules.take n) item.inLine entering'))
    (hsome : (answer m.block.rules item.inBlock entering).isSome) :
    BothAnswer m item entering entering' := by
  generalize hx : answer m.block.rules item.inBlock entering = x at h hsome
  generalize hy : answer (m.line.rules.take n) item.inLine entering' = y at h
  cases h with
  | none => cases hsome
  | some hrel =>
      refine ⟨_, _, hx, ?_, hrel⟩
      rw [← List.take_append_drop n m.line.rules, answer_append, hy]
      rfl

theorem both_prose_text {c : String} (h : (CommentItem.text c).Good) (hne : c ≠ "")
    (entering entering' : Bool) :
    BothAnswer .prose (.text c) entering entering' := by
  refine .of_rel (n := 13) (answer_prose_text h hne entering entering') ?_
  exact answer_isSome (r := mgroup.rules[10]) (by simp [CommentMode.block, mgroup]) rfl
    (read?_isSome_of_spaces (q := capture 0 something ++ stop) rfl (h.follow_text hne))

theorem both_gap_text {c : String} (h : (CommentItem.text c).Good) (hne : c ≠ "")
    (entering entering' : Bool) :
    BothAnswer .gap (.text c) entering entering' := by
  refine ⟨(none, [], .goTo "mgroup" true), (none, [], .goTo "group" true), ?_, ?_, rfl, rfl,
    some (.prose, true), rfl, rfl, rfl⟩
  · exact answer_skip (h.not_indented hne) _ _
  · exact answer_skip (codeStart_read?_text h hne) _ _

/-- Right after an empty line, an indented line is code. -/
theorem gap_code_inBlock {s : String} (h : ¬ "*/".toList <+: s.toList.dropWhile (· = ' '))
    (entering : Bool) :
    answer mgroupBlank.rules (CommentItem.code s).inBlock entering =
      some (some .flush, [], .goTo "mcode" true) := by
  refine answer_of_read? rfl ?_
  have hnot : blockEnd.follow done ⟨some ' ', s.toList⟩ [] = none := follow_blockEnd_none rfl h []
  rw [read?, CommentItem.toList_code_inBlock]
  show Option.map _
    (if (blockEnd.follow done ⟨some ' ', s.toList⟩ []).isSome then none else _) = _
  rw [hnot]
  rfl

theorem gap_code_inLine (s : String) (entering : Bool) :
    answer groupBlank.rules (CommentItem.code s).inLine entering =
      some (some .flush, [], .goTo "code" true) := by
  refine answer_of_read? rfl ?_
  rw [read?, CommentItem.toList_code_inLine]
  rfl

theorem both_gap_code {s : String} (h : (CommentItem.code s).Good) (entering entering' : Bool) :
    BothAnswer .gap (.code s) entering entering' :=
  ⟨_, _, gap_code_inBlock h.2.1 entering, gap_code_inLine s entering', rfl, rfl,
    some (.firstCode, true), rfl, rfl, rfl⟩

theorem both_firstCode {s : String} (h : (CommentItem.code s).Good) (entering entering' : Bool) :
    BothAnswer .firstCode (.code s) entering entering' := by
  obtain ⟨hblock, hline⟩ := CommentItem.code_read? h.1
  exact ⟨(some .startCode, [some s], .goTo "mcode_body" false),
    (some .startCode, [some s], .goTo "code_body" false), answer_of_read? rfl hblock,
    answer_of_read? rfl hline, rfl, rfl, some (.code, false), rfl, rfl, rfl⟩

theorem both_code_text {c : String} (h : (CommentItem.text c).Good) (hne : c ≠ "")
    (entering entering' : Bool) :
    BothAnswer .code (.text c) entering entering' := by
  have hempty : emptyComment.read? (CommentItem.text c).inLine =
      blankLine.read? (CommentItem.text c).inBlock :=
    read?_mirrored (q := stop) (follow_congr steady_done) rfl rfl rfl
      (.inr (.of_none fun _ _ _ => rfl))
  replace hempty : emptyComment.read? ("// " ++ c) = none := hempty.trans (h.not_blank hne)
  refine ⟨(some .flush, [], .goTo "mgroup" true), (some .flush, [], .goTo "group" true), ?_, ?_,
    rfl, rfl, some (.prose, true), rfl, rfl, rfl⟩
  · exact (answer_skip (blockEnd_read? h.not_blockEnd) _ _).trans
      ((answer_skip (read?_append_eq_none (h.not_indented hne) _) _ _).trans
        (answer_skip (h.not_blank hne) _ _))
  · have hcode := codeStart_read?_text h hne
    exact (answer_skip (read?_append_eq_none (read?_append_eq_none hcode _) _) _ _).trans
      (answer_skip hempty _ _)

theorem both_code_code {s : String} (h : (CommentItem.code s).Good) (entering entering' : Bool) :
    BothAnswer .code (.code s) entering entering' := by
  obtain ⟨hblock, hline⟩ := CommentItem.code_read? h.1
  exact ⟨(some .appendLine, [some s], .stay), (some .appendLine, [some s], .stay),
    (answer_skip (blockEnd_read? h.not_blockEnd) _ _).trans (answer_of_read? rfl hblock),
    answer_of_read? rfl hline, rfl, rfl, none, rfl, rfl, rfl⟩

theorem both_formula_text {c : String} (h : (CommentItem.text c).Good) (hne : c ≠ "")
    (entering entering' : Bool) :
    BothAnswer .formula (.text c) entering entering' :=
  .of_rel (answer_formula_text h hne entering entering')
    (answer_isSome (r := mmath.rules[4]) (by simp [CommentMode.block, mmath]) rfl
      (formulaText_read? h))

theorem both_formula_code {s : String} (h : (CommentItem.code s).Good) (entering entering' : Bool) :
    BothAnswer .formula (.code s) entering entering' :=
  .of_rel (answer_formula_code h entering entering')
    (answer_isSome (r := mmath.rules[4]) (by simp [CommentMode.block, mmath]) rfl
      (formulaText_read? h))

/-- Text without characters is taken for an empty line. -/
theorem both_blank (hitem : item = .blank ∨ item = .text "") (hm : m ≠ .firstCode)
    (entering entering' : Bool) : BothAnswer m item entering entering' := by
  cases m with
  | prose =>
      refine ⟨(some .flush, [], .goTo "mgroup_blank" false),
        (some .flush, [], .goTo "group_blank" false), ?_, ?_, rfl, rfl, some (.gap, false), ?_, rfl,
        rfl⟩
      · rcases hitem with rfl | rfl <;> rfl
      · rcases hitem with rfl | rfl <;> cases entering' <;> rfl
      · rcases hitem with rfl | rfl <;> rfl
  | gap =>
      refine ⟨(none, [], .goTo "mgroup" true), (none, [], .goTo "group" true), ?_, ?_, rfl, rfl,
        some (.prose, true), ?_, rfl, rfl⟩
      all_goals rcases hitem with rfl | rfl <;> rfl
  | firstCode => exact absurd rfl hm
  | code =>
      refine ⟨(some .appendBlankLine, [], .stay), (some .appendBlankLine, [], .stay), ?_, ?_, rfl,
        rfl, none, ?_, rfl, rfl⟩
      all_goals rcases hitem with rfl | rfl <;> rfl
  | formula =>
      refine ⟨(some .appendLine, [some ""], .stay), (some .appendLine, [some ""], .stay), ?_, ?_,
        rfl, rfl, none, ?_, rfl, rfl⟩
      all_goals rcases hitem with rfl | rfl <;> rfl

/-- In every mode that takes an item, both forms of it meet the same action with the same
captures, and go on alike. -/
theorem bothAnswer (hgood : item.Good) (hm : m.takes item) (entering entering' : Bool) :
    BothAnswer m item entering entering' := by
  by_cases hblank : item = .blank ∨ item = .text ""
  · refine both_blank hblank ?_ _ _
    rintro rfl
    rcases hblank with rfl | rfl <;> cases hm
  cases item with
  | text c =>
      have hne : c ≠ "" := by
        rintro rfl
        exact hblank (Or.inr rfl)
      cases m with
      | prose => exact both_prose_text hgood hne _ _
      | gap => exact both_gap_text hgood hne _ _
      | firstCode => cases hm
      | code => exact both_code_text hgood hne _ _
      | formula => exact both_formula_text hgood hne _ _
  | blank => exact absurd (Or.inl rfl) hblank
  | code s =>
      cases m with
      | prose => cases hm
      | gap => exact both_gap_code hgood _ _
      | firstCode => exact both_firstCode hgood _ _
      | code => exact both_code_code hgood _ _
      | formula => exact both_formula_code hgood _ _

end DocComment
