import DocComment.Dialect.Grammar
import DocComment.Proofs.Captures
import DocComment.Proofs.LinePatterns

/-!
# The two forms of a comment

A comment can be written as a block or as a run of line comments, and each form has states
of its own. `CommentMode` pairs them up: what a comment is in the middle of, whichever way
it is written.

The items of a comment are the same in both forms but for what stands before them, and the
rules of paired states are the same but for the pattern of the start of a line comment. So
a rule of one form takes an item exactly if its partner in the other does, and captures
the same (`read?_mirrored`).
-/

namespace DocComment

open Text Pattern Dialect

/-! ## Comments -/

/-- An item of a comment: a line of text, an empty line, or a line of code. -/
inductive CommentItem where
  | text (c : String)
  | blank
  | code (s : String)
  deriving DecidableEq, Repr

namespace CommentItem

/-- The line of an item in a block comment. -/
def inBlock : CommentItem → String
  | text c => c
  | blank => ""
  | code s => "    " ++ s

/-- The line of an item in a run of line comments. -/
def inLine : CommentItem → String
  | text c => "// " ++ c
  | blank => "//"
  | code s => "//   " ++ s

/-- No item holds a line feed. Text starts neither with a space nor with the end of a
block comment, and code is neither the end of a block comment nor that of a formula. -/
def Good : CommentItem → Prop
  | text c => '\n' ∉ c.toList ∧ ¬ " ".toList <+: c.toList ∧ ¬ "*/".toList <+: c.toList
  | blank => True
  | code s =>
    '\n' ∉ s.toList ∧ ¬ "*/".toList <+: s.toList.dropWhile (· = ' ') ∧
      ¬ "[/math]".toList <:+: s.toList

instance : DecidablePred Good
  | text _ => inferInstanceAs (Decidable (_ ∧ _))
  | blank => inferInstanceAs (Decidable True)
  | code _ => inferInstanceAs (Decidable (_ ∧ _))

def isCode : CommentItem → Bool
  | code _ => true
  | text _ | blank => false

/-- Whether code may follow an item. -/
def allowsCode : CommentItem → Bool
  | text _ => false
  | blank | code _ => true

end CommentItem

/-- The items of a comment from some item on; the flag says whether the first one may be
code. -/
inductive CommentBody : Bool → List CommentItem → Prop where
  | nil {afterGap : Bool} : CommentBody afterGap []
  | cons {afterGap : Bool} {item : CommentItem} {items : List CommentItem} (hgood : item.Good)
      (hcode : item.isCode → afterGap) (hrest : CommentBody item.allowsCode items) :
      CommentBody afterGap (item :: items)

/-- The lines of a block comment. -/
def blockForm (items : List CommentItem) : List String :=
  "/*" :: items.map CommentItem.inBlock ++ ["*/"]

/-- The lines of a run of line comments. -/
def lineForm (items : List CommentItem) : List String :=
  items.map CommentItem.inLine

/-! ## Modes -/

/-- What a comment is in the middle of. -/
inductive CommentMode where
  | prose
  /-- Right after an empty line. -/
  | gap
  /-- At the first line of code. -/
  | firstCode
  | code
  | formula
  deriving DecidableEq, Repr

namespace CommentMode

/-- The state of a mode in a block comment. -/
def block : CommentMode → State
  | prose => mgroup
  | gap => mgroupBlank
  | firstCode => mcode
  | code => mcodeBody
  | formula => mmath

/-- The state of a mode in a run of line comments. -/
def line : CommentMode → State
  | prose => group
  | gap => groupBlank
  | firstCode => Dialect.code
  | code => codeBody
  | formula => math

/-- Whether an item can be evaluated in a mode. -/
def takes : CommentMode → CommentItem → Bool
  | firstCode, .code _ => true
  | firstCode, _ | prose, .code _ => false
  | _, _ => true

/-- Whether a mode is one that a line can end in, if code may follow or may not. -/
def ready (allowsCode : Bool) : CommentMode → Bool
  | firstCode => false
  | prose => !allowsCode
  | _ => true

/-- The transition in one of the forms: to stay, or to go to a mode and evaluate the line
again there or not. -/
def transition (side : CommentMode → State) : Option (CommentMode × Bool) → Transition
  | none => .stay
  | some (m, again) => .goTo (side m).name again

/-- The mode that an item goes on in, and whether it is evaluated again there. -/
def goes (m : CommentMode) : Option (CommentMode × Bool) → CommentMode × Bool
  | none => (m, false)
  | some way => way

/-- Whether an item that is evaluated in a mode may go on so. -/
def allows (m : CommentMode) (item : CommentItem) (way : Option (CommentMode × Bool)) : Bool :=
  if (m.goes way).2 then (m.goes way).1.takes item else (m.goes way).1.ready item.allowsCode

end CommentMode

/-! ## Answers -/

/-- What a line meets: the action of the first rule that takes it, what is captured, and
where to go on. -/
def answer (rules : List Rule) (line : String) (entering : Bool) :
    Option (Option Action × Captures × Transition) :=
  rules.findSome? fun r =>
    if r.active entering then (r.pattern.read? line).map fun c => (r.action, c, r.next) else none

theorem answer_cons (r : Rule) (rules : List Rule) (line : String) (entering : Bool) :
    answer (r :: rules) line entering =
      (if r.active entering then (r.pattern.read? line).map fun c => (r.action, c, r.next)
        else none).or (answer rules line entering) := by
  rw [answer, List.findSome?_cons]
  generalize (if r.active entering then _ else _) = x
  cases x with
  | none => rfl
  | some a => rfl

/-- A rule that does not take a line does not matter. -/
theorem answer_skip {r : Rule} {line : String} (h : r.pattern.read? line = none)
    (rules : List Rule) (entering : Bool) :
    answer (r :: rules) line entering = answer rules line entering := by
  rw [answer_cons, h, Option.map_none, ite_self, Option.none_or]

theorem answer_append (rules rules' : List Rule) (line : String) (entering : Bool) :
    answer (rules ++ rules') line entering =
      (answer rules line entering).or (answer rules' line entering) :=
  List.findSome?_append

theorem answer_of_read? {r : Rule} {line : String} {entering : Bool} {captures : Captures}
    (ha : r.active entering) (h : r.pattern.read? line = some captures) {rules : List Rule} :
    answer (r :: rules) line entering = some (r.action, captures, r.next) := by
  rw [answer_cons, if_pos ha, h]
  rfl

theorem answer_drop {r : Rule} {line : String} (h : r.pattern.read? line = none)
    (rules rules' : List Rule) (entering : Bool) :
    answer (rules ++ r :: rules') line entering = answer (rules ++ rules') line entering := by
  rw [answer_append, answer_skip h, ← answer_append]

/-- Rules of which at most one takes a line may stand in any order. -/
theorem answer_swap {r r' : Rule} {line : String}
    (h : r.pattern.read? line = none ∨ r'.pattern.read? line = none) (rules : List Rule)
    (entering : Bool) :
    answer (r :: r' :: rules) line entering = answer (r' :: r :: rules) line entering := by
  rcases h with h | h
  · rw [answer_skip h, answer_cons r', answer_cons r', answer_skip h]
  · rw [answer_skip h, answer_cons r, answer_cons r, answer_skip h]

theorem matchFrom_eq_answer {index : Nat} {rules : List Rule} {line : String} {entering : Bool} :
    (matchFrom index rules line entering).map (fun m => (m.rule.action, m.captures, m.rule.next)) =
      answer rules line entering := by
  induction rules generalizing index with
  | nil => rfl
  | cons r rules ih =>
      rw [matchFrom, answer_cons, ← @ih (index + 1)]
      split
      · cases r.pattern.read? line with
        | none => rfl
        | some c => rfl
      · rfl

/-- An answer is the one of a rule that matches the line. -/
theorem State.matchLine_of_answer {s : State} {line : String} {entering : Bool}
    {action : Option Action} {captures : Captures} {next : Transition}
    (h : answer s.rules line entering = some (action, captures, next)) :
    ∃ m, s.matchLine line entering = some m ∧ m.rule.action = action ∧ m.captures = captures ∧
      m.rule.next = next := by
  rw [← @matchFrom_eq_answer 0, Option.map_eq_some_iff] at h
  obtain ⟨m, hm, h⟩ := h
  injection h with haction h
  injection h with hcaptures hnext
  exact ⟨m, hm, haction, hcaptures, hnext⟩

/-! ## Items in the two forms -/

namespace CommentItem

theorem inLine_eq (item : CommentItem) :
    ∃ cs, item.inLine.toList = '/' :: '/' :: cs ∧
      cs.dropWhile (· = ' ') = item.inBlock.toList.dropWhile (· = ' ') := by
  cases item with
  | text c => exact ⟨' ' :: c.toList, by simp [inLine], by simp [inBlock]⟩
  | blank => exact ⟨[], rfl, rfl⟩
  | code s => exact ⟨' ' :: ' ' :: ' ' :: s.toList, by simp [inLine], by simp [inBlock]⟩

theorem Good.text_head {c : String} (h : (text c).Good) (hne : c ≠ "") :
    ∃ x xs, c.toList = x :: xs ∧ x ≠ ' ' ∧ '\n' ∉ x :: xs := by
  obtain ⟨hnl, hspace, -⟩ := h
  cases hc : c.toList with
  | nil => exact absurd (String.toList_eq_nil_iff.1 hc) hne
  | cons x xs =>
      rw [hc] at hnl hspace
      refine ⟨x, xs, rfl, ?_, hnl⟩
      rintro rfl
      exact hspace (List.prefix_iff_eq_append.2 rfl)

theorem toList_code_inBlock (s : String) :
    (code s).inBlock.toList = ' ' :: ' ' :: ' ' :: ' ' :: s.toList := by
  simp [inBlock]

theorem toList_code_inLine (s : String) :
    (code s).inLine.toList = '/' :: '/' :: ' ' :: ' ' :: ' ' :: s.toList := by
  simp [inLine]

theorem Good.inline {item : CommentItem} (h : item.Good) :
    '\n' ∉ item.inBlock.toList ∧ '\n' ∉ item.inLine.toList := by
  have hmargin {margin s : String} (hmargin : '\n' ∉ margin.toList) (hs : '\n' ∉ s.toList) :
      '\n' ∉ (margin ++ s).toList := by
    rw [String.toList_append, List.mem_append]
    exact fun hmem => hmem.elim hmargin hs
  cases item with
  | text c => exact ⟨h.1, hmargin (by decide) h.1⟩
  | blank => exact ⟨by decide, by decide⟩
  | code s => exact ⟨hmargin (by decide) h.1, hmargin (by decide) h.1⟩

theorem Good.follow_text {c : String} (h : (text c).Good) (hne : c ≠ "") :
    ((capture 0 something ++ stop).follow done ⟨none, c.toList.dropWhile (· = ' ')⟩ []).isSome := by
  obtain ⟨x, xs, hc, hx, hnl⟩ := h.text_head hne
  rw [hc, List.dropWhile_cons_of_neg (by simpa using hx), follow_something hnl]
  rfl

/-- Code is captured in both forms without what stands before it. -/
theorem code_read? {s : String} (h : '\n' ∉ s.toList) :
    ("    " ++ capture 0 anything ++ stop).read? (code s).inBlock = some [some s] ∧
      (codeStart ++ capture 0 anything ++ stop).read? (code s).inLine = some [some s] := by
  have hread := follow_anything (i := 0) (s := ⟨some ' ', s.toList⟩) h []
  have hblock : ("    " ++ capture 0 anything ++ stop).follow done
      ⟨none, (code s).inBlock.toList⟩ [] = some [(0, ⟨s.toList, []⟩)] := by
    rw [toList_code_inBlock]
    exact hread
  have hline : (codeStart ++ capture 0 anything ++ stop).follow done
      ⟨none, (code s).inLine.toList⟩ [] = some [(0, ⟨s.toList, []⟩)] := by
    rw [toList_code_inLine]
    exact hread
  have htext : Mark.text ⟨s.toList, []⟩ = s := by simp [Mark.text]
  have hcaptures : ((List.range 1).map fun i =>
      (([(0, ⟨s.toList, []⟩)] : Marks).lookup i).map Mark.text) = [some s] :=
    congrArg (fun t => [some t]) htext
  exact ⟨hcaptures ▸ congrArg _ hblock, hcaptures ▸ congrArg _ hline⟩

theorem dropWhile_code_inBlock (s : String) :
    (code s).inBlock.toList.dropWhile (· = ' ') = s.toList.dropWhile (· = ' ') := by
  rw [toList_code_inBlock]
  rfl

theorem Good.not_blockEnd {item : CommentItem} (h : item.Good) :
    ¬ "*/".toList <+: item.inBlock.toList.dropWhile (· = ' ') := by
  cases item with
  | text c =>
      show ¬ _ <+: c.toList.dropWhile _
      by_cases hne : c = ""
      · subst hne
        decide
      · obtain ⟨x, xs, hc, hx, -⟩ := h.text_head hne
        rw [hc, List.dropWhile_cons_of_neg (by simpa using hx), ← hc]
        exact h.2.2
  | blank => decide
  | code s =>
      rw [dropWhile_code_inBlock]
      exact h.2.1

/-- The item without the line breaks at its end. -/
def trimmed : CommentItem → CommentItem
  | text c => text (dropLineEnd c)
  | blank => blank
  | code s => code (dropLineEnd s)

theorem allowsCode_trimmed (item : CommentItem) : item.trimmed.allowsCode = item.allowsCode := by
  cases item <;> rfl

theorem trimmed_inBlock (item : CommentItem) : dropLineEnd item.inBlock = item.trimmed.inBlock := by
  cases item with
  | text c => rfl
  | blank => rfl
  | code s => exact dropLineEnd_append ⟨"   ".toList, ' ', rfl, rfl⟩ s

theorem trimmed_inLine (item : CommentItem) : dropLineEnd item.inLine = item.trimmed.inLine := by
  cases item with
  | text c => exact dropLineEnd_append ⟨"//".toList, ' ', rfl, rfl⟩ c
  | blank => rfl
  | code s => exact dropLineEnd_append ⟨"//  ".toList, ' ', rfl, rfl⟩ s

theorem Good.trimmed {item : CommentItem} (h : item.Good) : item.trimmed.Good := by
  cases item with
  | text c =>
      have hpre := dropLineEnd_prefix_self c
      exact ⟨fun hmem => h.1 (hpre.subset hmem), fun hs => h.2.1 (hs.trans hpre),
        fun hs => h.2.2 (hs.trans hpre)⟩
  | blank => exact h
  | code s =>
      have hpre := dropLineEnd_prefix_self s
      refine ⟨fun hmem => h.1 (hpre.subset hmem), ?_, fun hs => h.2.2 (hs.trans hpre.isInfix)⟩
      intro hs
      obtain ⟨t, ht⟩ := hpre
      refine h.2.1 ?_
      rw [← ht, List.dropWhile_append, if_neg]
      · exact hs.trans (List.prefix_append _ _)
      · rw [List.isEmpty_iff]
        intro hnil
        rw [hnil] at hs
        exact absurd (List.prefix_nil.1 hs) (by decide)

end CommentItem

/-- A pattern that a block comment reads after spaces and a run of line comments after its
start and spaces: both read an item alike. -/
theorem read?_mirrored {item : CommentItem} {p p' q : Pattern} (hsteady : Steady (q.follow done))
    (hp : p.follow done = (spaces ++ q).follow done)
    (hp' : p'.follow done = (lineStart ++ (spaces ++ q)).follow done)
    (hcount : p'.captureCount = p.captureCount)
    (h : (q.follow done ⟨none, item.inBlock.toList.dropWhile (· = ' ')⟩ []).isSome ∨
      SkipsSpaces (q.follow done)) :
    p'.read? item.inLine = p.read? item.inBlock := by
  obtain ⟨cs, hline, hcs⟩ := item.inLine_eq
  refine read?_eq_of_follow hcount ?_
  have hblock : (spaces ++ q).follow done ⟨none, item.inBlock.toList⟩ [] =
      q.follow done ⟨none, item.inBlock.toList.dropWhile (· = ' ')⟩ [] :=
    follow_spaces hsteady rfl h
  have hlines : (lineStart ++ (spaces ++ q)).follow done ⟨none, item.inLine.toList⟩ [] =
      q.follow done ⟨none, cs.dropWhile (· = ' ')⟩ [] := by
    rw [hline]
    rw [← hcs] at h
    exact follow_spaces hsteady (s := ⟨some '/', cs⟩) rfl h
  rw [hp, hp', hblock, hlines, hcs]

theorem read?_isSome_of_spaces {line : String} {p q : Pattern}
    (hp : p.follow done = (spaces ++ q).follow done)
    (h : (q.follow done ⟨none, line.toList.dropWhile (· = ' ')⟩ []).isSome) :
    (p.read? line).isSome := by
  rw [read?, Option.isSome_map]
  show (p.follow done ⟨none, line.toList⟩ []).isSome
  have hspaces : (spaces ++ q).follow done ⟨none, line.toList⟩ [] =
      q.follow done ⟨none, line.toList.dropWhile (· = ' ')⟩ [] :=
    follow_spaces (follow_congr steady_done) rfl (.inl h)
  rw [hp, hspaces]
  exact h

/-- A line that goes on with something else after its spaces is not the end of a block
comment. -/
theorem blockEnd_read? {line : String} (h : ¬ "*/".toList <+: line.toList.dropWhile (· = ' ')) :
    blockEnd.read? line = none := by
  rw [read?]
  show Option.map _ (blockEnd.follow done ⟨none, line.toList⟩ []) = none
  rw [follow_blockEnd_none rfl h]
  rfl

end DocComment
