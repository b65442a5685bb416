import DocComment.Proofs.CodeBlocks

/-!
# Lines of prose

A comment holds lines of text, items of lists and empty lines. `CommentForm.writeLine`
writes each of them in both forms of a comment, and `CommentForm.answer_line` says what
the state for prose does with it: the action and the captures are those of the line,
whatever the form.

Items and empty lines are told by how they start, so nothing is asked of them but that
they are what they are. Text is all that no other rule takes. That an empty line is not
taken for anything else holds for every number of spaces in it (`answer_blank`); right
after another empty line, and at the start of a run of line comments, one with many spaces
is a line of code (`IsCode`).
-/

namespace DocComment

open Text Pattern Dialect Relation Reader

/-- A line of a comment that is text, an item of a list, or empty but for spaces. -/
inductive ProseLine where
  | text (t : String)
  | bullet (t : String)
  | definition (key t : String)
  | blank (width : Nat)
  deriving DecidableEq, Repr

namespace ProseLine

def isText : ProseLine → Bool
  | text _ => true
  | _ => false

/-- Whether nothing goes on across a line. -/
def isBreak : ProseLine → Bool
  | blank _ => true
  | _ => false

/-- What a line of a comment holds, without what stands before it. -/
def content : ProseLine → String
  | text t => t
  | bullet t => "* " ++ t
  | definition key t => "+ " ++ key ++ ": " ++ t
  | blank width => String.ofList (List.replicate width ' ')

/-- What a line does. -/
def action : ProseLine → Action
  | text _ => .append
  | bullet _ => .bullet
  | definition _ _ => .definition
  | blank _ => .flush

def captures : ProseLine → Captures
  | text t => [some t]
  | bullet t => [some "*", some t]
  | definition key t => [some "+", some key, some t]
  | blank _ => []

/-- Where the reading goes on after a line. -/
def way (l : ProseLine) : Option (CommentMode × Bool) :=
  if l.isBreak then some (.gap, false) else none

end ProseLine

namespace CommentForm

/-- The line of a comment. -/
def writeLine : CommentForm → ProseLine → String
  | block, l => l.content
  | line, .blank width => "//" ++ (ProseLine.blank width).content
  | line, l => "// " ++ l.content

/-- Text on one line that starts with no space and ends with no line break. -/
def IsText (t : String) : Prop :=
  t ≠ "" ∧ '\n' ∉ t.toList ∧ ¬ " ".toList <+: t.toList ∧ dropLineEnd t = t

instance : DecidablePred IsText :=
  fun _ => inferInstanceAs (Decidable (_ ∧ _ ∧ _ ∧ _))

/-- Whether a line can stand in a comment as what it is. Text must be taken by no rule but
the one for text, and a key ends at the first colon. -/
def TakesLine (form : CommentForm) : ProseLine → Prop
  | .text t =>
    IsText t ∧ ∀ r ∈ (form.state .prose).rules, r.pattern.accepts (form.writeLine (.text t)) →
      r.action = some .append
  | .bullet t => IsText t
  | .definition key t =>
    IsText t ∧ '\n' ∉ key.toList ∧ ':' ∉ key.toList ∧ ¬ " ".toList <+: key.toList
  | .blank _ => True

instance (form : CommentForm) : DecidablePred form.TakesLine
  | .text _ => inferInstanceAs (Decidable (_ ∧ _))
  | .bullet _ => inferInstanceAs (Decidable (IsText _))
  | .definition _ _ => inferInstanceAs (Decidable (_ ∧ _ ∧ _ ∧ _))
  | .blank _ => inferInstanceAs (Decidable True)

/-- Whether a line is indented as code is. -/
def IsCode : CommentForm → ProseLine → Prop
  | block, .blank width => 4 ≤ width
  | line, .blank width => 3 ≤ width
  | _, _ => False

instance : (form : CommentForm) → DecidablePred form.IsCode
  | block, .blank _ => inferInstanceAs (Decidable (_ ≤ _))
  | line, .blank _ => inferInstanceAs (Decidable (_ ≤ _))
  | block, .text _ | block, .bullet _ | block, .definition _ _ => inferInstanceAs (Decidable False)
  | line, .text _ | line, .bullet _ | line, .definition _ _ => inferInstanceAs (Decidable False)

theorem IsText.good {t : String} (h : IsText t) : ∃ x xs, t.toList = x :: xs ∧ x ≠ ' ' ∧
    '\n' ∉ x :: xs := by
  cases hc : t.toList with
  | nil => exact absurd (String.toList_eq_nil_iff.1 hc) h.1
  | cons x xs =>
      refine ⟨x, xs, rfl, ?_, hc ▸ h.2.1⟩
      rintro rfl
      exact h.2.2.1 (hc ▸ ⟨xs, rfl⟩)

end CommentForm

/-! ## How items are read -/

namespace Pattern

/-- Past a gap it matters only what comes after its spaces. -/
theorem follow_gap {next : Spot → Marks → Option Marks} (hnext : Steady next) {b : Option Char}
    {cs : List Char} {ms : Marks} (h : (next ⟨none, cs.dropWhile (· = ' ')⟩ ms).isSome) :
    gap.follow next ⟨b, ' ' :: cs⟩ ms = next ⟨none, cs.dropWhile (· = ' ')⟩ ms := by
  have hspaces : followRun (· = ' ') (next · ms) 0 (some ' ') cs =
      next ⟨none, cs.dropWhile (· = ' ')⟩ ms :=
    follow_spaces hnext (s := ⟨some ' ', cs⟩) rfl (.inl h)
  show followRun (· = ' ') (next · ms) 1 b (' ' :: cs) = _
  rw [followRun, if_pos (by rfl), hspaces]
  cases hn : next ⟨none, cs.dropWhile (· = ' ')⟩ ms with
  | none =>
      rw [hn] at h
      cases h
  | some found => rfl

/-- As little as possible is read up to the first place where it goes on. -/
theorem followLazyRun_until {p : Char → Bool} {next : Spot → Option Marks} {cs rest : List Char}
    (hcs : ∀ c ∈ cs, p c ∧ ∀ b cs', next ⟨b, c :: cs'⟩ = none)
    (hrest : ∀ b, (next ⟨b, rest⟩).isSome) (b : Option Char) :
    followLazyRun p next b (cs ++ rest) = next ⟨cs.getLast?.or b, rest⟩ := by
  induction cs generalizing b with
  | nil =>
      show followLazyRun p next b rest = next ⟨b, rest⟩
      cases rest with
      | nil => rfl
      | cons d ds =>
          obtain ⟨found, hfound⟩ := Option.isSome_iff_exists.1 (hrest b)
          rw [followLazyRun, hfound]
          rfl
  | cons c cs ih =>
      obtain ⟨hc, hnone⟩ := hcs c List.mem_cons_self
      rw [List.cons_append, followLazyRun, hnone, if_pos hc,
        ih fun d hd => hcs d (List.mem_cons_of_mem _ hd), List.getLast?_cons]
      cases cs.getLast? <;> rfl

theorem bulletItem_read? {t : String} (h : CommentForm.IsText t) :
    bulletItem.read? ("* " ++ t) = some [some "*", some t] := by
  obtain ⟨x, xs, ht, hx, hn⟩ := h.good
  have hchars : ("* " ++ t).toList = '*' :: ' ' :: x :: xs := by simp [ht]
  have hdrop : (x :: xs).dropWhile (· = ' ') = x :: xs :=
    List.dropWhile_cons_of_neg (by simpa using hx)
  have hgap (ms : Marks) : gap.follow ((capture 1 something ++ stop).follow done)
      ⟨some '*', ' ' :: x :: xs⟩ ms = some ((1, ⟨x :: xs, []⟩) :: ms) := by
    rw [follow_gap (follow_congr steady_done), hdrop, follow_something hn]
    rw [hdrop, follow_something hn]
    rfl
  have hfollow : bulletItem.follow done ⟨none, '*' :: ' ' :: x :: xs⟩ [] =
      some [(1, ⟨x :: xs, []⟩), (0, ⟨'*' :: ' ' :: x :: xs, ' ' :: x :: xs⟩)] := by
    show (gap.follow ((capture 1 something ++ stop).follow done) ⟨some '*', ' ' :: x :: xs⟩
      [(0, ⟨'*' :: ' ' :: x :: xs, ' ' :: x :: xs⟩)] <|> none) = _
    rw [hgap]
    rfl
  have hmarker : Mark.text ⟨'*' :: ' ' :: x :: xs, ' ' :: x :: xs⟩ = "*" :=
    mark_text_of_passes (s := ⟨none, '*' :: ' ' :: x :: xs⟩) (w := ['*'])
      (t := ⟨some '*', ' ' :: x :: xs⟩) ⟨rfl, rfl⟩
  have htext : Mark.text ⟨x :: xs, []⟩ = t := by simp [Mark.text, ← ht]
  rw [read?, hchars]
  show Option.map _ (bulletItem.follow done ⟨none, '*' :: ' ' :: x :: xs⟩ []) = _
  rw [hfollow]
  show some [some (Mark.text _), some (Mark.text _)] = _
  rw [hmarker, htext]

theorem definitionItem_read? {key t : String} (h : CommentForm.IsText t)
    (hinline : '\n' ∉ key.toList) (hcolon : ':' ∉ key.toList)
    (hspace : ¬ " ".toList <+: key.toList) :
    definitionItem.read? ("+ " ++ key ++ ": " ++ t) = some [some "+", some key, some t] := by
  obtain ⟨x, xs, ht, hx, hn⟩ := h.good
  let body : List Char := key.toList ++ ':' :: ' ' :: x :: xs
  have hchars : ("+ " ++ key ++ ": " ++ t).toList = '+' :: ' ' :: body := by simp [body, ht]
  have hdrop : (' ' :: x :: xs).dropWhile (· = ' ') = x :: xs := by simp [hx]
  have hbody : body.dropWhile (· = ' ') = body := by
    cases hkey : key.toList with
    | nil => simp [body, hkey]
    | cons c cs =>
        have hc : c ≠ ' ' := by
          rintro rfl
          exact hspace (hkey ▸ ⟨cs, rfl⟩)
        simp [body, hkey, hc]
  -- what comes after the key: the colon, spaces and the text
  have hvalue (b : Option Char) (ms : Marks) :
      (":" ++ (spaces ++ (capture 2 something ++ stop))).follow done
        ⟨b, ':' :: ' ' :: x :: xs⟩ ms = some ((2, ⟨x :: xs, []⟩) :: ms) := by
    have hspaces : (spaces ++ (capture 2 something ++ stop)).follow done
        ⟨some ':', ' ' :: x :: xs⟩ ms = some ((2, ⟨x :: xs, []⟩) :: ms) := by
      have hsome := @follow_something 2 none x xs hn ms
      refine (follow_spaces (follow_congr steady_done) (s := ⟨some ':', ' ' :: x :: xs⟩) rfl
        (.inl ?_)).trans ?_
      · rw [hdrop, hsome]
        rfl
      · rw [hdrop, hsome]
    exact hspaces
  have hkey (b : Option Char) (ms : Marks) :
      (capture 1 little ++ (":" ++ (spaces ++ (capture 2 something ++ stop)))).follow done
        ⟨b, body⟩ ms =
      some ((2, ⟨x :: xs, []⟩) :: (1, ⟨body, ':' :: ' ' :: x :: xs⟩) :: ms) := by
    refine (followLazyRun_until (fun c hc => ⟨?_, fun b cs' => ?_⟩) (fun b => ?_) b).trans ?_
    · rw [isInline, bne_iff_ne]
      rintro rfl
      exact hinline hc
    · refine follow_lit_none ?_ _
      intro hpre
      obtain rfl : ':' = c := (List.cons_prefix_cons.1 hpre).1
      exact hcolon hc
    · exact Option.isSome_iff_exists.2 ⟨_, hvalue b _⟩
    · exact hvalue _ _
  have hgap (ms : Marks) :
      gap.follow ((capture 1 little ++ (":" ++ (spaces ++ (capture 2 something ++ stop)))).follow
        done) ⟨some '+', ' ' :: body⟩ ms =
      some ((2, ⟨x :: xs, []⟩) :: (1, ⟨body, ':' :: ' ' :: x :: xs⟩) :: ms) := by
    rw [follow_gap (follow_congr steady_done), hbody, hkey]
    rw [hbody, hkey]
    rfl
  have hfollow : definitionItem.follow done ⟨none, '+' :: ' ' :: body⟩ [] =
      some [(2, ⟨x :: xs, []⟩), (1, ⟨body, ':' :: ' ' :: x :: xs⟩),
        (0, ⟨'+' :: ' ' :: body, ' ' :: body⟩)] := hgap _
  have hmarker : Mark.text ⟨'+' :: ' ' :: body, ' ' :: body⟩ = "+" :=
    mark_text_of_passes (s := ⟨none, '+' :: ' ' :: body⟩) (w := ['+'])
      (t := ⟨some '+', ' ' :: body⟩) ⟨rfl, rfl⟩
  have hname : Mark.text ⟨body, ':' :: ' ' :: x :: xs⟩ = key := by
    have hmark := mark_text_of_passes (s := ⟨none, body⟩) (w := key.toList)
      (t := ⟨key.toList.getLast?.or none, ':' :: ' ' :: x :: xs⟩) ⟨rfl, rfl⟩
    rwa [String.ofList_toList] at hmark
  have htext : Mark.text ⟨x :: xs, []⟩ = t := by simp [Mark.text, ← ht]
  rw [read?, hchars]
  show Option.map _ (definitionItem.follow done ⟨none, '+' :: ' ' :: body⟩ []) = _
  rw [hfollow]
  show some [some (Mark.text _), some (Mark.text _), some (Mark.text _)] = _
  rw [hmarker, hname, htext]

end Pattern

/-! ## How the lines are answered -/

/-- The first rule that takes a line gives the answer. -/
theorem answer_of_first {pre post : List Rule} {r : Rule} {line : String} {entering : Bool}
    {captures : Captures} (hpre : ∀ r' ∈ pre, r'.active entering → r'.pattern.read? line = none)
    (ha : r.active entering) (hr : r.pattern.read? line = some captures) :
    answer (pre ++ r :: post) line entering = some (r.action, captures, r.next) := by
  have hnone : answer pre line entering = none := by
    rw [answer, List.findSome?_eq_none_iff]
    intro r' hr'
    split
    · next hactive => rw [hpre r' hr' hactive, Option.map_none]
    · rfl
  rw [answer_append, hnone, answer_of_read? ha hr]
  rfl

theorem answer_at {rules : List Rule} {line : String} {entering : Bool} {captures : Captures}
    (i : Nat) (hi : i < rules.length)
    (hpre : ∀ r ∈ rules.take i, r.active entering → r.pattern.read? line = none)
    (ha : rules[i].active entering) (hr : rules[i].pattern.read? line = some captures) :
    answer rules line entering = some (rules[i].action, captures, rules[i].next) := by
  have hrules : rules.take i ++ rules[i] :: rules.drop (i + 1) = rules := by
    rw [← List.drop_eq_getElem_cons hi, List.take_append_drop]
  calc answer rules line entering
      = answer (rules.take i ++ rules[i] :: rules.drop (i + 1)) line entering := by rw [hrules]
    _ = _ := answer_of_first hpre ha hr

namespace CommentForm

variable {form : CommentForm} {t : String}

/-- What is answered in a block comment is answered in a run of line comments. -/
theorem answer_of_block {c : String} (hgood : (CommentItem.text c).Good) (hne : c ≠ "")
    {a : Action} {captures : Captures} {entering : Bool}
    (h : answer mgroup.rules c entering = some (some a, captures, .stay)) :
    answer (form.state .prose).rules (form.write (.text c)) entering =
      some (some a, captures, CommentMode.transition form.state none) := by
  cases form with
  | block => exact h
  | line =>
      have hrel := answer_prose_text hgood hne entering entering
      rw [h] at hrel
      show answer group.rules ("// " ++ c) entering = _
      generalize answer group.rules ("// " ++ c) entering = y at hrel
      cases hrel with
      | some hrel =>
          obtain ⟨haction, hcaptures, way, -, hnext, hnext'⟩ := hrel
          rename_i y
          obtain ⟨y₁, y₂, y₃⟩ := y
          obtain rfl : way = none := by
            cases way with
            | none => rfl
            | some way => cases hnext
          cases haction
          cases hcaptures
          cases hnext'
          rfl

/-- A line with a marker is nothing that is looked for before the items of lists. -/
theorem marked_read? {c : Char} (hc : c = '*' ∨ c = '+') {line : String} {cs : List Char}
    (hline : line.toList = c :: ' ' :: cs) :
    ∀ r ∈ mgroup.rules.take 7, r.pattern.read? line = none := by
  intro r hr
  refine read?_eq_none ?_
  rw [hline]
  simp only [mgroup, List.take_succ_cons, List.take_zero, List.mem_cons, List.not_mem_nil,
    or_false] at hr
  rcases hc with rfl | rfl <;> rcases hr with rfl | rfl | rfl | rfl | rfl | rfl | rfl <;> rfl

theorem answer_bullet (h : IsText t) (entering : Bool) :
    answer (form.state .prose).rules (form.writeLine (.bullet t)) entering =
      some (some .bullet, [some "*", some t], CommentMode.transition form.state none) := by
  have hchars : ("* " ++ t).toList = '*' :: ' ' :: t.toList := by simp
  have hgood : (CommentItem.text ("* " ++ t)).Good := by
    refine ⟨?_, ?_, ?_⟩ <;> rw [hchars]
    · simpa using h.2.1
    · simp [List.cons_prefix_cons]
    · simp [List.cons_prefix_cons]
  have hwrite : form.writeLine (.bullet t) = form.write (.text ("* " ++ t)) := by
    cases form <;> rfl
  rw [hwrite]
  refine answer_of_block hgood ?_ ?_
  · intro hempty
    rw [hempty] at hchars
    cases hchars
  · exact answer_at 7 (by decide) (fun r hr _ => marked_read? (.inl rfl) hchars r hr) rfl
      (bulletItem_read? h)

theorem answer_definition {key : String} (h : form.TakesLine (.definition key t))
    (entering : Bool) :
    answer (form.state .prose).rules (form.writeLine (.definition key t)) entering =
      some (some .definition, [some "+", some key, some t],
        CommentMode.transition form.state none) := by
  obtain ⟨htext, hinline, hcolon, hspace⟩ := h
  have hchars : ("+ " ++ key ++ ": " ++ t).toList =
      '+' :: ' ' :: (key.toList ++ ':' :: ' ' :: t.toList) := by simp
  have hgood : (CommentItem.text ("+ " ++ key ++ ": " ++ t)).Good := by
    refine ⟨?_, ?_, ?_⟩ <;> rw [hchars]
    · simpa using ⟨hinline, htext.2.1⟩
    · simp [List.cons_prefix_cons]
    · simp [List.cons_prefix_cons]
  have hwrite : form.writeLine (.definition key t) =
      form.write (.text ("+ " ++ key ++ ": " ++ t)) := by
    cases form <;> rfl
  have hbullet : bulletItem.read? ("+ " ++ key ++ ": " ++ t) = none := by
    refine read?_eq_none ?_
    rw [hchars]
    rfl
  rw [hwrite]
  refine answer_of_block hgood ?_ ?_
  · intro hempty
    rw [hempty] at hchars
    cases hchars
  · refine answer_at 8 (by decide) ?_ rfl (definitionItem_read? htext hinline hcolon hspace)
    intro r hr _
    rw [show mgroup.rules.take 8 = mgroup.rules.take 7 ++ [mgroup.rules[7]] from rfl] at hr
    rcases List.mem_append.1 hr with hr | hr
    · exact marked_read? (.inr rfl) hchars r hr
    · rw [List.mem_singleton.1 hr]
      exact hbullet

/-- The rule for text comes last, and is the only one with its action. -/
theorem prose_rules (form : CommentForm) :
    ∃ r, (form.state .prose).rules = (form.state .prose).rules.dropLast ++ [r] ∧
      r.action = some .append ∧ r.onEntry = false ∧ r.next = .stay ∧
      (∀ t, IsText t → r.pattern.read? (form.writeLine (.text t)) = some [some t]) ∧
      ∀ r' ∈ (form.state .prose).rules.dropLast, r'.action ≠ some .append := by
  have hblock {t : String} (h : IsText t) :
      (spaces ++ capture 0 something ++ stop).read? t = some [some t] := by
    obtain ⟨x, xs, ht, hx, hn⟩ := h.good
    have hdrop : t.toList.dropWhile (· = ' ') = x :: xs := by
      rw [ht]
      exact List.dropWhile_cons_of_neg (by simpa using hx)
    have hsome := @follow_something 0 none x xs hn []
    have hspaces : (spaces ++ (capture 0 something ++ stop)).follow done ⟨none, t.toList⟩ [] =
        (capture 0 something ++ stop).follow done ⟨none, t.toList.dropWhile (· = ' ')⟩ [] := by
      refine follow_spaces (follow_congr steady_done) (s := ⟨none, t.toList⟩) rfl (.inl ?_)
      rw [hdrop, hsome]
      rfl
    rw [hdrop, hsome] at hspaces
    have htext : Mark.text ⟨x :: xs, []⟩ = t := by simp [Mark.text, ← ht]
    exact (congrArg (Option.map _) hspaces).trans (congrArg (fun t => some [some t]) htext)
  cases form with
  | block =>
      exact ⟨mgroup.rules[10], rfl, rfl, rfl, rfl, fun t h => hblock h, by decide⟩
  | line =>
      refine ⟨group.rules[12], rfl, rfl, rfl, rfl, fun t h => ?_, by decide⟩
      obtain ⟨x, xs, ht, hx, hn⟩ := h.good
      rw [← hblock h]
      show group.rules[12].pattern.read? (CommentItem.text t).inLine =
        mgroup.rules[10].pattern.read? (CommentItem.text t).inBlock
      refine read?_mirrored (q := capture 0 something ++ stop)
        (follow_congr steady_done) rfl rfl rfl (.inl ?_)
      show ((capture 0 something ++ stop).follow done ⟨none, t.toList.dropWhile _⟩ []).isSome
      rw [ht, List.dropWhile_cons_of_neg (by simpa using hx), follow_something hn]
      rfl

theorem answer_text (h : form.TakesLine (.text t)) (entering : Bool) :
    answer (form.state .prose).rules (form.writeLine (.text t)) entering =
      some (some .append, [some t], CommentMode.transition form.state none) := by
  obtain ⟨r, hrules, ha, hentry, hnext, hread, hother⟩ := prose_rules form
  have hactive : r.active entering := by
    rw [Rule.active, hentry]
    rfl
  have hpre : ∀ r' ∈ (form.state .prose).rules.dropLast,
      r'.pattern.read? (form.writeLine (.text t)) = none := by
    intro r' hr'
    rw [read?_eq_none_iff]
    exact fun haccepts => hother r' hr' (h.2 r' (List.dropLast_subset _ hr') haccepts)
  rw [hrules, answer_of_first (fun r' hr' _ => hpre r' hr') hactive (hread t h.1), ha, hnext]
  rfl

/-- What comes before a piece of prose in a rule. -/
def leads : CommentForm → Pattern → Pattern
  | block, q => spaces ++ q
  | line, q => lineStart ++ (spaces ++ q)

/-- What the rules for prose look for before they take a line for text. -/
def sought : List Pattern :=
  ["# " ++ (capture 0 something ++ stop), "## " ++ (capture 0 something ++ stop), libFunction 0,
    libName 0 ++ (spaces ++ stop), capitals, "[math]",
    capture 0 (run (· = '*') 1) ++ (gap ++ (capture 1 something ++ stop)),
    capture 0 "+" ++ (gap ++ (capture 1 little ++ (":" ++ (spaces ++
      (capture 2 something ++ stop))))),
    "*/"]

/-- None of it is found where only spaces are left. -/
theorem sought_nothing {q : Pattern} (hq : q ∈ sought) :
    SkipsSpaces (q.follow done) ∧ q.follow done ⟨none, []⟩ [] = none := by
  simp only [sought, List.mem_cons, List.not_mem_nil, or_false] at hq
  rcases hq with rfl | rfl | rfl | rfl | rfl | rfl | rfl | rfl | rfl <;>
    exact ⟨.of_none fun _ _ _ => rfl, rfl⟩

theorem toList_blank (width : Nat) :
    (ProseLine.blank width).content.toList = List.replicate width ' ' :=
  String.toList_ofList

/-- The spaces of an empty line do not matter to a pattern that skips them. -/
theorem follow_blank {q : Pattern} (hq : SkipsSpaces (q.follow done)) (width : Nat) :
    (form.leads q).follow done ⟨none, (form.writeLine (.blank width)).toList⟩ [] =
      q.follow done ⟨none, []⟩ [] := by
  have hdrop : (List.replicate width ' ').dropWhile (· = ' ') = [] := by simp
  have hspaces {b : Option Char} (hb : b.any isWord = false) :
      (spaces ++ q).follow done ⟨b, List.replicate width ' '⟩ [] =
        q.follow done ⟨none, (List.replicate width ' ').dropWhile (· = ' ')⟩ [] :=
    follow_spaces (follow_congr steady_done) hb (.inr hq)
  rw [hdrop] at hspaces
  cases form with
  | block =>
      show (spaces ++ q).follow done ⟨none, (ProseLine.blank width).content.toList⟩ [] = _
      rw [toList_blank, hspaces rfl]
  | line =>
      have hline : ("//" ++ (ProseLine.blank width).content).toList =
          '/' :: '/' :: List.replicate width ' ' := by
        rw [String.toList_append, toList_blank]
        rfl
      show (lineStart ++ (spaces ++ q)).follow done ⟨none, ("//" ++ _).toList⟩ [] = _
      rw [hline]
      exact hspaces (b := some '/') rfl

theorem sought_read?_blank {p q : Pattern} (hq : q ∈ sought)
    (hp : p.follow done = (form.leads q).follow done) (width : Nat) :
    p.read? (form.writeLine (.blank width)) = none := by
  obtain ⟨hskip, hnil⟩ := sought_nothing hq
  refine read?_eq_none ?_
  rw [hp, follow_blank hskip, hnil]

theorem blank_read? {p : Pattern} (hp : p.follow done = (form.leads stop).follow done)
    (hcount : p.captureCount = 0) (width : Nat) :
    p.read? (form.writeLine (.blank width)) = some [] := by
  have hfollow : p.follow done ⟨none, (form.writeLine (.blank width)).toList⟩ [] = some [] := by
    rw [hp, follow_blank (.of_none fun _ _ _ => rfl)]
    rfl
  rw [read?, hcount]
  exact congrArg (Option.map _) hfollow

theorem toList_writeLine_blank (width : Nat) :
    (line.writeLine (.blank width)).toList = '/' :: '/' :: List.replicate width ' ' := by
  show ("//" ++ (ProseLine.blank width).content).toList = _
  rw [String.toList_append, toList_blank]
  rfl

/-- Few spaces are no indentation. -/
theorem codeStart_read?_blank {width : Nat} (h : width < 3) :
    codeStart.read? (line.writeLine (.blank width)) = none := by
  refine codeStart_read?_eq_none fun hpre => ?_
  rw [toList_writeLine_blank] at hpre
  have hlength : 5 ≤ List.length (_ :: _ :: _) := hpre.length_le
  rw [List.length_cons, List.length_cons, List.length_replicate] at hlength
  omega

theorem answer_blank {width : Nat} {entering : Bool}
    (h : form = line → form.IsCode (.blank width) → entering = false) :
    answer (form.state .prose).rules (form.writeLine (.blank width)) entering =
      some (some .flush, [], CommentMode.transition form.state (some (.gap, false))) := by
  cases form with
  | block =>
      have hread : mgroup.rules[9].pattern.read? (block.writeLine (.blank width)) = some [] :=
        @blank_read? block _ rfl rfl width
      refine @answer_at mgroup.rules _ _ _ 9 (by decide) ?_ rfl hread
      intro r hr _
      simp only [mgroup, List.take_succ_cons, List.take_zero, List.mem_cons, List.not_mem_nil,
        or_false] at hr
      have hread {p : Pattern} (i : Nat) (hi : i < sought.length)
          (hp : p.follow done = (block.leads sought[i]).follow done) :=
        sought_read?_blank (List.getElem_mem hi) hp width
      rcases hr with rfl | rfl | rfl | rfl | rfl | rfl | rfl | rfl | rfl
      exacts [hread 8 (by decide) rfl, hread 0 (by decide) rfl, hread 1 (by decide) rfl,
        hread 2 (by decide) rfl, hread 3 (by decide) rfl, hread 4 (by decide) rfl,
        hread 5 (by decide) rfl, hread 6 (by decide) rfl, hread 7 (by decide) rfl]
  | line =>
      have hread : group.rules[11].pattern.read? (line.writeLine (.blank width)) = some [] :=
        @blank_read? line _ rfl rfl width
      refine @answer_at group.rules _ _ _ 11 (by decide) ?_ rfl hread
      intro r hr hactive
      simp only [group, List.take_succ_cons, List.take_zero, List.mem_cons, List.not_mem_nil,
        or_false] at hr
      have hread {p : Pattern} (i : Nat) (hi : i < sought.length)
          (hp : p.follow done = (line.leads sought[i]).follow done) :=
        sought_read?_blank (List.getElem_mem hi) hp width
      have hcomment : lineStart.accepts (line.writeLine (.blank width)) := by
        rw [lineStart_accepts_iff]
        exact ⟨[], List.replicate width ' ', by simp, toList_writeLine_blank width⟩
      rcases hr with rfl | rfl | rfl | rfl | rfl | rfl | rfl | rfl | rfl | rfl | rfl
      case inl =>
        refine codeStart_read?_blank (Nat.lt_of_not_le fun hcode => ?_)
        rw [h rfl hcode] at hactive
        cases hactive
      case inr.inl =>
        exact read?_eq_none_iff.2 fun hvisible => not_lineStart_of_visible hvisible hcomment
      case inr.inr.inl =>
        exact read?_eq_none_iff.2 fun hblank => not_lineStart_of_blank hblank hcomment
      all_goals clear hactive hcomment
      exacts [hread 0 (by decide) rfl, hread 1 (by decide) rfl, hread 2 (by decide) rfl,
        hread 3 (by decide) rfl, hread 5 (by decide) rfl, hread 4 (by decide) rfl,
        hread 6 (by decide) rfl, hread 7 (by decide) rfl]

/-- What a line of prose meets in the state for prose. -/
theorem answer_line {l : ProseLine} (h : form.TakesLine l) {entering : Bool}
    (hcode : form = line → form.IsCode l → entering = false) :
    answer (form.state .prose).rules (form.writeLine l) entering =
      some (some l.action, l.captures, CommentMode.transition form.state l.way) := by
  cases l with
  | text t => exact answer_text h entering
  | bullet t => exact answer_bullet h entering
  | definition key t => exact answer_definition h entering
  | blank width => exact answer_blank hcode

theorem content_head {l : ProseLine} (h : form.TakesLine l) (hl : l.isBreak = false) :
    ∃ x xs, l.content.toList = x :: xs ∧ x ≠ ' ' := by
  cases l with
  | text t =>
      obtain ⟨x, xs, ht, hx, -⟩ := h.1.good
      exact ⟨x, xs, ht, hx⟩
  | bullet t => exact ⟨'*', ' ' :: t.toList, by simp [ProseLine.content], by decide⟩
  | definition key t =>
      exact ⟨'+', ' ' :: (key.toList ++ ':' :: ' ' :: t.toList), by simp [ProseLine.content],
        by decide⟩
  | blank width => cases hl

theorem writeLine_eq {l : ProseLine} (hl : l.isBreak = false) :
    form.writeLine l = form.write (.text l.content) := by
  cases l with
  | blank width => cases hl
  | text | bullet | definition => cases form <;> rfl

/-- A line that is not indented as code is read as prose after an empty one as well. -/
theorem answer_gap_of_line {l : ProseLine} (h : form.TakesLine l) (hcode : ¬ form.IsCode l)
    (entering : Bool) :
    answer (form.state .gap).rules (form.writeLine l) entering =
      some (none, [], .goTo (form.state .prose).name true) := by
  cases form with
  | block =>
      refine (answer_skip (read?_eq_none (follow_lit_none (fun hpre => ?_) [])) _ _).trans rfl
      replace hpre : "    ".toList <+: l.content.toList := hpre
      cases hl : l.isBreak with
      | true =>
          cases l with
          | text | bullet | definition => cases hl
          | blank width =>
              rw [toList_blank] at hpre
              exact hcode (show 4 ≤ width by simpa using hpre.length_le)
      | false =>
          obtain ⟨x, xs, hchars, hx⟩ := content_head h hl
          rw [hchars] at hpre
          exact hx (List.cons_prefix_cons.1 hpre).1.symm
  | line =>
      cases hl : l.isBreak with
      | true =>
          cases l with
          | text | bullet | definition => cases hl
          | blank width =>
              exact (answer_skip (codeStart_read?_blank (Nat.lt_of_not_le hcode)) _ _).trans rfl
      | false =>
          obtain ⟨x, xs, hchars, hx⟩ := content_head h hl
          rw [writeLine_eq hl]
          refine (answer_skip (codeStart_read?_eq_none ?_) _ _).trans rfl
          show ¬ _ <+: ("// " ++ l.content).toList.dropWhile isIndent
          have hline : ("// " ++ l.content).toList.dropWhile isIndent =
              '/' :: '/' :: ' ' :: x :: xs := by
            rw [String.toList_append, hchars]
            rfl
          rw [hline]
          intro hpre
          have hpre : ['/', '/', ' ', ' ', ' '] <+: '/' :: '/' :: ' ' :: x :: xs := hpre
          simp only [List.cons_prefix_cons, true_and] at hpre
          exact hx hpre.1.symm

theorem dropLineEnd_content {l : ProseLine} (h : form.TakesLine l) :
    dropLineEnd l.content = l.content := by
  cases l with
  | text t => exact h.1.2.2.2
  | bullet t =>
      obtain ⟨-, -, -, ht⟩ : IsText t := h
      show dropLineEnd ("* " ++ t) = _
      rw [dropLineEnd_append ⟨['*'], ' ', rfl, rfl⟩, ht]
      rfl
  | definition key t =>
      have hmargin : ∃ cs c, ("+ " ++ key ++ ": ").toList = cs ++ [c] ∧ isNewline c = false :=
        ⟨("+ " ++ key ++ ":").toList, ' ', by simp, rfl⟩
      show dropLineEnd ("+ " ++ key ++ ": " ++ t) = _
      rw [dropLineEnd_append hmargin, h.1.2.2.2]
      rfl
  | blank width =>
      refine String.toList_inj.1 ?_
      rw [dropLineEnd, toList_onChars, toList_blank]
      refine dropEndWhile_eq_self fun c hc => ?_
      rw [List.eq_of_mem_replicate (List.mem_of_getLast? hc)]
      rfl

/-- The lines are fed as they are written. -/
theorem dropLineEnd_writeLine {l : ProseLine} (h : form.TakesLine l) :
    dropLineEnd (form.writeLine l) = form.writeLine l := by
  have hcontent := dropLineEnd_content h
  cases form with
  | block => exact hcontent
  | line =>
      cases l with
      | blank width =>
          show dropLineEnd ("//" ++ _) = _
          rw [dropLineEnd_append ⟨['/'], '/', rfl, rfl⟩, hcontent]
          rfl
      | text | bullet | definition =>
          show dropLineEnd ("// " ++ _) = _
          rw [dropLineEnd_append ⟨"//".toList, ' ', rfl, rfl⟩, hcontent]
          rfl

end CommentForm

end DocComment
