import DocComment.Proofs.CommentLines
import Mathlib.Data.List.Chain

/-!
# Paragraphs and lists are kept item by item

Text in a comment makes a paragraph, or goes on with an item of a list if it comes after
one; an empty line ends either. `entriesOf` says what a list of lines is to become: it
splits the lines at the empty ones, and of each run it makes a paragraph of the text in
front and a list of the rest. There is no state in it, and no line is looked at for what
came before it. `paragraphs_kept` says that the reader makes just that of them, in both
forms of a comment. What it asks of the lines is that right after an empty one no other is
so wide that it is code (`CommentForm.Follows`).

The reader is always a step behind. It holds back the last item in a list that it holds
back as well, as the next line may go on with either. `Pending` is what it can hold back,
and `Pending.entriesOver` what becomes of it together with the lines that are still to
come; that does not change with a line that is read (`Pending.entriesOver_cons`), and is
what the induction over the lines carries.
-/

namespace DocComment

open Text Pattern Dialect Relation Reader

/-! ## What becomes of the lines -/

namespace ProseLine

/-- What a line says, without what marks it as an item. -/
def said : ProseLine → String
  | text t | bullet t | definition _ t => t
  | blank _ => ""

/-- A text with the text of the lines right after it. -/
def withText (t : String) (lines : List ProseLine) : String :=
  " ".intercalate (t :: (lines.takeWhile isText).map said)

/-- The items of a list. Text is a part of the item before it. -/
def listItems : List ProseLine → List ListItem
  | [] => []
  | bullet t :: lines => { text := withText t lines } :: listItems lines
  | definition key t :: lines => { text := withText t lines, key := some key } :: listItems lines
  | text _ :: lines | blank _ :: lines => listItems lines

/-- The list of some lines, if there are any. -/
def listOf (lines : List ProseLine) : List Entry :=
  if lines.isEmpty then [] else [.list { items := listItems lines }]

/-- The entries of lines none of which is empty: the text in front is a paragraph, and all
after it is one list. -/
def runEntries : List ProseLine → List Entry
  | text t :: lines =>
    .paragraph { text := some (withText t lines) } :: listOf (lines.dropWhile isText)
  | lines => listOf lines

/-- The entries of lines. Nothing goes on across an empty line. -/
def entriesOf (lines : List ProseLine) : List Entry :=
  (lines.splitOnP isBreak).flatMap runEntries

end ProseLine

/-! ## What is held back -/

/-- What may go on with the next line. -/
inductive Pending where
  | nothing
  | paragraph (t : String)
  | list (items : List ListItem) (last : ListItem)
  deriving DecidableEq, Repr

namespace Pending

open ProseLine

/-- The pending entry of a draft. -/
def entry : Pending → Option Entry
  | nothing => none
  | paragraph t => some (.paragraph { text := some t })
  | list items last => some (.list { items, pending := some last })

/-- The entries if no line goes on with what is held back. -/
def settled : Pending → List Entry
  | nothing => []
  | paragraph t => [.paragraph { text := some t }]
  | list items last => [.list { items := items ++ [last] }]

/-- What a further item of a list completes, and what is held back then. -/
def push (item : ListItem) : Pending → List Entry × Pending
  | list items last => ([], list (items ++ [last]) item)
  | p => (p.settled, list [] item)

/-- What a further line of text completes, and what is held back then. -/
def extend (t : String) : Pending → Pending
  | nothing => paragraph t
  | paragraph s => paragraph (s ++ " " ++ t)
  | list items last => list items { last with text := last.text ++ " " ++ t }

/-- What a line completes, and what is held back then. -/
def advance (p : Pending) : ProseLine → List Entry × Pending
  | .text t => ([], p.extend t)
  | .bullet t => p.push { text := t }
  | .definition key t => p.push { text := t, key := some key }
  | .blank _ => (p.settled, nothing)

/-- The entries of what is held back and of lines after it none of which is empty. -/
def entries : Pending → List ProseLine → List Entry
  | nothing, lines => runEntries lines
  | paragraph t, lines =>
    .paragraph { text := some (withText t lines) } :: listOf (lines.dropWhile isText)
  | list items last, lines =>
    [.list { items := items ++ { last with text := withText last.text lines } :: listItems lines }]

/-- The entries of what is held back and of all lines that are still to come. -/
def entriesOver (p : Pending) (lines : List ProseLine) : List Entry :=
  match lines.splitOnP isBreak with
  | [] => p.settled
  | first :: runs => p.entries first ++ runs.flatMap runEntries

theorem withText_cons (s t : String) (lines : List ProseLine) :
    withText s (.text t :: lines) = withText (s ++ " " ++ t) lines := by
  show " ".intercalate (s :: t :: _) = " ".intercalate ((s ++ " " ++ t) :: _)
  rw [String.intercalate_cons_cons, String.intercalate_cons_append]

theorem entries_nil (p : Pending) : p.entries [] = p.settled := by
  cases p with
  | nothing => rfl
  | paragraph t =>
      show [Entry.paragraph { text := some (" ".intercalate [t]) }] = _
      rw [String.intercalate_singleton]
      rfl
  | list items last =>
      show [Entry.list { items := items ++
        [{ last with text := " ".intercalate [last.text] }] }] = _
      rw [String.intercalate_singleton]
      rfl

theorem entries_cons (p : Pending) {line : ProseLine} (h : line.isBreak = false)
    (lines : List ProseLine) :
    p.entries (line :: lines) = (p.advance line).1 ++ (p.advance line).2.entries lines := by
  cases line with
  | blank width => cases h
  | text t =>
      cases p with
      | nothing => rfl
      | paragraph s =>
          show Entry.paragraph { text := some (withText s (.text t :: lines)) } :: _ = _
          rw [withText_cons]
          rfl
      | list items last =>
          show [Entry.list { items := items ++
            { last with text := withText last.text (.text t :: lines) } :: listItems lines }] = _
          rw [withText_cons]
          rfl
  | bullet t | definition key t =>
      cases p <;>
        simp [entries, advance, push, settled, runEntries, listOf, listItems, withText, isText]

theorem entriesOver_nil (p : Pending) : p.entriesOver [] = p.settled := by
  show p.entries [] ++ [] = _
  rw [List.append_nil, entries_nil]

theorem entriesOver_nothing (lines : List ProseLine) :
    nothing.entriesOver lines = entriesOf lines := by
  rw [entriesOver, entriesOf]
  cases lines.splitOnP isBreak <;> rfl

theorem entriesOver_cons (p : Pending) (line : ProseLine) (lines : List ProseLine) :
    p.entriesOver (line :: lines) =
      (p.advance line).1 ++ (p.advance line).2.entriesOver lines := by
  cases h : line.isBreak with
  | true =>
      cases line with
      | blank width =>
          rw [entriesOver, List.splitOnP_cons_eq_if_modifyHead, if_pos h]
          show p.entries [] ++ entriesOf lines = p.settled ++ nothing.entriesOver lines
          rw [entries_nil, entriesOver_nothing]
      | text | bullet | definition => cases h
  | false =>
      rw [entriesOver, entriesOver, List.splitOnP_cons_eq_if_modifyHead, h,
        if_neg Bool.false_ne_true]
      cases hs : lines.splitOnP isBreak with
      | nil => exact absurd hs (by simp)
      | cons first runs =>
          show p.entries (line :: first) ++ _ = _
          rw [entries_cons p h, List.append_assoc]

/-- No text that is held back is empty. -/
def Filled : Pending → Prop
  | nothing => True
  | paragraph t => t ≠ ""
  | list _ last => last.text ≠ ""

theorem append_ne_empty (s t : String) : s ++ " " ++ t ≠ "" := by
  intro h
  have hchars := congrArg String.toList h
  simp at hchars

theorem filled_nothing : nothing.Filled :=
  trivial

theorem Filled.extend {p : Pending} (hp : p.Filled) {t : String} (ht : t ≠ "") :
    (p.extend t).Filled := by
  cases p with
  | nothing => exact ht
  | paragraph s => exact append_ne_empty _ t
  | list items last => exact append_ne_empty _ t

theorem Filled.push {p : Pending} {item : ListItem} (h : item.text ≠ "") :
    (p.push item).2.Filled := by
  cases p <;> exact h

theorem Filled.advance {form : CommentForm} {p : Pending} (hp : p.Filled) {l : ProseLine}
    (h : form.TakesLine l) : (p.advance l).2.Filled := by
  cases l with
  | text t => exact hp.extend h.1.1
  | bullet t =>
      obtain ⟨ht, -⟩ : CommentForm.IsText t := h
      exact Filled.push ht
  | definition key t => exact Filled.push h.1.1
  | blank width => trivial

end Pending

/-! ## What a line does to a draft -/

theorem joinText_filled {s : String} (h : s ≠ "") (t : String) :
    joinText (some s) t false = s ++ " " ++ t := by
  rw [joinText, if_neg Bool.false_ne_true, filled_of_ne h]

namespace Draft

/-- The draft with entries added to its current group. -/
def addEntries (d : Draft) (es : List Entry) : Draft :=
  es.foldl addEntry d

/-- The draft with something held back. -/
def holding (d : Draft) (p : Pending) : Draft :=
  { d with pending := p.entry }

/-- Nothing is pending, and no style waits for a paragraph. -/
structure AtRest (d : Draft) : Prop where
  pending : d.pending = none
  style : d.nextStyle = none

variable {d : Draft} {p : Pending}

theorem AtRest.addEntries (hd : d.AtRest) (es : List Entry) : (d.addEntries es).AtRest := by
  induction es generalizing d with
  | nil => exact hd
  | cons e es ih => exact ih (d := d.addEntry e) ⟨hd.pending, hd.style⟩

theorem entries_addEntries (hd : d.doc.store.Holds d.group) (es : List Entry) :
    (d.addEntries es).group = d.group ∧
      (d.addEntries es).currentGroup.entries = d.currentGroup.entries ++ es := by
  induction es generalizing d with
  | nil => exact ⟨rfl, (List.append_nil _).symm⟩
  | cons e es ih =>
      obtain ⟨hgroup, hentries⟩ := ih (d := d.addEntry e) (GroupStore.holds_update.2 hd)
      have hone : (d.addEntry e).currentGroup.entries = d.currentGroup.entries ++ [e] :=
        congrArg Group.entries (GroupStore.get_update_self hd _)
      refine ⟨hgroup, hentries.trans ?_⟩
      rw [hone, List.append_assoc]
      rfl

theorem AtRest.holding_nothing (hd : d.AtRest) : d.holding .nothing = d := by
  show { d with pending := none } = d
  rw [← hd.pending]

theorem AtRest.flush (hd : d.AtRest) (p : Pending) :
    (d.holding p).flush = d.addEntries p.settled := by
  have hsettle (e : Entry) :
      ({ d with pending := some e } : Draft).flush = d.addEntry e.settled := by
    show { d.addEntry e.settled with pending := none, nextStyle := none } = d.addEntry e.settled
    rw [← hd.style, ← hd.pending]
    rfl
  cases p with
  | nothing =>
      rw [hd.holding_nothing]
      exact flush_of_settled hd.pending
  | paragraph t => exact hsettle (.paragraph { text := some t })
  | list items last => exact hsettle (.list { items, pending := some last })

theorem AtRest.appendItem (hd : d.AtRest) (p : Pending) (item : ListItem) :
    (d.holding p).appendItem item =
      (d.addEntries (p.push item).1).holding (p.push item).2 := by
  have hopen (q : Pending) :
      { (d.holding q).flush with pending := some (.list { pending := some item }) } =
        (d.addEntries q.settled).holding (.list [] item) := by
    rw [hd.flush]
    rfl
  cases p with
  | nothing => exact hopen .nothing
  | paragraph t => exact hopen (.paragraph t)
  | list items last => rfl

theorem AtRest.appendText (hd : d.AtRest) (hp : p.Filled) (t : String) :
    (d.holding p).appendText t false = .ok (d.holding (p.extend t)) := by
  cases p with
  | nothing =>
      have hpending : (d.holding .nothing).pending = none := rfl
      rw [Draft.appendText, hpending]
      show Except.ok { d with
        pending := some (.paragraph ⟨some t, d.nextStyle⟩), nextStyle := none } = _
      rw [hd.style]
      exact congrArg (fun style => Except.ok { d with
        pending := some (.paragraph ⟨some t, none⟩), nextStyle := style }) hd.style.symm
  | paragraph s =>
      show Except.ok { d with
        pending := some (.paragraph ⟨some (joinText (some s) t false), none⟩) } = _
      rw [joinText_filled hp]
      rfl
  | list items last =>
      show Except.ok { d with
        pending := some (.list
          { items, pending := some { last with text := joinText (some last.text) t false } }) } = _
      rw [joinText_filled hp]
      rfl

/-- A line does to a draft what it does to what is held back. -/
theorem AtRest.apply_line (hd : d.AtRest) (hp : p.Filled) (l : ProseLine) (n : Nat) :
    l.action.apply n l.captures (d.holding p) =
      .ok ((d.addEntries (p.advance l).1).holding (p.advance l).2) := by
  cases l with
  | text t => exact hd.appendText hp t
  | bullet t => exact congrArg Except.ok (hd.appendItem p { text := t })
  | definition key t =>
      exact congrArg Except.ok (hd.appendItem p { text := t, key := some key })
  | blank width =>
      refine congrArg Except.ok ((hd.flush p).trans ?_)
      exact (hd.addEntries _).holding_nothing.symm

end Draft

/-! ## Reading the lines -/

namespace CommentForm

/-- Whether a line can come after another one: right after an empty line it is not
indented as code is. -/
def Follows (form : CommentForm) (l l' : ProseLine) : Prop :=
  l.isBreak → ¬ form.IsCode l'

instance (form : CommentForm) : DecidableRel form.Follows :=
  fun _ _ => inferInstanceAs (Decidable (_ → _))

/-- Whether any line of a comment is evaluated again: the first one of a run of line
comments is, and so is what comes after an empty line. -/
def Replays (form : CommentForm) (body : List ProseLine) : Prop :=
  form = line ∨ ∃ l ∈ body, l.isBreak

end CommentForm

/-- Between two lines of a comment: the draft is the one so far with something held back.
The flag says whether an indented line would be code. -/
structure Reading.InProse (form : CommentForm) (d : Draft) (p : Pending) (mayCode : Bool)
    (g : Reading) : Prop where
  state : g.state = form.state .prose ∨ g.state = form.state .gap ∧ p = .nothing
  indented : mayCode = false → g.state = form.state .prose ∧ (form = .line → g.entering = false)
  draft : g.draft = d.holding p

namespace CommentForm

variable {form : CommentForm} {l : ProseLine} {d : Draft} {p : Pending} {r : Reader} {g : Reading}
  {mayCode : Bool}

/-- In the state for prose a line is done with at once. -/
theorem evaluate_line (hr : r.grammar = Dialect.grammar) (hd : d.AtRest) (hp : p.Filled)
    (hs : g.state = form.state .prose) (hg : g.draft = d.holding p) (h : form.TakesLine l)
    (hcode : form = line → form.IsCode l → g.entering = false) :
    ∃ g', r.evaluate (form.writeLine l) g = .ok (g', false) ∧
      g'.InProse form (d.addEntries (p.advance l).1) (p.advance l).2 l.isBreak := by
  have happly := hd.apply_line hp l g.line
  rw [← hg] at happly
  obtain ⟨g', hg', hl⟩ := evaluate hr hs (answer_line h hcode) (by cases l <;> rfl) happly
  cases hbreak : l.isBreak with
  | false =>
      rw [ProseLine.way, hbreak] at hg' hl
      exact ⟨g', hg', .inl hl.state, fun _ => ⟨hl.state, fun _ => hl.entering⟩, hl.draft⟩
  | true =>
      have hnothing : (p.advance l).2 = .nothing := by
        cases l with
        | blank width => rfl
        | text | bullet | definition => cases hbreak
      rw [ProseLine.way, hbreak] at hg' hl
      exact ⟨g', hg', .inr ⟨hl.state, hnothing⟩, fun h => (by cases h), hl.draft⟩

/-- After an empty line, a line that is not code leads back to prose. -/
theorem evaluate_gap_line (hr : r.grammar = Dialect.grammar) (hs : g.state = form.state .gap)
    {line : String} (hanswer : answer (form.state .gap).rules line g.entering =
      some (none, [], .goTo (form.state .prose).name true)) :
    ∃ k, r.evaluate line g = .ok (k, true) ∧
      k.Like { g with state := form.state .prose, entering := true } := by
  rw [← hs] at hanswer
  obtain ⟨k, hk, hl⟩ := evaluate_silent hr hanswer (form.find?_state .prose)
  refine ⟨k, hk, hl.trans ⟨rfl, rfl, rfl, ?_⟩⟩
  rw [hs]
  exact form.crossTo_state _ _ _

/-- Right after an empty line an indented line would be code. -/
theorem mayCode_of_gap (hg : g.InProse form d p mayCode) (hs : g.state = form.state .gap) :
    mayCode = true := by
  cases hm : mayCode with
  | true => rfl
  | false =>
      have hstate := hs.symm.trans (hg.indented hm).1
      have hname := congrArg State.name hstate
      exact absurd hname (by cases form <;> decide)

theorem feed_line (hr : r.grammar = Dialect.grammar) (hd : d.AtRest) (hp : p.Filled)
    (hg : g.InProse form d p mayCode) (hbound : mayCode → 1 ≤ r.maxReplay) (h : form.TakesLine l)
    (hcode : mayCode → ¬ form.IsCode l) :
    ∃ g', r.feed g (form.writeLine l) = .ok g' ∧
      g'.InProse form (d.addEntries (p.advance l).1) (p.advance l).2 l.isBreak := by
  let g₁ : Reading := { g with line := g.line + 1 }
  have hnot : form = line → form.IsCode l → g₁.state = form.state .prose →
      g₁.entering = false := by
    intro hline hl _
    cases hm : mayCode with
    | true => exact absurd hl (hcode hm)
    | false => exact (hg.indented hm).2 hline
  rw [feed, dropLineEnd_writeLine h]
  rcases hg.state with hs | ⟨hs, -⟩
  · obtain ⟨g', hg', hin⟩ := @evaluate_line form l d p r g₁ hr hd hp hs hg.draft h
      fun hline hl => hnot hline hl hs
    exact ⟨g', evaluateAll_of_ends (.done hg') (Nat.zero_le _), hin⟩
  · have hmay := mayCode_of_gap hg hs
    have hcode := hcode hmay
    have hbound := hbound hmay
    obtain ⟨k, hk, hl⟩ := @evaluate_gap_line form r g₁ hr hs _ (answer_gap_of_line h hcode _)
    obtain ⟨g', hg', hin⟩ := @evaluate_line form l d p r k hr hd hp hl.state
      (hl.draft.trans hg.draft) h fun _ hl => absurd hl hcode
    exact ⟨g', evaluateAll_of_ends (.again hk (.done hg')) (by omega), hin⟩

/-- Whatever the lines complete is added, in order. -/
theorem feedAll_lines (hr : r.grammar = Dialect.grammar) {lines : List ProseLine}
    (hlines : ∀ l ∈ lines, form.TakesLine l) (hchain : lines.IsChain form.Follows)
    (hcode : mayCode → ∀ l ∈ lines.head?, ¬ form.IsCode l)
    (hbound : mayCode ∨ (∃ l ∈ lines, l.isBreak) → 1 ≤ r.maxReplay) (hd : d.AtRest)
    (hp : p.Filled) (hg : g.InProse form d p mayCode) :
    ∃ g' es p' mayCode', r.feedAll g (lines.map form.writeLine) = .ok g' ∧
      g'.InProse form (d.addEntries es) p' mayCode' ∧ (mayCode' → 1 ≤ r.maxReplay) ∧
      es ++ p'.settled = p.entriesOver lines := by
  induction lines generalizing g d p mayCode with
  | nil => exact ⟨g, [], p, _, rfl, hg, fun h => hbound (.inl h), (p.entriesOver_nil).symm⟩
  | cons l lines ih =>
      obtain ⟨h, hrest⟩ := List.forall_mem_cons.1 hlines
      obtain ⟨hnext, hchain⟩ := List.isChain_cons.1 hchain
      obtain ⟨g₁, hf, hg₁⟩ := feed_line hr hd hp hg (fun hm => hbound (.inl hm)) h
        fun hm => hcode hm l rfl
      have hbound₁ : l.isBreak ∨ (∃ l' ∈ lines, l'.isBreak) → 1 ≤ r.maxReplay := by
        rintro (hl | ⟨l', hmem, hl⟩)
        · exact hbound (.inr ⟨l, List.mem_cons_self, hl⟩)
        · exact hbound (.inr ⟨l', List.mem_cons_of_mem _ hmem, hl⟩)
      obtain ⟨g', es, p', mayCode', hg', hin, hmay, hes⟩ :=
        ih hrest hchain (fun hl l' hl' => hnext l' hl' hl) hbound₁ (hd.addEntries _)
          (hp.advance h) hg₁
      refine ⟨g', (p.advance l).1 ++ es, p', mayCode', ?_, ?_, hmay, ?_⟩
      · rw [List.map_cons, feedAll_cons, hf]
        exact hg'
      · rw [Draft.addEntries, List.foldl_append]
        exact hin
      · rw [List.append_assoc, hes, Pending.entriesOver_cons]

/-! ## The end of the comment -/

/-- Whether a line closes the comment: it is the end of a block, or no line comment. -/
def Closes (form : CommentForm) (line : String) : Prop :=
  ∃ r ∈ (form.state .prose).rules, r.action = some .closeComment ∧ r.pattern.accepts line

instance (form : CommentForm) : DecidablePred form.Closes :=
  fun _ => inferInstanceAs (Decidable (∃ r ∈ _, _ ∧ _))

theorem blockEnd_not_code {line : String} (h : blockEnd.accepts line) :
    ("    " ++ notAhead blockEnd).read? line = none := by
  rw [read?_eq_none_iff]
  intro hcode
  obtain ⟨w, rest, hw, hline⟩ := accepts_run_append.1 h
  obtain ⟨t, _, hm, rfl, hno⟩ := accepts_iff.1 hcode
  have hdrop : t.rest.dropWhile (· = ' ') = "*/".toList ++ rest := by
    have hall : line.toList.dropWhile (· = ' ') = "*/".toList ++ rest := by
      rw [hline, List.dropWhile_append_of_pos hw]
      rfl
    rw [show line.toList = "    ".toList ++ t.rest from hm.rest] at hall
    exact hall
  refine hno ⟨⟨some '/', rest⟩, ⟨_, "*/".toList ++ rest⟩,
    ⟨t.rest.takeWhile (· = ' '), Nat.zero_le _, ?_, ?_, rfl⟩, rfl, rfl⟩
  · exact List.all_eq_true.1 List.all_takeWhile
  · rw [← hdrop, List.takeWhile_append_dropWhile]

/-- A line that closes the comment does so in prose, and leads back to prose after an
empty line. -/
theorem Closes.answer {c : String} (h : form.Closes c) (entering : Bool) :
    (∃ captures next, DocComment.answer (form.state .prose).rules c entering =
      some (some .closeComment, captures, next)) ∧
    DocComment.answer (form.state .gap).rules c entering =
      some (none, [], .goTo (form.state .prose).name true) := by
  obtain ⟨r, hr, ha, haccepts⟩ := h
  obtain ⟨captures, hread⟩ := Option.isSome_iff_exists.1 haccepts
  cases form with
  | block =>
      obtain rfl : r = mgroup.rules[0] := by
        simp only [state, CommentMode.block, mgroup, List.mem_cons, List.not_mem_nil,
          or_false] at hr
        rcases hr with rfl | rfl | rfl | rfl | rfl | rfl | rfl | rfl | rfl | rfl | rfl
        case inl => rfl
        all_goals cases ha
      refine ⟨⟨captures, _, answer_of_read? rfl hread⟩, ?_⟩
      exact (answer_skip (blockEnd_not_code haccepts) _ _).trans rfl
  | line =>
      have hnot : ¬ lineStart.accepts c ∧
          (r = group.rules[1] ∨ r = group.rules[2]) := by
        simp only [state, CommentMode.line, group, List.mem_cons, List.not_mem_nil,
          or_false] at hr
        rcases hr with rfl | rfl | rfl | rfl | rfl | rfl | rfl | rfl | rfl | rfl | rfl | rfl | rfl
        case inr.inl => exact ⟨not_lineStart_of_visible haccepts, .inl rfl⟩
        case inr.inr.inl => exact ⟨not_lineStart_of_blank haccepts, .inr rfl⟩
        all_goals cases ha
      have hcode : codeStart.read? c = none :=
        read?_append_eq_none (read?_eq_none_iff.2 hnot.1) _
      refine ⟨?_, (answer_skip hcode _ _).trans rfl⟩
      show ∃ captures next, DocComment.answer group.rules c entering = _
      rw [show group.rules = group.rules[0] :: group.rules.tail from rfl, answer_skip hcode]
      rcases hnot.2 with rfl | rfl
      · exact ⟨_, _, answer_of_read? rfl hread⟩
      · cases hends : group.rules[1].pattern.read? c with
        | some captures => exact ⟨_, _, answer_of_read? rfl hends⟩
        | none => exact ⟨_, _, (answer_skip hends _ _).trans (answer_of_read? rfl hread)⟩

/-- At the end of a comment what is held back is added as well. -/
theorem evaluateAll_close (hr : r.grammar = Dialect.grammar) (hd : d.AtRest)
    (hg : g.InProse form d p mayCode) {c : String} (hc : form.Closes c) {left : Nat}
    (hleft : mayCode → 1 ≤ left) :
    ∃ k left' m, r.evaluateAll c left g = r.evaluateAll c left' k ∧
      k.state.matchLine c k.entering = some m ∧ m.rule.action = some .closeComment ∧
      act k m = .ok { draft := d.addEntries p.settled } := by
  have hclose {k : Reading} (hs : k.state = form.state .prose) (hk : k.draft = d.holding p) :
      ∃ m, k.state.matchLine c k.entering = some m ∧ m.rule.action = some .closeComment ∧
        act k m = .ok { draft := d.addEntries p.settled } := by
    obtain ⟨captures, next, hanswer⟩ := (hc.answer k.entering).1
    rw [← hs] at hanswer
    obtain ⟨m, hm, ha, -, -⟩ := State.matchLine_of_answer hanswer
    refine ⟨m, hm, ha, ?_⟩
    have hflush := hd.flush p
    rw [act, ha, hk]
    show Except.ok (⟨{ (d.holding p).flush with nextStyle := none }, none, []⟩ : Effect) = _
    rw [hflush, ← (hd.addEntries p.settled).style]
  rcases hg.state with hs | ⟨hs, -⟩
  · obtain ⟨m, hm⟩ := hclose hs hg.draft
    exact ⟨g, left, m, rfl, hm⟩
  · obtain ⟨k, hk, hl⟩ := evaluate_gap_line hr hs (hc.answer g.entering).2
    obtain ⟨m, hm⟩ := hclose hl.state (hl.draft.trans hg.draft)
    obtain ⟨left, rfl⟩ := Nat.exists_eq_add_of_le' (hleft (mayCode_of_gap hg hs))
    refine ⟨k, left, m, ?_, hm⟩
    rw [evaluateAll, hk]

end CommentForm

/-! ## The whole comment -/

/-- The lines of a comment up to its end, where source takes the first of them for the
start of a comment in the form. -/
inductive Reading.Opens (g : Reading) : CommentForm → List ProseLine → List String → Prop where
  | block {start : String} {lines : List ProseLine} {m : LineMatch}
      (hm : g.state.matchLine (dropLineEnd start) g.entering = some m)
      (ha : m.rule.action = some .startComment) (hn : m.rule.next = .goTo "mgroup" false) :
      Opens g .block lines (start :: lines.map CommentForm.block.writeLine)
  | line {l : ProseLine} {lines : List ProseLine} {m : LineMatch}
      (hm : g.state.matchLine (CommentForm.line.writeLine l) g.entering = some m)
      (ha : m.rule.action = some .startComment) (hn : m.rule.next = .goTo "group" true) :
      Opens g .line (l :: lines) ((l :: lines).map CommentForm.line.writeLine)

namespace CommentForm

variable {form : CommentForm} {r : Reader} {g : Reading}

/-- An empty line starts no line comment in source, so a comment does not start with
code. -/
theorem not_code_of_opens {l : ProseLine} {entering : Bool} {m : LineMatch}
    (hm : lua.matchLine (line.writeLine l) entering = some m)
    (ha : m.rule.action = some .startComment) (hn : m.rule.next = .goTo "group" true) :
    ¬ line.IsCode l := by
  intro hcode
  cases l with
  | text | bullet | definition => exact hcode
  | blank width =>
      have hread :
          (lineStart ++ spaces ++ visible).read? (line.writeLine (.blank width)) = none := by
        refine read?_eq_none ?_
        show (line.leads visible).follow done _ [] = none
        rw [follow_blank (.of_none fun _ _ _ => rfl)]
        rfl
      have hmem := State.matchLine_mem hm
      have haccepts := State.matchLine_accepts hm
      generalize m.rule = rule at hmem haccepts ha hn
      simp only [lua, List.mem_cons, List.not_mem_nil, or_false] at hmem
      rcases hmem with rfl | rfl | rfl | rfl | rfl | rfl | rfl | rfl | rfl | rfl | rfl | rfl
      case inr.inr.inr.inr.inr.inr.inr.inr.inl => exact read?_eq_none_iff.1 hread haccepts
      all_goals exact absurd hn (by decide)

/-- The lines of a comment are read up to its end. -/
theorem feedAll_opening (hr : r.grammar = Dialect.grammar) (hs : g.state = lua)
    (hd : g.draft.freshGroup.finishCapture.AtRest) {body : List ProseLine}
    (hbound : form.Replays body → 1 ≤ r.maxReplay) (hbody : ∀ l ∈ body, form.TakesLine l)
    (hchain : body.IsChain form.Follows) {lines : List String}
    (hlines : g.Opens form body lines) :
    ∃ g' es p mayCode, r.feedAll g lines = .ok g' ∧
      g'.InProse form (g.draft.freshGroup.finishCapture.addEntries es) p mayCode ∧
      (mayCode → 1 ≤ r.maxReplay) ∧ es ++ p.settled = ProseLine.entriesOf body := by
  have hnothing := hd.holding_nothing.symm
  have hstart {line target : String} {m : LineMatch} {again : Bool} {s : State}
      (hm : g.state.matchLine line g.entering = some m)
      (ha : m.rule.action = some .startComment) (hn : m.rule.next = .goTo target again)
      (hf : grammar.find? target = some s) (henter : s.enter = none) :
      ∃ k, r.evaluate line { g with line := g.line + 1 } = .ok (k, again) ∧ k.state = s ∧
        k.draft = g.draft.freshGroup.finishCapture := by
    have hact : act { g with line := g.line + 1 } m = .ok { draft := g.draft.freshGroup } := by
      rw [act, ha]
      rfl
    obtain ⟨k, hk, hks, hkd⟩ :=
      @evaluate_goTo r { g with line := g.line + 1 } _ _ _ _ _ _ hr hm hact hn hf
    refine ⟨k, hk, hks, hkd.trans ?_⟩
    show hooked s.enter (hooked g.state.exit _) = _
    rw [henter, hs]
    rfl
  cases hlines with
  | @block start lines m hm ha hn =>
      obtain ⟨k, hk, hks, hkd⟩ := hstart hm ha hn (s := mgroup) rfl rfl
      have hfeed : r.feed g start = .ok k := evaluateAll_of_ends (.done hk) (Nat.zero_le _)
      have hin : k.InProse block g.draft.freshGroup.finishCapture .nothing false :=
        ⟨.inl hks, fun _ => ⟨hks, fun h => (by cases h)⟩, hkd.trans hnothing⟩
      have hbreak : false ∨ (∃ l ∈ body, l.isBreak) → 1 ≤ r.maxReplay := fun h =>
        hbound (.inr (h.resolve_left Bool.false_ne_true))
      obtain ⟨g', es, p, mayCode, hg', hin', hmay, hes⟩ := feedAll_lines hr hbody hchain
        (fun h => absurd h Bool.false_ne_true) hbreak hd Pending.filled_nothing hin
      refine ⟨g', es, p, mayCode, ?_, hin', hmay, hes.trans (Pending.entriesOver_nothing _)⟩
      rw [feedAll_cons, hfeed]
      exact hg'
  | @line l lines m hm ha hn =>
      obtain ⟨h, hrest⟩ := List.forall_mem_cons.1 hbody
      obtain ⟨hnext, hchain⟩ := List.isChain_cons.1 hchain
      replace hbound := hbound (.inl rfl)
      have hcode : ¬ line.IsCode l := not_code_of_opens (hs ▸ hm) ha hn
      obtain ⟨k, hk, hks, hkd⟩ := hstart hm ha hn (s := group) rfl rfl
      obtain ⟨k', hk', hin⟩ := @evaluate_line line l _ .nothing r k hr hd Pending.filled_nothing hks
        (hkd.trans hnothing) h fun _ hl => absurd hl hcode
      have hfeed : r.feed g (line.writeLine l) = .ok k' := by
        rw [feed, dropLineEnd_writeLine h]
        exact evaluateAll_of_ends (.again hk (.done hk')) (by omega)
      obtain ⟨g', es, p, mayCode, hg', hin', hmay, hes⟩ :=
        feedAll_lines hr hrest hchain (fun hl l' hl' => hnext l' hl' hl) (fun _ => hbound)
          (hd.addEntries _) (Pending.filled_nothing.advance h) hin
      refine ⟨g', (Pending.nothing.advance l).1 ++ es, p, mayCode, ?_, ?_, hmay, ?_⟩
      · rw [List.map_cons, feedAll_cons, hfeed]
        exact hg'
      · rw [Draft.addEntries, List.foldl_append]
        exact hin'
      · rw [List.append_assoc, hes, ← Pending.entriesOver_cons, Pending.entriesOver_nothing]

end CommentForm

/-- Any lines make a block comment in source. -/
theorem Reading.opens_block {g : Reading} (hs : g.state = lua) (body : List ProseLine) :
    g.Opens .block body ("/*" :: body.map CommentForm.block.writeLine) := by
  have hstart : answer g.state.rules (dropLineEnd "/*") g.entering =
      some (some .startComment, [], .goTo "mgroup" false) := by
    rw [hs]
    rfl
  obtain ⟨m, hm, ha, -, hn⟩ := State.matchLine_of_answer hstart
  exact .block hm ha hn

/-- The group of a comment in source is a new one, whatever was captured before. -/
theorem Reading.Consistent.opening {g : Reading} (hg : g.Consistent) (hs : g.state.name = "lua")
    {language : String} (hd : g.draft.Equipped language) :
    let d := g.draft.freshGroup.finishCapture
    d.AtRest ∧ d.doc.store.Holds d.group ∧ d.group = g.draft.doc.store.nextId ∧
      d.currentGroup.entries = [] := by
  intro d
  have hgroup : d.group = g.draft.doc.store.nextId := Draft.finishCapture_group _
  have hpending : g.draft.pending = none := by
    cases hp : g.draft.pending with
    | none => rfl
    | some e => exact absurd (hs ▸ hg.pending (by rw [hp]; rfl)) (by decide)
  have hstyle : g.draft.nextStyle = none := by
    cases hp : g.draft.nextStyle with
    | none => rfl
    | some e => exact absurd (hs ▸ hg.style (by rw [hp]; rfl)) (by decide)
  have hequipped := (hd.write (.freshGroup _)).writes (Draft.writes_finishCapture _)
  refine ⟨⟨(Draft.finishCapture_pending _).trans hpending,
    (Draft.frame_finishCapture g.draft.freshGroup).style_eq_none hstyle⟩, hequipped.held,
    hgroup, ?_⟩
  rw [Draft.currentGroup, hgroup, Draft.finishCapture_get]
  · exact congrArg Group.entries (GroupStore.get_insert_nextId _ _)
  · intro s hscratch heq
    refine GroupStore.not_holds_nextId g.draft.doc.store ?_
    rw [heq, hg.capturing s hscratch]
    exact hd.held

/-- Wherever a reader of the dialect has come to in source: a comment of lines of prose,
in either form, is read in a group of its own, and when its end has been acted on, that
group holds the entries that the lines say, in order. Nothing else is added to the
document, unless source was captured before the comment. -/
theorem paragraphs_kept {r : Reader} (hr : r.grammar = Dialect.grammar) {doc : Document}
    (hdoc : doc.sections = []) {file : Option String} {language : String}
    {options : List String} {g₀ g : Reading}
    (h₀ : r.start Dialect.initial (Draft.start doc file language options) = .ok g₀)
    (h : r.Reaches g₀ g) (hs : g.state.name = "lua") {form : CommentForm} {body : List ProseLine}
    (hbound : form.Replays body → 1 ≤ r.maxReplay) (hbody : ∀ l ∈ body, form.TakesLine l)
    (hchain : body.IsChain form.Follows) {lines : List String} (hlines : g.Opens form body lines)
    {close : String} (hclose : form.Closes (dropLineEnd close)) :
    let d := g.draft.freshGroup.finishCapture.addEntries (ProseLine.entriesOf body)
    ∃ k left m, r.feedAll g (lines ++ [close]) = r.evaluateAll (dropLineEnd close) left k ∧
      k.state.matchLine (dropLineEnd close) k.entering = some m ∧
      m.rule.action = some .closeComment ∧ act k m = .ok { draft := d } ∧
      d.group = g.draft.doc.store.nextId ∧
      d.currentGroup.entries = ProseLine.entriesOf body := by
  intro d
  have hg : g.Coherent := h.coherent hr (coherent_of_start hr hdoc h₀)
  have hlua : g.state = lua := hg.in_source hs
  obtain ⟨hrest, hheld, hgroup, hnone⟩ := hg.consistent.opening hs (h.equipped hr hdoc h₀)
  obtain ⟨g', es, p, mayCode, hg', hin, hmay, hes⟩ :=
    CommentForm.feedAll_opening hr hlua hrest hbound hbody hchain hlines
  have hin' : Reading.InProse form _ p mayCode { g' with line := g'.line + 1 } :=
    ⟨hin.state, hin.indented, hin.draft⟩
  have hleft : mayCode → 1 ≤ r.maxReplay.toNat := fun h => by
    have hbound := hmay h
    omega
  obtain ⟨k, left, m, hk, hm, ha, hact⟩ :=
    CommentForm.evaluateAll_close hr (hrest.addEntries es) hin' hclose hleft
  obtain ⟨hsame, hentries⟩ := Draft.entries_addEntries hheld (ProseLine.entriesOf body)
  refine ⟨k, left, m, ?_, hm, ha, ?_, hsame.trans hgroup, ?_⟩
  · rw [feedAll_append, hg']
    show r.feedAll g' [close] = _
    rw [feedAll_cons, feed, hk]
    exact bind_pure _
  · rw [hact, Draft.addEntries, Draft.addEntries, ← List.foldl_append, hes]
    rfl
  · rw [hentries, hnone, List.nil_append]

/-- A paragraph and two lists in a block comment. The empty line between the lists is a
wide one. -/
theorem paragraphs_kept_lists :
    ∃ g₀ g, ({} : Reader).start Dialect.initial
        (Draft.start (Document.new "d" none none) none "js" []) = .ok g₀ ∧
      ({} : Reader).feedAll g₀ ["// # T", ""] = .ok g ∧ g.state.name = "lua" ∧
      (∀ l ∈ [.text "One,", .text "two.", .bullet "a", .text "b", .definition "k" "v", .blank 5,
        .bullet "c"], CommentForm.block.TakesLine l) ∧
      List.IsChain CommentForm.block.Follows [.text "One,", .text "two.", .bullet "a", .text "b",
        .definition "k" "v", .blank 5, .bullet "c"] ∧
      g.Opens .block [.text "One,", .text "two.", .bullet "a", .text "b", .definition "k" "v",
        .blank 5, .bullet "c"] ["/*", "One,", "two.", "* a", "b", "+ k: v", "     ", "* c"] ∧
      CommentForm.block.Closes (dropLineEnd " */") ∧
      ∃ k left m d, ({} : Reader).feedAll g
          ["/*", "One,", "two.", "* a", "b", "+ k: v", "     ", "* c", " */"] =
            ({} : Reader).evaluateAll " */" left k ∧
        k.state.matchLine " */" k.entering = some m ∧ m.rule.action = some .closeComment ∧
        act k m = .ok { draft := d } ∧
        d.currentGroup.entries = [.paragraph { text := some "One, two." },
          .list { items := [{ text := "a b" }, { text := "v", key := some "k" }] },
          .list { items := [{ text := "c" }] }] := by
  have hbody : ∀ l ∈ [.text "One,", .text "two.", .bullet "a", .text "b", .definition "k" "v",
      .blank 5, .bullet "c"], CommentForm.block.TakesLine l := by decide +kernel
  have hchain : List.IsChain CommentForm.block.Follows [.text "One,", .text "two.", .bullet "a",
      .text "b", .definition "k" "v", .blank 5, .bullet "c"] := by decide
  have hclose : CommentForm.block.Closes (dropLineEnd " */") := by decide +kernel
  have hentries : ProseLine.entriesOf [.text "One,", .text "two.", .bullet "a", .text "b",
      .definition "k" "v", .blank 5, .bullet "c"] =
      [.paragraph { text := some "One, two." },
        .list { items := [{ text := "a b" }, { text := "v", key := some "k" }] },
        .list { items := [{ text := "c" }] }] := by decide +kernel
  let run : Except Fault (Reading × Reading) := do
    let g₀ ← ({} : Reader).start Dialect.initial
      (Draft.start (Document.new "d" none none) none "js" [])
    let g ← ({} : Reader).feedAll g₀ ["// # T", ""]
    return (g₀, g)
  have hname : run.toOption.map (·.2.state.name) = some "lua" := by decide +kernel
  cases hrun : run with
  | error f =>
      rw [hrun] at hname
      cases hname
  | ok x =>
      rw [hrun] at hname
      obtain ⟨g₀, h₀, hrun⟩ := ok_of_bind hrun
      obtain ⟨g, hg, hrun⟩ := ok_of_bind hrun
      cases hrun
      have hs : g.state.name = "lua" := Option.some.inj hname
      have hlua : g.state = lua :=
        ((Reaches.of_feedAll hg).coherent rfl (coherent_of_start rfl rfl h₀)).in_source hs
      have hlines : g.Opens .block [.text "One,", .text "two.", .bullet "a", .text "b",
          .definition "k" "v", .blank 5, .bullet "c"]
          ["/*", "One,", "two.", "* a", "b", "+ k: v", "     ", "* c"] := Reading.opens_block hlua _
      obtain ⟨k, left, m, hk, hm, ha, hact, -, hgroup⟩ := paragraphs_kept rfl rfl h₀
        (.of_feedAll hg) hs (fun _ => by decide) hbody hchain hlines hclose
      exact ⟨g₀, g, h₀, hg, hs, hbody, hchain, hlines, hclose, k, left, m, _, hk, hm, ha, hact,
        hgroup.trans hentries⟩

/-- Right after an empty line, a wide one is a line of code. -/
theorem wide_line_as_code :
    ∃ g₀ g k m d, ({} : Reader).start Dialect.initial
        (Draft.start (Document.new "d" none none) none "js" []) = .ok g₀ ∧
      ({} : Reader).feedAll g₀ ["// # T", ""] = .ok g ∧ g.state.name = "lua" ∧
      (∀ l ∈ [.text "foo", .blank 0, .blank 6, .text "bar"], CommentForm.block.TakesLine l) ∧
      g.Opens .block [.text "foo", .blank 0, .blank 6, .text "bar"]
        ["/*", "foo", "", "      ", "bar"] ∧
      ({} : Reader).feedAll g ["/*", "foo", "", "      ", "bar"] = .ok k ∧
      k.state.matchLine "*/" k.entering = some m ∧ m.rule.action = some .closeComment ∧
      act k m = .ok { draft := d } ∧
      d.currentGroup.entries = [.paragraph { text := some "foo" },
        .code { lang := "js", text := some "  " }, .paragraph { text := some "bar" }] ∧
      d.currentGroup.entries ≠
        ProseLine.entriesOf [.text "foo", .blank 0, .blank 6, .text "bar"] := by
  let run : Except Fault (Reading × Reading × Reading) := do
    let g₀ ← ({} : Reader).start Dialect.initial
      (Draft.start (Document.new "d" none none) none "js" [])
    let g ← ({} : Reader).feedAll g₀ ["// # T", ""]
    let k ← ({} : Reader).feedAll g ["/*", "foo", "", "      ", "bar"]
    return (g₀, g, k)
  have hfacts : run.toOption.map (fun x => (x.2.1.state.name,
      (x.2.2.state.matchLine "*/" x.2.2.entering).map (·.rule.action),
      x.2.2.draft.closeComment.currentGroup.entries)) =
        some ("lua", some (some .closeComment), [.paragraph { text := some "foo" },
          .code { lang := "js", text := some "  " }, .paragraph { text := some "bar" }]) := by
    decide +kernel
  have hbody : ∀ l ∈ [.text "foo", .blank 0, .blank 6, .text "bar"],
      CommentForm.block.TakesLine l := by decide +kernel
  cases hrun : run with
  | error f =>
      rw [hrun] at hfacts
      cases hfacts
  | ok x =>
      rw [hrun] at hfacts
      obtain ⟨g₀, h₀, hrun⟩ := ok_of_bind hrun
      obtain ⟨g, hg, hrun⟩ := ok_of_bind hrun
      obtain ⟨k, hk, hrun⟩ := ok_of_bind hrun
      cases hrun
      obtain ⟨hs, hfacts⟩ := Prod.mk.inj (Option.some.inj hfacts)
      obtain ⟨hm, hentries⟩ := Prod.mk.inj hfacts
      obtain ⟨m, hm, ha⟩ := Option.map_eq_some_iff.1 hm
      have hlua : g.state = lua :=
        ((Reaches.of_feedAll hg).coherent rfl (coherent_of_start rfl rfl h₀)).in_source hs
      refine ⟨g₀, g, k, m, k.draft.closeComment, h₀, hg, hs, hbody, Reading.opens_block hlua _, hk,
        hm, ha, ?_, hentries, ?_⟩
      · rw [act, ha]
        rfl
      · rw [hentries]
        decide +kernel

end DocComment
