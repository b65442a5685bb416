import DocComment.Dialect.Grammar
import DocComment.Proofs.PatternReads
import DocComment.Source.File

/-!
# Lines and the patterns of the dialect

What the lines of a source look like, and which of the dialect's patterns exclude or
include one another on them. A line has no line feed but at its end, where it is dropped,
so the rest of a line can always be read to its end. That is what makes the last rules of
the states catch all that is left to them.

Two patterns that start with a run of different things are told apart by the first
character after the run (`append_cons_inj`).
-/

namespace DocComment

open Text

namespace Text

/-! ## Lines -/

theorem dropEndWhile_prefix_self {p : Char → Bool} (cs : List Char) : dropEndWhile p cs <+: cs := by
  induction cs with
  | nil => exact List.nil_prefix
  | cons d ds ih =>
      unfold dropEndWhile
      split
      · split
        · exact List.nil_prefix
        · exact List.cons_prefix_cons.2 ⟨rfl, List.nil_prefix⟩
      · next e es he =>
          rw [he] at ih
          exact List.cons_prefix_cons.2 ⟨rfl, ih⟩

theorem trim_subset (s : String) : (trim s).toList ⊆ s.toList := by
  rw [trim, toList_onChars, trimChars]
  exact List.Subset.trans (dropEndWhile_prefix_self _).subset (List.dropWhile_suffix _).subset

theorem dropEndWhile_append_cons {p : Char → Bool} {c : Char} (hc : p c = false)
    (cs ds : List Char) : dropEndWhile p (cs ++ c :: ds) = cs ++ c :: dropEndWhile p ds := by
  induction cs with
  | nil =>
      rw [List.nil_append, List.nil_append, dropEndWhile]
      cases dropEndWhile p ds with
      | nil => simp [hc]
      | cons e es => rfl
  | cons b cs ih =>
      rw [List.cons_append, dropEndWhile, ih]
      cases cs <;> rfl

/-- No line feed stands in a line, apart from those at its end. -/
def IsLine (line : String) : Prop :=
  '\n' ∉ (dropLineEnd line).toList

instance : DecidablePred IsLine :=
  fun line => inferInstanceAs (Decidable ('\n' ∉ (dropLineEnd line).toList))

theorem isLine_of_not_mem {line : String} (h : '\n' ∉ line.toList) : IsLine line := by
  intro hn
  rw [dropLineEnd, toList_onChars] at hn
  exact h ((dropEndWhile_prefix_self _).subset hn)

theorem dropLineEnd_prefix_self (line : String) : (dropLineEnd line).toList <+: line.toList := by
  rw [dropLineEnd, toList_onChars]
  exact dropEndWhile_prefix_self _

/-- What stands before something that is no line break is kept. -/
theorem dropLineEnd_append {margin : String}
    (h : ∃ cs c, margin.toList = cs ++ [c] ∧ isNewline c = false) (line : String) :
    dropLineEnd (margin ++ line) = margin ++ dropLineEnd line := by
  obtain ⟨cs, c, hmargin, hc⟩ := h
  refine String.toList_inj.1 ?_
  rw [dropLineEnd, toList_onChars, String.toList_append, String.toList_append, dropLineEnd,
    toList_onChars, hmargin, List.append_assoc, List.append_assoc]
  exact dropEndWhile_append_cons hc cs line.toList

/-- No line holds a character that lines are broken at. -/
theorem not_isBreak_of_mem_breakLines {isBreak : Char → Bool} {cs : List Char} :
    ∀ line ∈ breakLines isBreak cs, ∀ c ∈ line, isBreak c = false := by
  fun_induction breakLines isBreak cs with
  | case1 => simp
  | case2 cs ih => simpa using ih
  | case3 c cs _ hc ih => simpa using ih
  | case4 c cs _ hc hn ih =>
      intro line hline d hd
      rw [List.mem_singleton] at hline
      subst hline
      rw [List.mem_singleton] at hd
      subst hd
      simpa using hc
  | case5 c cs _ hc l ls hls ih =>
      rw [hls] at ih
      intro line hline d hd
      rcases List.mem_cons.1 hline with rfl | hline
      · rcases List.mem_cons.1 hd with rfl | hd
        · simpa using hc
        · exact ih l List.mem_cons_self d hd
      · exact ih line (List.mem_cons_of_mem _ hline) d hd

theorem isLine_of_mem_breakLines {isBreak : Char → Bool} (hb : isBreak '\n') {cs : List Char}
    {line : String} (h : line ∈ (breakLines isBreak cs).map String.ofList) : IsLine line := by
  obtain ⟨l, hl, rfl⟩ := List.mem_map.1 h
  refine isLine_of_not_mem fun hn => ?_
  rw [String.toList_ofList] at hn
  have := not_isBreak_of_mem_breakLines l hl '\n' hn
  rw [hb] at this
  cases this

theorem isLine_of_mem_lines {text line : String} (h : line ∈ lines text) : IsLine line :=
  isLine_of_mem_breakLines rfl h

theorem isLine_of_mem_readFile {e : Source.Encoding} {bytes : List UInt8} {line : String}
    (h : line ∈ (Source.readFile e bytes).lines) : IsLine line := by
  rw [Source.readFile] at h
  generalize e.decode bytes = decoded at h
  obtain ⟨cs, ending⟩ := decoded
  cases ending <;> exact @isLine_of_mem_breakLines isNewline rfl _ _ h

end Text

/-! ## Reading along a line -/

/-- If two lists start with runs of which all members pass a test, and go on with
something that does not, then the runs are the same. -/
theorem append_cons_inj {p : Char → Bool} {v w s t : List Char} {c d : Char}
    (h : v ++ c :: s = w ++ d :: t) (hv : ∀ x ∈ v, p x) (hw : ∀ x ∈ w, p x) (hc : p c = false)
    (hd : p d = false) : v = w ∧ c = d ∧ s = t := by
  induction v generalizing w with
  | nil =>
      cases w with
      | nil => simpa using h
      | cons x w =>
          obtain ⟨rfl, -⟩ : c = x ∧ s = w ++ d :: t := by simpa using h
          rw [hw c List.mem_cons_self] at hc
          cases hc
  | cons x v ih =>
      cases w with
      | nil =>
          obtain ⟨rfl, -⟩ : x = d ∧ v ++ c :: s = t := by simpa using h
          rw [hv x List.mem_cons_self] at hd
          cases hd
      | cons y w =>
          obtain ⟨rfl, ht⟩ : x = y ∧ v ++ c :: s = w ++ d :: t := by simpa using h
          obtain ⟨rfl, hcd⟩ := ih ht (fun z hz => hv z (List.mem_cons_of_mem _ hz))
            (fun z hz => hw z (List.mem_cons_of_mem _ hz))
          exact ⟨rfl, hcd⟩

namespace Pattern

theorem accepts_of_append {p q : Pattern} {line : String} (h : (p ++ q).accepts line) :
    p.accepts line := by
  obtain ⟨t, m, hp, -⟩ := accepts_iff.1 h
  exact accepts_iff.2 ⟨m, hp⟩

/-- A pattern that is read only where a text stands somewhere in the rest of the line. -/
def Needs (p : Pattern) (text : String) : Prop :=
  ∀ s t, p.Reads s t → text.toList <:+: s.rest

theorem needs_lit (text : String) : (lit text).Needs text := by
  intro s t h
  rw [show s.rest = text.toList ++ t.rest from h.rest]
  exact List.infix_append_left

theorem Needs.append_right {p : Pattern} {text : String} (hp : p.Needs text) (q : Pattern) :
    (p ++ q).Needs text := by
  intro s t ⟨m, hm, _⟩
  exact hp s m hm

theorem Needs.append_left {q : Pattern} {text : String} (hq : q.Needs text) (p : Pattern) :
    (p ++ q).Needs text := by
  intro s t ⟨m, hm, ht⟩
  obtain ⟨w, hw⟩ := hm.exists_passes
  rw [hw.rest]
  exact (hq m t ht).trans List.infix_append_right

theorem Needs.read? {p : Pattern} {text line : String} (hp : p.Needs text)
    (h : ¬ text.toList <:+: line.toList) : p.read? line = none := by
  rw [read?_eq_none_iff]
  intro ha
  obtain ⟨t, ht⟩ := accepts_iff.1 ha
  exact h (hp _ _ ht)

/-- The rest of a line can always be read to its end. -/
theorem accepts_append_anything {p : Pattern} {line : String} (hn : '\n' ∉ line.toList)
    (h : p.accepts line) (i : Nat) : (p ++ capture i anything ++ stop).accepts line := by
  obtain ⟨t, ht⟩ := accepts_iff.1 h
  obtain ⟨w, hw⟩ := ht.exists_passes
  refine accepts_iff.2 ⟨⟨t.rest.getLast?.or t.before, []⟩, _,
    ⟨t, ht, t.rest, Nat.zero_le _, ?_, ?_⟩, rfl, rfl⟩
  · intro c hc
    have hr : line.toList = w ++ t.rest := hw.rest
    have hne : c ≠ '\n' := by
      rintro rfl
      exact hn (hr ▸ List.mem_append_right w hc)
    simpa [isInline] using hne
  · exact ⟨(List.append_nil _).symm, rfl⟩

/-- A run and then a fixed text, in terms of the parts of the line. -/
theorem accepts_run_append {p : Char → Bool} {text line : String} :
    (run p 0 ++ lit text).accepts line ↔
      ∃ w rest, (∀ c ∈ w, p c) ∧ line.toList = w ++ (text.toList ++ rest) := by
  constructor
  · intro h
    obtain ⟨t, m, ⟨w, -, hw, hm⟩, ht⟩ := accepts_iff.1 h
    refine ⟨w, t.rest, hw, ?_⟩
    rw [← ht.rest]
    exact hm.rest
  · rintro ⟨w, rest, hw, hline⟩
    let m : Spot := ⟨w.getLast?.or none, text.toList ++ rest⟩
    refine accepts_iff.2 ⟨⟨text.toList.getLast?.or m.before, rest⟩, m, ?_, ⟨rfl, rfl⟩⟩
    exact ⟨w, Nat.zero_le _, hw, ⟨hline, rfl⟩⟩

end Pattern

namespace Dialect

open Pattern

theorem lineStart_accepts_iff {line : String} :
    lineStart.accepts line ↔
      ∃ w rest, (∀ c ∈ w, isIndent c) ∧ line.toList = w ++ '/' :: '/' :: rest :=
  accepts_run_append

theorem not_lineStart_of_visible {line : String}
    (h : (indent ++ notAhead "//" ++ visible).accepts line) : ¬ lineStart.accepts line := by
  intro hs
  obtain ⟨v, rest, hv, hline⟩ := lineStart_accepts_iff.1 hs
  obtain ⟨t, m, ⟨m', ⟨w, -, hw, hm'⟩, rfl, hno⟩, c, hc, ht⟩ := accepts_iff.1 h
  have hc' : isIndent c = false := by
    cases hi : isIndent c with
    | false => rfl
    | true =>
        rw [isIndent, Bool.or_eq_true, decide_eq_true_eq, decide_eq_true_eq] at hi
        rcases hi with rfl | rfl <;> cases hc
  have hw' : line.toList = w ++ c :: t.rest := by
    rw [show line.toList = w ++ m.rest from hm'.rest, ht.rest]
    rfl
  rw [hline] at hw'
  obtain ⟨rfl, rfl, hrest⟩ := append_cons_inj hw' hv hw (by decide) hc'
  refine hno ⟨⟨some '/', rest⟩, ?_, rfl⟩
  rw [ht.rest, ← hrest]
  rfl

/-- Whether a line ends a run of line comments: it is neither blank nor a line comment. -/
def endsComment (line : String) : Bool :=
  match line.toList.dropWhile isIndent with
  | [] => false
  | c :: cs => isVisible c && !"//".toList.isPrefixOf (c :: cs)

theorem visible_of_endsComment {line : String} (h : endsComment line) :
    (indent ++ notAhead "//" ++ visible).accepts (dropLineEnd line) := by
  rw [endsComment] at h
  split at h
  · cases h
  · next c cs hline =>
      rw [Bool.and_eq_true, Bool.not_eq_true'] at h
      obtain ⟨hc, hno⟩ := h
      have hc' : isNewline c = false := by
        cases hn : isNewline c with
        | false => rfl
        | true =>
            rw [isNewline, Bool.or_eq_true, decide_eq_true_eq, decide_eq_true_eq] at hn
            rcases hn with rfl | rfl <;> cases hc
      have hrest : (dropLineEnd line).toList =
          line.toList.takeWhile isIndent ++ c :: dropEndWhile isNewline cs := by
        rw [dropLineEnd, toList_onChars, ← dropEndWhile_append_cons hc', ← hline,
          List.takeWhile_append_dropWhile]
      refine accepts_iff.2 ⟨⟨some c, dropEndWhile isNewline cs⟩,
        ⟨_, c :: dropEndWhile isNewline cs⟩,
        ⟨_, ⟨line.toList.takeWhile isIndent, Nat.zero_le _, ?_, hrest, rfl⟩, rfl, ?_⟩, c, hc, rfl,
        rfl⟩
      · intro x hx
        exact List.all_eq_true.1 List.all_takeWhile x hx
      · rintro ⟨t, ht⟩
        have hpre : "//".toList <+: c :: dropEndWhile isNewline cs := by
          rw [show c :: dropEndWhile isNewline cs = "//".toList ++ t.rest from ht.rest]
          exact List.prefix_append _ _
        have hline : "//".toList <+: c :: cs :=
          hpre.trans (List.cons_prefix_cons.2 ⟨rfl, dropEndWhile_prefix_self cs⟩)
        rw [← List.isPrefixOf_iff_prefix, hno] at hline
        cases hline

theorem not_lineStart_of_blank {line : String} (h : (run isBlank 0 ++ stop).accepts line) :
    ¬ lineStart.accepts line := by
  intro hs
  obtain ⟨v, rest, -, hline⟩ := lineStart_accepts_iff.1 hs
  obtain ⟨t, m, ⟨w, -, hw, hm⟩, rfl, hstop⟩ := accepts_iff.1 h
  have hmem : '/' ∈ w ++ t.rest := by
    rw [show w ++ t.rest = line.toList from hm.rest.symm, hline]
    simp
  rcases List.mem_append.1 hmem with hmem | hmem
  · exact absurd (hw _ hmem) (by decide)
  · rw [atStop, Bool.or_eq_true, decide_eq_true_eq, decide_eq_true_eq] at hstop
    rcases hstop with hr | hr <;> rw [hr] at hmem <;> simp at hmem

/-- A formula does not start where a block comment ends. -/
theorem not_blockEnd_of_formula {line : String} (h : (spaces ++ "[math]").accepts line) :
    ¬ blockEnd.accepts line := by
  intro hs
  obtain ⟨v, s, hv, hline⟩ := accepts_run_append.1 h
  obtain ⟨w, t, hw, hline'⟩ := accepts_run_append.1 hs
  rw [hline] at hline'
  have hcons : v ++ '[' :: ("math]".toList ++ s) = w ++ '*' :: ('/' :: t) := hline'
  obtain ⟨-, hc, -⟩ := append_cons_inj hcons hv hw (by decide) (by decide)
  exact absurd hc (by decide)

end Dialect

end DocComment
