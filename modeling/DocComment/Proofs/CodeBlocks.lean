import DocComment.Proofs.CommentEquivalence
import DocComment.Proofs.Consistency
import DocComment.Proofs.Writes

/-!
# Code blocks are verbatim

Code in a comment is read in three states: after the empty line before it, at its first
line and from there on. `CodeBlock.ofLines` says what block a list of lines is to become,
with no state and no line read one by one, and `code_kept` that the reader makes just that
block of them, in both forms of a comment, if it allows the one replay that the first line
takes.

The induction is over the lines. `Reading.InCode` is what holds between two of them: the
draft is the one from before the block with a pending block on top, so whatever a line
says, nothing else of the draft can change. The block itself is a left fold of the lines
(`CodeBlock.addLine`), and that fold is the one that joins them (`foldl_addLine`).
-/

namespace DocComment

open Text Pattern Dialect Relation Reader

/-! ## What becomes of lines of code -/

namespace Text

theorem dropEndWhile_eq_self {p : Char → Bool} {cs : List Char}
    (h : ∀ c, cs.getLast? = some c → p c = false) : dropEndWhile p cs = cs := by
  rcases List.eq_nil_or_concat cs with rfl | ⟨ds, c, rfl⟩
  · rfl
  · rw [List.concat_eq_append] at h ⊢
    exact dropEndWhile_append_cons (h c List.getLast?_concat) ds []

theorem dropLineEnd_of_not_mem {line : String} (hn : '\n' ∉ line.toList)
    (hr : '\r' ∉ line.toList) : dropLineEnd line = line := by
  refine String.toList_inj.1 ?_
  rw [dropLineEnd, toList_onChars]
  refine dropEndWhile_eq_self fun c hc => ?_
  have hmem := List.mem_of_getLast? hc
  rw [isNewline, Bool.or_eq_false_iff, decide_eq_false_iff_not, decide_eq_false_iff_not]
  exact ⟨fun heq => hn (heq ▸ hmem), fun heq => hr (heq ▸ hmem)⟩

theorem not_newline_suffix (line : String) : ¬ ['\n'] <:+ (dropLineEnd line).toList := by
  rintro ⟨cs, hcs⟩
  rw [dropLineEnd, toList_onChars] at hcs
  have hlast : (dropEndWhile isNewline line.toList).getLast? = some '\n' := by
    rw [← hcs]
    exact List.getLast?_concat
  exact absurd (getLast?_dropEndWhile hlast) (by decide)

theorem not_isBlank_of_isAlpha {c : Char} (h : c.isAlpha) : ¬ isBlank c := by
  have hrange : 65 ≤ c.toNat ∧ c.toNat ≤ 122 := by
    rcases Bool.or_eq_true_iff.1 h with hupper | hlower
    · obtain ⟨hfirst, hlast⟩ := of_decide_eq_true hupper
      exact ⟨UInt32.le_iff_toNat_le.1 hfirst,
        Nat.le_trans (UInt32.le_iff_toNat_le.1 hlast) (by decide)⟩
    · obtain ⟨hfirst, hlast⟩ := Bool.and_eq_true_iff.1 hlower
      exact ⟨Nat.le_trans (by decide) (UInt32.le_iff_toNat_le.1 (of_decide_eq_true hfirst)),
        UInt32.le_iff_toNat_le.1 (of_decide_eq_true hlast)⟩
  simp [isBlank, inRanges, blankRanges]
  omega

end Text

/-- The name of a language together with the words after it, if a line is nothing but a
number sign and these. The name starts with a letter and ends at the first space. -/
def languageNamed? (line : String) : Option String :=
  match line.toList with
  | '#' :: c :: cs =>
    if c.isAlpha ∧ (cs.dropWhile languageMarker.isLanguagePart).head?.all (· = ' ') then
      some (String.ofList (c :: cs))
    else none
  | _ => none

namespace CodeBlock

/-- Lines joined without the empty ones at their end. -/
def textOf : List String → Option String
  | [] => none
  | lines => some (dropFinalNewlines ("\n".intercalate lines))

/-- The code block of some lines of code. A first line that names a language is no part of
the code. -/
def ofLines (defaultLanguage first : String) (rest : List String) : CodeBlock :=
  match languageNamed? (trim first) with
  | some name => { lang := lowercase name, text := textOf rest }
  | none => { lang := defaultLanguage, text := textOf (first :: rest) }

/-- The block with a line of code added to it. -/
def addLine (c : CodeBlock) (line : String) : CodeBlock :=
  { c with text := some (joinText c.text line true) }

theorem foldl_addLine {c : CodeBlock} {t : String} (h : c.text = some t) (lines : List String) :
    lines.foldl addLine c = { c with text := some ("\n".intercalate (t :: lines)) } := by
  induction lines generalizing c t with
  | nil =>
      rw [String.intercalate_singleton, ← h]
      rfl
  | cons line lines ih =>
      have hadd : (c.addLine line).text = some (t ++ "\n" ++ line) := by
        rw [addLine, h]
        rfl
      rw [List.foldl_cons, ih hadd, String.intercalate_cons_append, String.intercalate_cons_cons]
      rfl

/-- A block that has no text yet starts with its first line. -/
theorem foldl_addLine_of_none {c : CodeBlock} (h : c.text = none) (lines : List String) :
    (Entry.code (lines.foldl addLine c)).settled = .code { c with text := textOf lines } := by
  cases lines with
  | nil =>
      rw [List.foldl_nil, Entry.settled, h]
      rfl
  | cons line lines =>
      have hadd : (c.addLine line).text = some line := by
        rw [addLine, h]
        rfl
      rw [List.foldl_cons, foldl_addLine hadd]
      rfl

end CodeBlock

/-! ## Lines that name a language -/

/-- What is done after the name of a language: its mark is set, and the line has to
end. -/
def endName (start : List Char) : Spot → Marks → Option Marks :=
  fun s ms => stop.follow done s ((0, ⟨start, s.rest⟩) :: ms)

theorem follow_words {start cs : List Char} (hn : '\n' ∉ cs) (b : Option Char) :
    anything.follow (endName start) ⟨b, cs⟩ [] = some [(0, ⟨start, []⟩)] := by
  show followRun isInline _ 0 b cs = _
  rw [followRun_zero, dropWhile_isInline hn]
  · rfl
  · left
    rw [dropWhile_isInline hn]
    rfl

theorem follow_afterName_none {start cs : List Char} {c : Char} (hc : c ≠ ' ') (hn : c ≠ '\n')
    (b : Option Char) :
    (optional (gap ++ anything)).follow (endName start) ⟨b, c :: cs⟩ [] = none := by
  have hgap : (gap ++ anything).follow (endName start) ⟨b, c :: cs⟩ [] = none := by
    show followRun (· = ' ') _ 1 b (c :: cs) = _
    rw [followRun, if_neg (by simpa using hc)]
    rfl
  have hstop : endName start ⟨b, c :: cs⟩ [] = none := by
    rw [endName, follow, if_neg]
    rw [atStop, Bool.or_eq_true, decide_eq_true_eq, decide_eq_true_eq]
    rintro (hnil | hline)
    · cases hnil
    · exact hn (List.cons.inj hline).1
  show ((gap ++ anything).follow _ _ _ <|> endName start ⟨b, c :: cs⟩ []) = _
  rw [hgap, hstop]
  rfl

/-- A name ends at the end of the line or at a space. -/
theorem follow_afterName {start rest : List Char} (hn : '\n' ∉ rest) (b : Option Char) :
    (optional (gap ++ anything)).follow (endName start) ⟨b, rest⟩ [] =
      if rest.head?.all (· = ' ') then some [(0, ⟨start, []⟩)] else none := by
  cases rest with
  | nil => rfl
  | cons c cs =>
      rw [List.mem_cons, not_or] at hn
      by_cases hc : c = ' '
      · have hwords (b : Option Char) : anything.follow (endName start)
            ⟨b, cs.dropWhile (· = ' ')⟩ [] = some [(0, ⟨start, []⟩)] :=
          follow_words (fun hmem => hn.2 ((List.dropWhile_sublist _).subset hmem)) b
        have hgap : (gap ++ anything).follow (endName start) ⟨b, c :: cs⟩ [] =
            some [(0, ⟨start, []⟩)] := by
          show followRun (· = ' ') (fun s => anything.follow (endName start) s []) 1 b (c :: cs) = _
          rw [followRun, if_pos (by simpa using hc), followRun_zero, hwords]
          · rfl
          · left
            rw [hwords]
            rfl
        show ((gap ++ anything).follow _ _ _ <|> _) = _
        rw [hgap, if_pos (by simpa using hc)]
        rfl
      · rw [follow_afterName_none hc (Ne.symm hn.1), if_neg (by simpa using hc)]

theorem follow_name {start cs : List Char} (hn : '\n' ∉ cs) (b : Option Char) :
    (run languageMarker.isLanguagePart 0 ++ optional (gap ++ anything)).follow (endName start)
        ⟨b, cs⟩ [] =
      if (cs.dropWhile languageMarker.isLanguagePart).head?.all (· = ' ') then
        some [(0, ⟨start, []⟩)]
      else none := by
  have hrest : '\n' ∉ cs.dropWhile languageMarker.isLanguagePart :=
    fun hmem => hn ((List.dropWhile_sublist _).subset hmem)
  show followRun _ (fun s => (optional (gap ++ anything)).follow (endName start) s []) 0 b cs = _
  rw [followRun_zero, follow_afterName hrest]
  -- a shorter name would be followed by a character of the name
  right
  intro b c cs hc h
  have hspace : c ≠ ' ' := by
    rintro rfl
    exact absurd hc (by decide)
  have hline : c ≠ '\n' := by
    rintro rfl
    exact absurd hc (by decide)
  rw [follow_afterName_none hspace hline] at h
  cases h

theorem languageMarker_read? {line : String} (hn : '\n' ∉ line.toList) :
    languageMarker.read? line = (languageNamed? line).map fun name => [some name] := by
  rw [read?, languageNamed?]
  show (languageMarker.follow done _ _).map _ = _
  cases hline : line.toList with
  | nil => rfl
  | cons d ds =>
      by_cases hd : '#' = d
      · subst hd
        cases ds with
        | nil => rfl
        | cons c cs =>
            have hcs : '\n' ∉ cs := fun hmem => hn (hline ▸ by simp [hmem])
            have hfollow : languageMarker.follow done ⟨none, '#' :: c :: cs⟩ [] =
                if c.isAlpha then
                  (run languageMarker.isLanguagePart 0 ++ optional (gap ++ anything)).follow
                    (endName (c :: cs)) ⟨some c, cs⟩ []
                else none := rfl
            rw [hfollow, follow_name hcs, ← ite_and]
            show _ = Option.map _ (if _ then some (String.ofList (c :: cs)) else none)
            split
            · have htext : Mark.text ⟨c :: cs, []⟩ = String.ofList (c :: cs) := by simp [Mark.text]
              exact congrArg (fun name => some [some name]) htext
            · rfl
      · have hfollow : languageMarker.follow done ⟨none, d :: ds⟩ [] = none := by
          refine follow_lit_none ?_ []
          intro hpre
          exact hd (List.cons_prefix_cons.1 hpre).1
        rw [hfollow]
        split
        · next h => exact absurd (List.cons.inj h).1.symm hd
        · rfl

/-- A line without blanks at its ends has none at the end of the name either. -/
theorem trim_languageNamed? {line name : String} (h : languageNamed? (trim line) = some name) :
    trim name = name := by
  rw [languageNamed?] at h
  split at h
  · next c cs hline =>
      obtain ⟨⟨hc, -⟩, hname⟩ := Option.ite_none_right_eq_some.1 h
      obtain rfl : String.ofList (c :: cs) = name := Option.some.inj hname
      refine String.toList_inj.1 ?_
      rw [trim, toList_onChars, String.toList_ofList, trimChars,
        List.dropWhile_cons_of_neg (not_isBlank_of_isAlpha hc)]
      refine dropEndWhile_eq_self fun d hd => ?_
      rw [trim, toList_onChars, trimChars] at hline
      refine @getLast?_dropEndWhile isBlank (line.toList.dropWhile isBlank) d ?_
      rw [hline]
      exact hd
  · cases h

/-- The first line of code, and whether it is one. -/
theorem ofFirstLine_eq {line : String} (hn : '\n' ∉ line.toList) (defaultLanguage : String) :
    CodeBlock.ofFirstLine defaultLanguage line =
      match languageNamed? (trim line) with
      | some name => { lang := lowercase name }
      | none => { lang := defaultLanguage, text := some line } := by
  rw [CodeBlock.ofFirstLine, languageMarker_read? fun hmem => hn (trim_subset line hmem)]
  cases h : languageNamed? (trim line) with
  | none => rfl
  | some name =>
      show ({ lang := lowercase (trim name) } : CodeBlock) = _
      rw [trim_languageNamed? h]

/-- The lines of a block, read one after another, make the block of all of them. -/
theorem settled_foldl_addLine {first : String} (hn : '\n' ∉ first.toList) (defaultLanguage : String)
    (rest : List String) :
    (Entry.code (rest.foldl CodeBlock.addLine (.ofFirstLine defaultLanguage first))).settled =
      .code (.ofLines defaultLanguage first rest) := by
  rw [ofFirstLine_eq hn, CodeBlock.ofLines]
  cases languageNamed? (trim first) with
  | none =>
      show (Entry.code (rest.foldl CodeBlock.addLine
        { lang := defaultLanguage, text := some first })).settled = _
      rw [CodeBlock.foldl_addLine rfl]
      rfl
  | some name => exact CodeBlock.foldl_addLine_of_none rfl rest

/-! ## The two forms of a comment -/

/-- What an item says, without what stands before it. -/
def CommentItem.content : CommentItem → String
  | text c => c
  | blank => ""
  | code s => s

/-- The ways to write a comment. -/
inductive CommentForm where
  | block
  | line
  deriving DecidableEq, Repr

namespace CommentForm

/-- The state of a mode. -/
def state : CommentForm → CommentMode → State
  | block => CommentMode.block
  | line => CommentMode.line

/-- The line of an item. -/
def write : CommentForm → CommentItem → String
  | block => CommentItem.inBlock
  | line => CommentItem.inLine

/-- Whether an item may stand in a code block. In a block comment code must not be the end
of the comment. -/
def TakesCode : CommentForm → CommentItem → Prop
  | _, .text _ => False
  | _, .blank => True
  | form, .code s =>
    '\n' ∉ s.toList ∧ '\r' ∉ s.toList ∧
      (form = block → ¬ "*/".toList <+: s.toList.dropWhile (· = ' '))

/-- Whether a line ends the code before it: it is the end of the comment, or it is a line
of the comment that is neither empty nor indented as code. -/
def EndsCode : CommentForm → String → Prop
  | block, l =>
    "*/".toList <+: l.toList.dropWhile (· = ' ') ∨
      l.toList.dropWhile (· = ' ') ≠ [] ∧ ¬ "    ".toList <+: l.toList
  | line, l =>
    ¬ "//   ".toList <+: l.toList.dropWhile isIndent ∧
      ¬ ("//".toList <+: l.toList.dropWhile isIndent ∧
        ((l.toList.dropWhile isIndent).drop 2).all (· = ' '))

instance (form : CommentForm) : DecidablePred form.TakesCode
  | .text _ => inferInstanceAs (Decidable False)
  | .blank => inferInstanceAs (Decidable True)
  | .code _ => inferInstanceAs (Decidable (_ ∧ _ ∧ (_ → _)))

instance (form : CommentForm) : DecidablePred form.EndsCode :=
  match form with
  | block => fun _ => inferInstanceAs (Decidable (_ ∨ _))
  | line => fun _ => inferInstanceAs (Decidable (_ ∧ _))

theorem find?_state (form : CommentForm) (m : CommentMode) :
    grammar.find? (form.state m).name = some (form.state m) := by
  cases form with
  | block => exact m.find?_block
  | line => exact m.find?_line

theorem crossTo_state (form : CommentForm) (m m' : CommentMode) (d : Draft) :
    (form.state m).crossTo (form.state m') d = d := by
  cases form with
  | block =>
      show hooked m'.block.enter (hooked m.block.exit d) = d
      rw [m'.block_enter, m.block_exit]
      rfl
  | line =>
      show hooked m'.line.enter (hooked m.line.exit d) = d
      rw [m'.line_enter, m.line_exit]
      rfl

theorem mem_states (form : CommentForm) (m : CommentMode) : form.state m ∈ states :=
  mem_of_find? (form.find?_state m)

/-- A line that is answered by an action is evaluated as that action says. -/
theorem evaluate {form : CommentForm} {m : CommentMode} {r : Reader} {g : Reading} {l : String}
    {a : Action} {captures : Captures} {way : Option (CommentMode × Bool)} {d : Draft}
    (hr : r.grammar = Dialect.grammar) (hs : g.state = form.state m)
    (h : answer (form.state m).rules l g.entering =
      some (some a, captures, CommentMode.transition form.state way))
    (ha : a.plain) (hd : a.apply g.line captures g.draft = .ok d) :
    ∃ g', r.evaluate l g = .ok (g', (m.goes way).2) ∧
      g'.Like
        { g with state := form.state (m.goes way).1, entering := way.isSome, draft := d } := by
  rw [← hs] at h
  obtain ⟨x, hx, hxa, hxc, hxn⟩ := State.matchLine_of_answer h
  have hact : act g x = .ok { draft := d } := by
    rw [act, hxa, hxc]
    show a.run _ _ _ = _
    rw [Action.run_plain ha, hd]
    rfl
  cases way with
  | none =>
      obtain ⟨g', hg', hl⟩ := @evaluate_of_stay r _ _ _ _ hx hact (by rw [hxn]; rfl)
      exact ⟨g', hg', hl.trans ⟨hs, rfl, rfl, rfl⟩⟩
  | some way =>
      obtain ⟨m', again⟩ := way
      have hf : r.grammar.find? (form.state m').name = some (form.state m') :=
        hr ▸ form.find?_state m'
      obtain ⟨g', hg', hl⟩ := evaluate_of_move hx hact (by rw [hxn]; rfl) hf
      refine ⟨g', hg', hl.trans ⟨rfl, rfl, rfl, ?_⟩⟩
      show g.state.crossTo (form.state m') d = d
      rw [hs, crossTo_state]

/-! ## How lines of code are answered -/

variable {form : CommentForm} {item : CommentItem} {s : String}

theorem answer_gap (h : form.TakesCode (.code s)) (entering : Bool) :
    answer (form.state .gap).rules (form.write (.code s)) entering =
      some (some .flush, [], CommentMode.transition form.state (some (.firstCode, true))) := by
  cases form with
  | block => exact gap_code_inBlock (h.2.2 rfl) entering
  | line => exact gap_code_inLine s entering

theorem answer_firstCode (h : '\n' ∉ s.toList) (entering : Bool) :
    answer (form.state .firstCode).rules (form.write (.code s)) entering =
      some (some .startCode, [some s],
        CommentMode.transition form.state (some (.code, false))) := by
  cases form with
  | block => exact answer_of_read? rfl (CommentItem.code_read? h).1
  | line => exact answer_of_read? rfl (CommentItem.code_read? h).2

/-- Within code, an item is added to the text as it is. -/
theorem answer_code (h : form.TakesCode item) (entering : Bool) :
    ∃ (a : Action) (captures : Captures), a.plain ∧
      (∀ n d, a.apply n captures d = d.appendText item.content true) ∧
      answer (form.state .code).rules (form.write item) entering =
        some (some a, captures, CommentMode.transition form.state none) := by
  cases item with
  | text c => exact h.elim
  | blank =>
      refine ⟨.appendBlankLine, [], rfl, fun _ _ => rfl, ?_⟩
      cases form <;> rfl
  | code s =>
      refine ⟨.appendLine, [some s], rfl, fun _ _ => rfl, ?_⟩
      obtain ⟨hblock, hline⟩ := CommentItem.code_read? h.1
      cases form with
      | block =>
          have hend : blockEnd.read? (CommentItem.code s).inBlock = none := by
            refine blockEnd_read? ?_
            rw [CommentItem.dropWhile_code_inBlock]
            exact h.2.2 rfl
          exact (answer_skip hend _ _).trans (answer_of_read? rfl hblock)
      | line => exact answer_of_read? rfl hline

theorem codeStart_read?_eq_none {l : String}
    (h : ¬ "//   ".toList <+: l.toList.dropWhile isIndent) : codeStart.read? l = none := by
  rw [read?_eq_none_iff]
  intro ha
  obtain ⟨t, m, ⟨m', ⟨w, -, hw, hm'⟩, hslashes⟩, hspaces⟩ := accepts_iff.1 ha
  have hl : l.toList = w ++ ("//   ".toList ++ t.rest) := by
    rw [show l.toList = w ++ m'.rest from hm'.rest, hslashes.rest, hspaces.rest]
    rfl
  refine h ?_
  rw [hl, List.dropWhile_append_of_pos hw]
  exact List.prefix_append _ _

/-- A comment line is empty only if there are nothing but spaces after its slashes. -/
theorem emptyComment_read?_eq_none {l : String} (hnl : ¬ ['\n'] <:+ l.toList)
    (h : ¬ ("//".toList <+: l.toList.dropWhile isIndent ∧
      ((l.toList.dropWhile isIndent).drop 2).all (· = ' '))) : emptyComment.read? l = none := by
  rw [read?_eq_none_iff]
  intro ha
  obtain ⟨t, m, ⟨m', ⟨w, -, hw, hm'⟩, hslashes⟩, m'', ⟨v, -, hv, hm''⟩, rfl, hstop⟩ :=
    accepts_iff.1 ha
  have hl : l.toList = w ++ ("//".toList ++ (v ++ t.rest)) := by
    rw [show l.toList = w ++ m'.rest from hm'.rest, hslashes.rest, hm''.rest]
  rw [atStop, Bool.or_eq_true, decide_eq_true_eq, decide_eq_true_eq] at hstop
  rcases hstop with hstop | hstop
  · refine h ?_
    rw [hl, List.dropWhile_append_of_pos hw, hstop, List.append_nil]
    refine ⟨List.prefix_append _ _, ?_⟩
    exact List.all_eq_true.2 hv
  · refine hnl ?_
    rw [hl, hstop, ← List.append_assoc, ← List.append_assoc]
    exact List.suffix_append _ _

/-- The line after the code leads back to prose, where it is evaluated again. -/
theorem answer_end {l : String} (hnl : ¬ ['\n'] <:+ l.toList) (h : form.EndsCode l)
    (entering : Bool) :
    ∃ captures, answer (form.state .code).rules l entering =
      some (some .flush, captures, CommentMode.transition form.state (some (.prose, true))) := by
  cases form with
  | block =>
      cases hend : blockEnd.read? l with
      | some captures => exact ⟨captures, answer_of_read? rfl hend⟩
      | none =>
          have hnot : ¬ "*/".toList <+: l.toList.dropWhile (· = ' ') := by
            rintro ⟨rest, hrest⟩
            refine read?_eq_none_iff.1 hend (accepts_run_append.2
              ⟨l.toList.takeWhile (· = ' '), rest, List.all_eq_true.1 List.all_takeWhile, ?_⟩)
            rw [hrest, List.takeWhile_append_dropWhile]
          obtain ⟨hne, hindent⟩ := h.resolve_left hnot
          have hcode : ("    " ++ capture 0 anything ++ stop).read? l = none :=
            read?_eq_none (follow_lit_none hindent [])
          have hblank : blankLine.read? l = none := by
            refine blankLine_read? hne fun hline => hnl ?_
            rw [← hline]
            exact List.dropWhile_suffix _
          exact ⟨[], (answer_skip hend _ _).trans
            ((answer_skip hcode _ _).trans (answer_skip hblank _ _))⟩
  | line =>
      have hcode := codeStart_read?_eq_none h.1
      have hblank := emptyComment_read?_eq_none hnl h.2
      exact ⟨[], (answer_skip (read?_append_eq_none (read?_append_eq_none hcode _) _) _ _).trans
        (answer_skip hblank _ _)⟩

end CommentForm

/-! ## Reading lines of code -/

/-- In the middle of a code block: the draft is the one from before the block with the
block so far pending. -/
structure Reading.InCode (form : CommentForm) (d : Draft) (n : Nat) (c : CodeBlock) (g : Reading) :
    Prop where
  state : g.state = form.state .code
  line : g.line = n
  draft : g.draft = { d with pending := some (.code c) }

namespace CommentForm

variable {form : CommentForm} {item : CommentItem} {s : String} {r : Reader} {g : Reading}

/-- The line of code is fed as it is written. -/
theorem dropLineEnd_write (h : form.TakesCode item) :
    dropLineEnd (form.write item) = form.write item := by
  have htrimmed : item.trimmed = item := by
    cases item with
    | text c => exact h.elim
    | blank => rfl
    | code s => exact congrArg CommentItem.code (dropLineEnd_of_not_mem h.1 h.2.1)
  cases form with
  | block => exact item.trimmed_inBlock.trans (congrArg CommentItem.inBlock htrimmed)
  | line => exact item.trimmed_inLine.trans (congrArg CommentItem.inLine htrimmed)

/-- Right after an empty line, the first line of code opens a block. -/
theorem feed_first (hr : r.grammar = Dialect.grammar) (hbound : 1 ≤ r.maxReplay)
    (hs : g.state = form.state .gap) (hp : g.draft.pending = none)
    (h : form.TakesCode (.code s)) :
    ∃ g', r.feed g (form.write (.code s)) = .ok g' ∧
      g'.InCode form g.draft (g.line + 1) (.ofFirstLine g.draft.language s) := by
  let g₁ : Reading := { g with line := g.line + 1 }
  have hflush : g.draft.flush = g.draft := Draft.flush_of_settled hp
  obtain ⟨g₂, he₂, hl₂⟩ := @evaluate form .gap r g₁ _ _ _ (some (.firstCode, true)) _ hr hs
    (answer_gap h _) rfl rfl
  obtain ⟨g₃, he₃, hl₃⟩ := @evaluate form .firstCode r g₂ _ _ _ (some (.code, false)) _ hr hl₂.state
    (answer_firstCode h.1 _) rfl rfl
  refine ⟨g₃, ?_, hl₃.state, hl₃.line.trans hl₂.line, ?_⟩
  · rw [feed, dropLineEnd_write h]
    exact evaluateAll_of_ends (.again he₂ (.done he₃)) (by omega)
  · have hdraft : g₂.draft = g.draft := hl₂.draft.trans hflush
    rw [hl₃.draft]
    show g₂.draft.openCode s = _
    rw [hdraft, Draft.openCode, hflush]

/-- Every further item is added to the block, and to nothing else. -/
theorem feed_item (hr : r.grammar = Dialect.grammar) {d : Draft} {n : Nat} {c : CodeBlock}
    (hg : g.InCode form d n c) (h : form.TakesCode item) :
    ∃ g', r.feed g (form.write item) = .ok g' ∧
      g'.InCode form d (n + 1) (c.addLine item.content) := by
  obtain ⟨a, captures, ha, happly, hanswer⟩ := answer_code h g.entering
  have hd : a.apply (g.line + 1) captures g.draft =
      .ok { d with pending := some (.code (c.addLine item.content)) } := by
    rw [happly, hg.draft]
    rfl
  obtain ⟨g', he, hl⟩ := @evaluate form .code r { g with line := g.line + 1 } _ _ _ none _ hr
    hg.state hanswer ha hd
  refine ⟨g', ?_, hl.state, hl.line.trans (congrArg (· + 1) hg.line), hl.draft⟩
  rw [feed, dropLineEnd_write h]
  exact evaluateAll_of_ends (.done he) (Nat.zero_le _)

theorem feedAll_items (hr : r.grammar = Dialect.grammar) {d : Draft} {n : Nat} {c : CodeBlock}
    (hg : g.InCode form d n c) {items : List CommentItem} (h : ∀ x ∈ items, form.TakesCode x) :
    ∃ g', r.feedAll g (items.map form.write) = .ok g' ∧
      g'.InCode form d (n + items.length) ((items.map CommentItem.content).foldl .addLine c) := by
  induction items generalizing g n c with
  | nil => exact ⟨g, rfl, hg⟩
  | cons item items ih =>
      obtain ⟨g₁, hf, hg₁⟩ := feed_item hr hg (h item List.mem_cons_self)
      obtain ⟨g', hg', hc⟩ := ih hg₁ fun x hx => h x (List.mem_cons_of_mem _ hx)
      refine ⟨g', ?_, ?_⟩
      · rw [List.map_cons, feedAll_cons, hf]
        exact hg'
      · rw [List.length_cons, Nat.add_comm items.length, ← Nat.add_assoc]
        exact hc

/-- The line after the code completes the block, and is evaluated again in prose. -/
theorem evaluate_end (hr : r.grammar = Dialect.grammar) {d : Draft} {n : Nat} {c : CodeBlock}
    (hd : d.pending = none) (hg : g.InCode form d n c) {l : String}
    (hnl : ¬ ['\n'] <:+ l.toList) (h : form.EndsCode l) :
    ∃ k, r.evaluate l g = .ok (k, true) ∧
      k.Like { g with
        state := form.state .prose, entering := true
        draft := { d.addEntry (Entry.code c).settled with nextStyle := none } } := by
  obtain ⟨captures, hanswer⟩ := answer_end hnl h g.entering
  have hflush : g.draft.flush = { d.addEntry (Entry.code c).settled with nextStyle := none } := by
    rw [hg.draft]
    show { d.addEntry (Entry.code c).settled with pending := none, nextStyle := none } = _
    rw [← hd]
    rfl
  exact @evaluate form .code r g _ _ _ (some (.prose, true)) _ hr hg.state hanswer rfl
    (congrArg Except.ok hflush)

/-- A whole code block is read as what its lines say. The line that ends it is left to be
evaluated in prose. -/
theorem feedAll_code (hr : r.grammar = Dialect.grammar) (hbound : 1 ≤ r.maxReplay)
    (hs : g.state = form.state .gap) (hp : g.draft.pending = none) {first : String}
    {items : List CommentItem} (hitems : ∀ item ∈ .code first :: items, form.TakesCode item)
    {l : String} (hl : form.EndsCode (dropLineEnd l)) :
    ∃ k, r.feedAll g ((.code first :: items).map form.write ++ [l]) =
        r.evaluateAll (dropLineEnd l) (r.maxReplay.toNat - 1) k ∧
      k.Like { g with
        state := form.state .prose, entering := true, line := g.line + items.length + 2
        draft := { g.draft.addEntry (.code
          (.ofLines g.draft.language first (items.map CommentItem.content))) with
            nextStyle := none } } := by
  obtain ⟨hfirst, hrest⟩ := List.forall_mem_cons.1 hitems
  obtain ⟨g₁, hf₁, hg₁⟩ := feed_first hr hbound hs hp hfirst
  obtain ⟨g₂, hf₂, hg₂⟩ := feedAll_items hr hg₁ hrest
  let g₃ : Reading := { g₂ with line := g₂.line + 1 }
  have hg₃ : g₃.InCode form g.draft (g.line + 1 + items.length + 1) _ :=
    ⟨hg₂.state, congrArg (· + 1) hg₂.line, hg₂.draft⟩
  obtain ⟨k, hk, hlike⟩ := evaluate_end hr hp hg₃ (not_newline_suffix l) hl
  rw [settled_foldl_addLine hfirst.1] at hlike
  refine ⟨k, ?_, hlike.trans ⟨rfl, rfl, ?_, rfl⟩⟩
  · have hlast : r.feed g₂ l = r.evaluateAll (dropLineEnd l) (r.maxReplay.toNat - 1) k := by
      obtain ⟨left, hleft⟩ : ∃ left, r.maxReplay.toNat = left + 1 :=
        ⟨r.maxReplay.toNat - 1, by omega⟩
      rw [feed, hleft, evaluateAll, hk]
      rfl
    have hcode : r.feedAll g ((.code first :: items).map form.write) = .ok g₂ := by
      rw [List.map_cons, feedAll_cons, hf₁]
      exact hf₂
    rw [feedAll_append, hcode]
    show r.feedAll g₂ [l] = _
    rw [feedAll_cons, hlast]
    exact bind_pure _
  · rw [hg₃.line]
    show g.line + 1 + items.length + 1 = g.line + items.length + 2
    omega

end CommentForm

/-! ## Wherever a reader has come to -/

namespace Draft

/-- What every draft has from its start on: the default language, and a current group that
is in the store. -/
structure Equipped (language : String) (d : Draft) : Prop where
  language : d.language = language
  held : d.doc.store.Holds d.group

variable {language : String} {d e : Draft}

theorem Equipped.write (hd : d.Equipped language) (h : Write d e) : e.Equipped language := by
  cases h with
  | remember => exact ⟨hd.language, hd.held⟩
  | freshGroup => exact ⟨hd.language, GroupStore.holds_insert.2 (Or.inr rfl)⟩
  | addEntry i e => exact ⟨hd.language, GroupStore.holds_update.2 hd.held⟩
  | describe hf => exact ⟨hd.language, GroupStore.holds_update.2 hd.held⟩
  | placeGroup i => exact ⟨hd.language, hd.held⟩
  | opened title name => exact ⟨hd.language, hd.held⟩
  | listSpan s =>
      rw [listSpan]
      split <;> exact ⟨hd.language, hd.held⟩
  | clearTable key => exact ⟨hd.language, hd.held⟩
  | @declare f key definition kind _ h =>
      refine ⟨?_, GroupStore.holds_insert.2 (Or.inr rfl)⟩
      obtain ⟨params, libParams, rfl⟩ := register_cases h
      exact hd.language

theorem Equipped.writes (hd : d.Equipped language) (h : Writes d e) : e.Equipped language := by
  induction h with
  | refl => exact hd
  | tail _ hw ih => exact ih.write hw

theorem Equipped.written {declares : Prop} (hd : d.Equipped language) (h : Written declares d e) :
    e.Equipped language := by
  obtain ⟨d', hw, rfl | ⟨-, -, rfl⟩⟩ := h
  · exact hd.writes hw
  · have hd' := hd.writes hw
    exact ⟨hd'.language, GroupStore.holds_update.2 hd'.held⟩

end Draft

theorem Reader.Reaches.equipped {r : Reader} (hr : r.grammar = Dialect.grammar) {doc : Document}
    (hdoc : doc.sections = []) {file : Option String} {language : String} {options : List String}
    {g₀ g : Reading}
    (h₀ : r.start Dialect.initial (Draft.start doc file language options) = .ok g₀)
    (h : r.Reaches g₀ g) : g.draft.Equipped language := by
  have hcoherent := coherent_of_start hr hdoc h₀
  induction h with
  | start =>
      rw [Reader.start, hr] at h₀
      cases h₀
      exact ⟨rfl, GroupStore.holds_insert.2 (Or.inr rfl)⟩
  | read h hf ih =>
      obtain ⟨g₁, d, -, hbefore, hwritten, hafter⟩ := (h.coherent hr hcoherent).written_feed hr hf
      exact ((ih.writes hbefore).written hwritten).writes hafter
  | amid h hs ih => exact ih.writes ((h.coherent hr hcoherent).next_line.writes_of_again hr hs)

/-- Nothing is pending right after an empty line of a comment. -/
theorem Reading.Consistent.pending_of_gap {g : Reading} (hg : g.Consistent) {form : CommentForm}
    (hs : g.state.name = (form.state .gap).name) : g.draft.pending = none := by
  have hsettled : (form.state .gap).name ∉ pendingStates := by cases form <;> decide
  cases hp : g.draft.pending with
  | none => rfl
  | some e => exact absurd (hs ▸ hg.pending (by rw [hp]; rfl)) hsettled

/-- Wherever a reader of the dialect has come to right after an empty line of a comment: a
line of code, further ones and empty lines, up to a line that ends the code, add one entry
to the current group, and nothing else to the document. The entry is the code block of
what the lines say. The line that ends the code is evaluated in prose from there on. -/
theorem code_kept {r : Reader} (hr : r.grammar = Dialect.grammar) (hbound : 1 ≤ r.maxReplay)
    {doc : Document} (hdoc : doc.sections = []) {file : Option String} {language : String}
    {options : List String} {g₀ g : Reading}
    (h₀ : r.start Dialect.initial (Draft.start doc file language options) = .ok g₀)
    (h : r.Reaches g₀ g) {form : CommentForm} (hs : g.state.name = (form.state .gap).name)
    {first : String} {items : List CommentItem}
    (hitems : ∀ item ∈ .code first :: items, form.TakesCode item) {line : String}
    (hline : form.EndsCode (dropLineEnd line)) :
    let block := Entry.code (.ofLines language first (items.map CommentItem.content))
    ∃ k, r.feedAll g ((.code first :: items).map form.write ++ [line]) =
        r.evaluateAll (dropLineEnd line) (r.maxReplay.toNat - 1) k ∧
      k.Like { g with
        state := form.state .prose, entering := true, line := g.line + items.length + 2
        draft := { g.draft.addEntry block with nextStyle := none } } ∧
      k.draft.currentGroup.entries = g.draft.currentGroup.entries ++ [block] := by
  intro block
  have hg : g.Coherent := h.coherent hr (coherent_of_start hr hdoc h₀)
  have hd := h.equipped hr hdoc h₀
  have hstate : g.state = form.state .gap := eq_of_name hg.state (form.mem_states .gap) hs
  obtain ⟨k, hk, hl⟩ :=
    form.feedAll_code hr hbound hstate (hg.consistent.pending_of_gap hs) hitems hline
  rw [hd.language] at hl
  refine ⟨k, hk, hl, ?_⟩
  rw [hl.draft]
  exact congrArg Group.entries (GroupStore.get_update_self hd.held _)

/-- Code in Lua with an empty line in it, at the end of a block comment. -/
theorem code_kept_language :
    ∃ g₀ g, ({} : Reader).start Dialect.initial
        (Draft.start (Document.new "d" none none) none "js" []) = .ok g₀ ∧
      ({} : Reader).feedAll g₀ ["// # T", "", "/*", "Adds.", ""] = .ok g ∧
      g.state.name = "mgroup_blank" ∧
      (∀ item ∈ [.code "#Lua 5", .code "# T", .blank, .code "  * x", .blank],
        CommentForm.block.TakesCode item) ∧
      CommentForm.block.EndsCode (dropLineEnd "*/") ∧
      ∃ k, ({} : Reader).feedAll g ["    #Lua 5", "    # T", "", "      * x", "", "*/"] =
          ({} : Reader).evaluateAll "*/" 7 k ∧
        k.state.name = "mgroup" ∧
        k.draft.currentGroup.entries =
          g.draft.currentGroup.entries ++
            [.code { lang := "lua 5", text := some "# T\n\n  * x" }] := by
  have hitems : ∀ item ∈ [.code "#Lua 5", .code "# T", .blank, .code "  * x", .blank],
      CommentForm.block.TakesCode item := by decide
  have hline : CommentForm.block.EndsCode (dropLineEnd "*/") := by decide
  have hblock : CodeBlock.ofLines "js" "#Lua 5" ["# T", "", "  * x", ""] =
      { lang := "lua 5", text := some "# T\n\n  * x" } := by decide +kernel
  let run : Except Fault (Reading × Reading) := do
    let g₀ ← ({} : Reader).start Dialect.initial
      (Draft.start (Document.new "d" none none) none "js" [])
    let g ← ({} : Reader).feedAll g₀ ["// # T", "", "/*", "Adds.", ""]
    return (g₀, g)
  have hname : run.toOption.map (·.2.state.name) = some "mgroup_blank" := by decide +kernel
  cases hrun : run with
  | error f =>
      rw [hrun] at hname
      cases hname
  | ok x =>
      rw [hrun] at hname
      obtain ⟨g₀, h₀, hrun⟩ := ok_of_bind hrun
      obtain ⟨g, hg, hrun⟩ := ok_of_bind hrun
      cases hrun
      have hs : g.state.name = (CommentForm.block.state .gap).name := Option.some.inj hname
      obtain ⟨k, hk, hl, hentries⟩ :=
        code_kept rfl (by decide) rfl h₀ (.of_feedAll hg) hs hitems hline
      refine ⟨g₀, g, h₀, hg, hs, hitems, hline, k, hk, congrArg State.name hl.state, ?_⟩
      exact hentries.trans (congrArg (fun c => g.draft.currentGroup.entries ++ [.code c]) hblock)

/-- The first line of code is evaluated again in the state it leads to. A reader that
allows no replay refuses it there, before anything is kept. -/
theorem code_refused_without_replay :
    ∃ g₀ g, ({ maxReplay := 0 } : Reader).start Dialect.initial
        (Draft.start (Document.new "d" none none) none "js" []) = .ok g₀ ∧
      ({ maxReplay := 0 } : Reader).feedAll g₀ ["// # T", "", "/*", "Adds.", ""] = .ok g ∧
      g.state.name = "mgroup_blank" ∧
      (∀ item ∈ [.code "f(1)"], CommentForm.block.TakesCode item) ∧
      CommentForm.block.EndsCode (dropLineEnd "*/") ∧
      ({ maxReplay := 0 } : Reader).feedAll g ["    f(1)", "*/"] =
        .error (.grammar (.replayed 0) (some "mcode") (some 6)) :=
  ⟨_, _, rfl, rfl, by decide +kernel, by decide, by decide, rfl⟩

end DocComment
