import DocComment.Proofs.MirroredRules
import DocComment.Proofs.Totality

/-!
# Block comments and line comments say the same

A comment that is written as a block and the same comment written as a run of line
comments leave the same draft behind, and the source goes on in the same state.

`Mirror` is the relation that carries this through a comment: the two readings are in the
two states of one mode, and their drafts are equal. The rules of the two states answer an
item alike, so one evaluation keeps the readings mirrors of each other and asks for the
line again in both or in none (`Mirror.evaluate_item`). Thus they replay an item equally
often, and go through the items in lockstep. Where a comment starts and where it ends the
two forms have different numbers of lines, and only there do the readings part for a
moment: the block is opened by a line of its own, and it is closed by one, while a run of
line comments is closed by the line after it, which is then evaluated again where the
block has led to.
-/

namespace DocComment

open Text Pattern Dialect Relation Reader

/-! ## Evaluations without a fault -/

variable {r : Reader} {g k : Reading} {m : CommentMode} {item : CommentItem}

/-- Only source refuses a line. -/
theorem Reading.Coherent.not_error (hg : g.Coherent) (hr : r.grammar = Dialect.grammar)
    (hs : g.state.name ≠ "lua") {line : String} {f : Fault} : r.evaluate line g ≠ .error f := by
  intro h
  obtain ⟨-, -, hname, -⟩ := hg.evaluate_error hr h
  exact hs hname

theorem Reading.Coherent.act_ok (hg : g.Coherent) (hr : r.grammar = Dialect.grammar)
    (hs : g.state.name ≠ "lua") {line : String} {x : LineMatch}
    (hx : g.state.matchLine line g.entering = some x) : ∃ e, act g x = .ok e := by
  cases ha : act g x with
  | error f => exact absurd (evaluate_of_error hx ha) (hg.not_error hr hs)
  | ok e => exact ⟨e, rfl⟩

/-- A plain action leaves it to its rule where to go on. -/
theorem act_next {x : LineMatch} (hx : x.rule.action.all Action.plain) {e : Effect}
    (h : act g x = .ok e) : e.next = none := by
  rw [act] at h
  cases ha : x.rule.action with
  | none =>
      rw [ha] at h
      cases h
      rfl
  | some a =>
      rw [ha] at h hx
      replace h : a.run g.line x.captures g.draft = .ok e := h
      rw [Action.run_plain hx] at h
      cases hd : a.apply g.line x.captures g.draft with
      | error f =>
          rw [hd] at h
          cases h
      | ok d =>
          rw [hd] at h
          cases h
          rfl

theorem Reading.Coherent.next_line (hg : g.Coherent) :
    Reading.Coherent { g with line := g.line + 1 } :=
  ⟨hg.state, hg.fits⟩

theorem Reader.Ends.of_reach {line : String} (h : ReflTransGen (r.Again line) g k) {n : Nat}
    {o : Except Fault Reading} (ho : r.Ends line k n o) : ∃ n', r.Ends line g n' o := by
  induction h using ReflTransGen.head_induction_on with
  | refl => exact ⟨n, ho⟩
  | head hs _ ih =>
      obtain ⟨n', ho'⟩ := ih
      exact ⟨n' + 1, .again hs ho'⟩

namespace CommentMode

theorem find?_block (m : CommentMode) : grammar.find? m.block.name = some m.block := by
  cases m <;> rfl

theorem find?_line (m : CommentMode) : grammar.find? m.line.name = some m.line := by
  cases m <;> rfl

theorem block_exit (m : CommentMode) : m.block.exit = none := by
  cases m <;> rfl

theorem line_exit (m : CommentMode) : m.line.exit = none := by
  cases m <;> rfl

theorem block_enter (m : CommentMode) : m.block.enter = none := by
  cases m <;> rfl

theorem line_enter (m : CommentMode) : m.line.enter = none := by
  cases m <;> rfl

theorem block_name (m : CommentMode) : m.block.name ≠ "lua" := by
  cases m <;> decide

theorem block_plain (m : CommentMode) : ∀ x ∈ m.block.rules, x.action.all Action.plain := by
  cases m <;> decide

theorem takes_trimmed (m : CommentMode) (item : CommentItem) :
    m.takes item.trimmed = m.takes item := by
  cases m <;> cases item <;> rfl

/-- A mode that items end in takes the next one, if code does not follow text. -/
theorem takes_of_ready {afterGap : Bool} (hm : m.ready afterGap) (hcode : item.isCode → afterGap) :
    m.takes item := by
  cases item with
  | text c | blank => cases m <;> first | rfl | cases hm
  | code s =>
      obtain rfl : afterGap = true := hcode rfl
      cases m <;> first | rfl | cases hm

end CommentMode

/-! ## Items in lockstep -/

/-- Two readings in the middle of one comment: the one of a block and the one of a run of
line comments. -/
structure Mirror (m : CommentMode) (g k : Reading) : Prop where
  block : g.state = m.block
  line : k.state = m.line
  draft : g.draft = k.draft

namespace Mirror

/-- If lines are answered alike in both forms, the readings stay mirrors of each other. -/
theorem evaluate (h : Mirror m g k) (hg : g.Coherent) (hr : r.grammar = Dialect.grammar)
    {line line' : String} {action : Option Action} {captures : Captures}
    {way : Option (CommentMode × Bool)}
    (hblock : answer m.block.rules line g.entering =
      some (action, captures, CommentMode.transition CommentMode.block way))
    (hline : answer m.line.rules line' k.entering =
      some (action, captures, CommentMode.transition CommentMode.line way)) :
    ∃ g' k', r.evaluate line g = .ok (g', (m.goes way).2) ∧
      r.evaluate line' k = .ok (k', (m.goes way).2) ∧ Mirror (m.goes way).1 g' k' := by
  have hname : g.state.name ≠ "lua" := by
    rw [h.block]
    exact m.block_name
  rw [← h.block] at hblock
  rw [← h.line] at hline
  obtain ⟨x, hx, hxa, hxc, hxn⟩ := State.matchLine_of_answer hblock
  obtain ⟨y, hy, hya, hyc, hyn⟩ := State.matchLine_of_answer hline
  obtain ⟨e, he⟩ := hg.act_ok hr hname hx
  obtain ⟨e', he', hdraft, hnext⟩ :=
    act_abreast (hxa.trans hya.symm) (hxc.trans hyc.symm) h.draft he
  have hen : e.next = none := by
    refine act_next (m.block_plain _ ?_) he
    rw [← h.block]
    exact State.matchLine_mem hx
  cases way with
  | none =>
      have ht : (e.next.getD x.rule.next).target? e.draft = none := by
        rw [hen, hxn]
        rfl
      have ht' : (e'.next.getD y.rule.next).target? e'.draft = none := by
        rw [hnext, hen, hyn]
        rfl
      obtain ⟨g', hg', hlg⟩ := @evaluate_of_stay r _ _ _ _ hx he ht
      obtain ⟨k', hk', hlk⟩ := @evaluate_of_stay r _ _ _ _ hy he' ht'
      refine ⟨g', k', hg', hk', hlg.state.trans h.block, hlk.state.trans h.line, ?_⟩
      rw [hlg.draft, hlk.draft]
      exact hdraft.symm
  | some way =>
      obtain ⟨m', again⟩ := way
      have ht : (e.next.getD x.rule.next).target? e.draft = some (m'.block.name, again) := by
        rw [hen, hxn]
        rfl
      have ht' : (e'.next.getD y.rule.next).target? e'.draft = some (m'.line.name, again) := by
        rw [hnext, hen, hyn]
        rfl
      have hf : r.grammar.find? m'.block.name = some m'.block := hr ▸ m'.find?_block
      have hf' : r.grammar.find? m'.line.name = some m'.line := hr ▸ m'.find?_line
      obtain ⟨g', hg', hlg⟩ := evaluate_of_move hx he ht hf
      obtain ⟨k', hk', hlk⟩ := evaluate_of_move hy he' ht' hf'
      refine ⟨g', k', hg', hk', hlg.state, hlk.state, ?_⟩
      rw [hlg.draft, hlk.draft]
      show g.state.crossTo m'.block e.draft = k.state.crossTo m'.line e'.draft
      rw [State.crossTo, State.crossTo, h.block, h.line, CommentMode.block_exit,
        CommentMode.line_exit, CommentMode.block_enter, CommentMode.line_enter, hdraft]

/-- An item is evaluated again in both forms or in none. -/
theorem evaluate_item (h : Mirror m g k) (hg : g.Coherent) (hr : r.grammar = Dialect.grammar)
    (hgood : item.Good) (hm : m.takes item) :
    ∃ g' k' m' again, r.evaluate item.inBlock g = .ok (g', again) ∧
      r.evaluate item.inLine k = .ok (k', again) ∧ Mirror m' g' k' ∧
      if again then m'.takes item else m'.ready item.allowsCode := by
  obtain ⟨⟨action, captures, next⟩, ⟨action', captures', next'⟩, hx, hy, ha⟩ :=
    bothAnswer hgood hm g.entering k.entering
  obtain ⟨way, hallows, hnext, hnext'⟩ := ha.next
  obtain rfl : action = action' := ha.action
  obtain rfl : captures = captures' := ha.captures
  obtain rfl : next = _ := hnext
  obtain rfl : next' = _ := hnext'
  obtain ⟨g', k', hg', hk', hm'⟩ := h.evaluate hg hr hx hy
  refine ⟨g', k', _, _, hg', hk', hm', ?_⟩
  rw [CommentMode.allows] at hallows
  split at hallows
  · next hagain => rwa [if_pos hagain]
  · next hagain => rwa [if_neg hagain]

/-- Both forms replay an item equally often. -/
theorem ends (h : Mirror m g k) (hg : g.Coherent) (hr : r.grammar = Dialect.grammar)
    (hgood : item.Good) (hm : m.takes item) {n : Nat} {o : Except Fault Reading}
    (ho : r.Ends item.inBlock g n o) :
    ∃ g' k' m', o = .ok g' ∧ r.Ends item.inLine k n (.ok k') ∧ Mirror m' g' k' ∧
      m'.ready item.allowsCode := by
  generalize hline : item.inBlock = line at ho
  induction ho generalizing k m with
  | fault he =>
      obtain ⟨g', k', m', again, hg', -, -, -⟩ := h.evaluate_item hg hr hgood hm
      rw [hline, he] at hg'
      cases hg'
  | done he =>
      obtain ⟨g', k', m', again, hg', hk', hm', hready⟩ := h.evaluate_item hg hr hgood hm
      rw [hline, he] at hg'
      cases hg'
      exact ⟨_, k', m', rfl, .done hk', hm', hready⟩
  | again he _ ih =>
      obtain ⟨g', k', m', again, hg', hk', hm', htakes⟩ := h.evaluate_item hg hr hgood hm
      rw [hline, he] at hg'
      cases hg'
      obtain ⟨g'', k'', m'', ho, hk'', hm'', hready⟩ := ih hm' (hg.evaluate hr he).1 htakes
      exact ⟨g'', k'', m'', ho, .again hk' hk'', hm'', hready⟩

theorem next_line (h : Mirror m g k) :
    Mirror m { g with line := g.line + 1 } { k with line := k.line + 1 } :=
  ⟨h.block, h.line, h.draft⟩

theorem feed (h : Mirror m g k) (hg : g.Coherent) (hk : k.Coherent)
    (hr : r.grammar = Dialect.grammar) (hbound : 3 ≤ r.maxReplay) (hgood : item.Good)
    (hm : m.takes item) :
    ∃ g' k' m', r.feed g item.inBlock = .ok g' ∧ r.feed k item.inLine = .ok k' ∧
      Mirror m' g' k' ∧ m'.ready item.allowsCode := by
  obtain ⟨n, o, -, ho⟩ := hg.exists_ends_le hr (isLine_of_not_mem hgood.inline.1)
  rw [item.trimmed_inBlock] at ho
  rw [← CommentMode.takes_trimmed] at hm
  obtain ⟨g', k', m', rfl, ho', hm', hready⟩ :=
    h.next_line.ends hg.next_line hr hgood.trimmed hm ho
  rw [← item.trimmed_inBlock] at ho
  rw [← item.trimmed_inLine] at ho'
  refine ⟨g', k', m', hg.feed_eq hr hbound (isLine_of_not_mem hgood.inline.1) ho,
    hk.feed_eq hr hbound (isLine_of_not_mem hgood.inline.2) ho', hm', ?_⟩
  rwa [CommentItem.allowsCode_trimmed] at hready

/-- Both forms of a comment are read through in lockstep. -/
theorem feedAll (h : Mirror m g k) (hg : g.Coherent) (hk : k.Coherent)
    (hr : r.grammar = Dialect.grammar) (hbound : 3 ≤ r.maxReplay) {afterGap : Bool}
    {items : List CommentItem} (hbody : CommentBody afterGap items) (hm : m.ready afterGap) :
    ∃ g' k' m' gap, r.feedAll g (items.map CommentItem.inBlock) = .ok g' ∧
      r.feedAll k (lineForm items) = .ok k' ∧ Mirror m' g' k' ∧ m'.ready gap := by
  induction hbody generalizing g k m with
  | nil => exact ⟨g, k, m, _, rfl, rfl, h, hm⟩
  | @cons afterGap item items hgood hcode _ ih =>
      obtain ⟨g', k', m', hg', hk', hm', hready⟩ :=
        h.feed hg hk hr hbound hgood (CommentMode.takes_of_ready hm hcode)
      obtain ⟨g'', k'', m'', gap, hg'', hk'', hm'', hready'⟩ :=
        ih hm' (hg.of_feed hr hg') (hk.of_feed hr hk') hready
      refine ⟨g'', k'', m'', gap, ?_, ?_, hm'', hready'⟩
      · rw [List.map_cons, feedAll_cons, hg']
        exact hg''
      · rw [lineForm, List.map_cons, feedAll_cons, hk']
        exact hk''

end Mirror

/-! ## Where a comment ends -/

/-- A line that ends a run of line comments is no directive, as those are comments
themselves. -/
theorem Dialect.lineStart_of_directive {s : Rule} (hs : s ∈ lua.rules)
    (ha : s.action = some .enableOption ∨ s.action = some .disableOption) {line : String}
    (h : s.pattern.accepts line) : lineStart.accepts line := by
  simp only [lua, List.mem_cons, List.not_mem_nil, or_false] at hs
  rcases hs with rfl | rfl | rfl | rfl | rfl | rfl | rfl | rfl | rfl | rfl | rfl | rfl
  case inr.inr.inr.inl | inr.inr.inr.inr.inl =>
    have h := accepts_of_append (accepts_of_append (accepts_of_append (accepts_of_append h)))
    exact accepts_of_append h
  all_goals rcases ha with ha | ha <;> cases ha

/-- So it is read in every coherent reading. -/
theorem Reading.Coherent.feed_uncommented (hg : g.Coherent) (hr : r.grammar = Dialect.grammar)
    (hbound : 3 ≤ r.maxReplay) {line : String} (hl : IsLine line)
    (hline : ¬ lineStart.accepts (dropLineEnd line)) : ∃ g', r.feed g line = .ok g' := by
  cases hf : r.feed g line with
  | ok g' => exact ⟨g', rfl⟩
  | error f =>
      obtain ⟨g', x, hreach, hname, hx, ha, -⟩ := hg.feed_error hr hbound hl hf
      obtain ⟨hg', -⟩ := hg.next_line.of_again hr hreach
      have hlua : g'.state = lua := hg'.in_source hname
      rw [hlua] at hx
      exact absurd (Dialect.lineStart_of_directive (State.matchLine_mem hx) ha
        (State.matchLine_accepts hx)) hline

namespace Resolver

theorem afterBlockComment_snd (d : Draft) : (afterBlockComment.target d).2 = false := by
  unfold target
  cases filled d.back <;> rfl

/-- Both forms lead to the same place; the line after a run of line comments is still to
be evaluated there. -/
theorem afterLineComment_eq (d : Draft) :
    afterLineComment.target d = ((afterBlockComment.target d).1, true) := by
  unfold target
  cases filled d.back <;> rfl

end Resolver

namespace Mirror

/-- In prose a block is closed by its end, and a run of line comments by the line after
it. -/
theorem close_prose (h : Mirror .prose g k) (hg : g.Coherent) (hr : r.grammar = Dialect.grammar)
    {line : String} (hline : (indent ++ notAhead "//" ++ visible).accepts line) :
    ∃ g' k', r.evaluate "*/" g = .ok (g', false) ∧ r.Again line k k' ∧ g'.Abreast k' := by
  obtain ⟨captures, hread⟩ := Option.isSome_iff_exists.1 hline
  have hcode : codeStart.read? line = none :=
    read?_append_eq_none (read?_eq_none_iff.2 (not_lineStart_of_visible hline)) _
  have hblock : answer g.state.rules "*/" g.entering =
      some (some .closeComment, [], .resolve .afterBlockComment) := by
    rw [h.block]
    exact answer_of_read? rfl rfl
  have hlines : answer k.state.rules line k.entering =
      some (some .closeComment, captures, .resolve .afterLineComment) := by
    rw [h.line]
    exact (answer_skip hcode _ _).trans (answer_of_read? rfl hread)
  obtain ⟨x, hx, hxa, -, hxn⟩ := State.matchLine_of_answer hblock
  obtain ⟨y, hy, hya, -, hyn⟩ := State.matchLine_of_answer hlines
  have he : act g x = .ok { draft := g.draft.closeComment } := by
    rw [act, hxa]
    rfl
  have he' : act k y = .ok { draft := g.draft.closeComment } := by
    rw [act, hya, h.draft]
    rfl
  generalize htarget : (Resolver.afterBlockComment.target g.draft.closeComment).1 = target
  have ht : ((none : Option Transition).getD x.rule.next).target? g.draft.closeComment =
      some (target, false) := by
    rw [Option.getD_none, hxn, Transition.target?, ← htarget,
      ← Resolver.afterBlockComment_snd g.draft.closeComment]
  have ht' : ((none : Option Transition).getD y.rule.next).target? g.draft.closeComment =
      some (target, true) := by
    rw [Option.getD_none, hyn, Transition.target?, ← htarget, Resolver.afterLineComment_eq]
  cases hf : r.grammar.find? target with
  | none =>
      refine absurd (evaluate_of_lost hx he ht hf) (hg.not_error hr ?_)
      rw [h.block]
      exact CommentMode.prose.block_name
  | some s =>
      obtain ⟨g', hg', hlg⟩ := evaluate_of_move hx he ht hf
      obtain ⟨k', hk', hlk⟩ := evaluate_of_move hy he' ht' hf
      refine ⟨g', k', hg', hk', hlg.state.trans hlk.state.symm,
        hlg.entering.trans hlk.entering.symm, ?_⟩
      rw [hlg.draft, hlk.draft]
      show g.state.crossTo s _ = k.state.crossTo s _
      rw [State.crossTo, State.crossTo, h.block, h.line, CommentMode.block_exit,
        CommentMode.line_exit]

/-- Elsewhere both lines lead back to prose first, with the same action. -/
theorem answers_close {line : String} (hm : m ≠ .prose) (hcode : m ≠ .firstCode)
    (hline : ¬ lineStart.accepts line) (entering entering' : Bool) :
    ∃ action, answer m.block.rules "*/" entering = some (action, [], .goTo "mgroup" true) ∧
      answer m.line.rules line entering' = some (action, [], .goTo "group" true) := by
  have hskip (q : Pattern) : (lineStart ++ q).read? line = none :=
    read?_append_eq_none (read?_eq_none_iff.2 hline) q
  have hskips (p q : Pattern) : (lineStart ++ p ++ q).read? line = none :=
    read?_append_eq_none (hskip p) q
  cases m with
  | prose => exact absurd rfl hm
  | gap => exact ⟨none, rfl, answer_skip (hskip _) _ _⟩
  | firstCode => exact absurd rfl hcode
  | code =>
      refine ⟨some .flush, rfl, ?_⟩
      have hfirst := read?_append_eq_none (hskips "   " (capture 0 anything)) stop
      exact (answer_skip hfirst _ _).trans (answer_skip (hskip _) _ _)
  | formula =>
      refine ⟨some .flush, rfl, ?_⟩
      have hlast := read?_append_eq_none (hskips spaces (capture 0 anything)) stop
      exact (answer_skip (hskip _) _ _).trans ((answer_skip (hskip _) _ _).trans
        ((answer_skip (hskips _ _) _ _).trans (answer_skip hlast _ _)))

/-- After the end of the block and at the evaluation of the next line where the run of
line comments has led to, the readings are abreast. -/
theorem close (h : Mirror m g k) (hg : g.Coherent) (hr : r.grammar = Dialect.grammar)
    (hcode : m ≠ .firstCode) {line : String}
    (hline : (indent ++ notAhead "//" ++ visible).accepts line) :
    ∃ g' k' n, r.Ends "*/" g n (.ok g') ∧ ReflTransGen (r.Again line) k k' ∧ g'.Abreast k' := by
  by_cases hm : m = .prose
  · subst hm
    obtain ⟨g', k', hg', hk', ha⟩ := h.close_prose hg hr hline
    exact ⟨g', k', 0, .done hg', ReflTransGen.single hk', ha⟩
  · obtain ⟨action, hx, hy⟩ :=
      answers_close hm hcode (not_lineStart_of_visible hline) g.entering k.entering
    have hx : answer m.block.rules "*/" g.entering =
        some (action, [], CommentMode.transition CommentMode.block (some (.prose, true))) := hx
    obtain ⟨g₁, k₁, hg₁, hk₁, h₁⟩ := h.evaluate hg hr hx hy
    obtain ⟨g', k', hg', hk', ha⟩ := h₁.close_prose (hg.evaluate hr hg₁).1 hr hline
    exact ⟨g', k', 1, .again hg₁ (.done hg'), (ReflTransGen.single hk').head hk₁, ha⟩

/-- Both forms of a comment are closed alike, and the line after them is read alike. -/
theorem feed_close (h : Mirror m g k) (hg : g.Coherent) (hk : k.Coherent)
    (hr : r.grammar = Dialect.grammar) (hbound : 3 ≤ r.maxReplay) (hcode : m ≠ .firstCode)
    {line : String} (hl : IsLine line) (hline : endsComment line) :
    ∃ g' k', r.feedAll g ["*/", line] = .ok g' ∧ r.feed k line = .ok k' ∧ g'.Abreast k' := by
  have hvisible := visible_of_endsComment hline
  obtain ⟨g₁, k₁, n, hg₁, hk₁, ha⟩ := h.next_line.close hg.next_line hr hcode hvisible
  have hclose : r.feed g "*/" = .ok g₁ := hg.feed_eq hr hbound (by decide) hg₁
  have hcoherent : g₁.Coherent := hg.of_feed hr hclose
  obtain ⟨g', hg'⟩ := hcoherent.feed_uncommented hr hbound hl (not_lineStart_of_visible hvisible)
  obtain ⟨n', o, hle, ho⟩ := hcoherent.exists_ends_le hr hl
  obtain rfl : o = .ok g' := (feed_of_ends ho hle hbound).symm.trans hg'
  have ha' : Reading.Abreast { g₁ with line := g₁.line + 1 } k₁ := ⟨ha.state, ha.entering, ha.draft⟩
  obtain ⟨k', hk', hab⟩ := ho.abreast rfl ha' rfl
  obtain ⟨n'', hends⟩ := Ends.of_reach hk₁ hk'
  exact ⟨g', k', feedAll_pair hclose hg', hk.feed_eq hr hbound hl hends, hab⟩

end Mirror

/-! ## Where a comment starts -/

/-- A comment may start before the first section, with the title of that section, and in
source, if its first line is taken for the start of a comment there. -/
def OpensComment (g : Reading) (c : String) : Prop :=
  (g.state.name = "start" ∧ ∃ title, title ≠ "" ∧ c = "# " ++ title) ∨
    (g.state.name = "lua" ∧ ∃ x, g.state.matchLine ("// " ++ c) g.entering = some x ∧
      x.rule.action = some .startComment)

theorem trimmed_text_inLine (c : String) : dropLineEnd ("// " ++ c) = "// " ++ dropLineEnd c :=
  (CommentItem.text c).trimmed_inLine

/-- The first item of a comment leaves the readings of both forms mirrors of each
other. -/
def Opened (r : Reader) (g : Reading) (c : String) : Prop :=
  ∃ g' k' m, r.feedAll g ["/*", c] = .ok g' ∧ r.feed g ("// " ++ c) = .ok k' ∧ Mirror m g' k' ∧
    m.ready false

/-- A run of line comments does not start as a block. -/
theorem blockStart_read? (item : CommentItem) : (lit "/*").read? item.inLine = none := by
  obtain ⟨cs, hline, -⟩ := item.inLine_eq
  refine read?_eq_none ?_
  rw [hline]
  rfl

/-- Source knows two starts of comments, one for each form. -/
theorem Dialect.startComment_cases {s : Rule} (hs : s ∈ lua.rules)
    (ha : s.action = some .startComment) :
    s.pattern = lit "/*" ∨ s.next = .goTo "group" true := by
  simp only [lua, List.mem_cons, List.not_mem_nil, or_false] at hs
  rcases hs with rfl | rfl | rfl | rfl | rfl | rfl | rfl | rfl | rfl | rfl | rfl | rfl
  case inr.inr.inr.inr.inr.inr.inr.inr.inl => exact Or.inr rfl
  case inr.inr.inr.inr.inr.inr.inr.inr.inr.inr.inl => exact Or.inl rfl
  all_goals cases ha

theorem evaluate_goTo {line : String} {x : LineMatch} {d : Draft} {target : String} {again : Bool}
    {s : State} (hr : r.grammar = Dialect.grammar)
    (hx : g.state.matchLine line g.entering = some x) (he : act g x = .ok { draft := d })
    (hn : x.rule.next = .goTo target again) (hf : grammar.find? target = some s) :
    ∃ g', r.evaluate line g = .ok (g', again) ∧ g'.state = s ∧
      g'.draft = g.state.crossTo s d := by
  have ht : ((none : Option Transition).getD x.rule.next).target? d = some (target, again) := by
    rw [hn]
    rfl
  rw [← hr] at hf
  obtain ⟨g', hg', hlg⟩ := evaluate_of_move hx he ht hf
  exact ⟨g', hg', hlg.state, hlg.draft⟩

/-- A line that only leads on leaves the rest to the hooks. -/
theorem evaluate_silent {line : String} {captures : Captures} {target : String} {again : Bool}
    {s : State} (hr : r.grammar = Dialect.grammar)
    (h : answer g.state.rules line g.entering = some (none, captures, .goTo target again))
    (hf : grammar.find? target = some s) :
    ∃ g', r.evaluate line g = .ok (g', again) ∧
      g'.Like { g with state := s, entering := true, draft := g.state.crossTo s g.draft } := by
  obtain ⟨x, hx, ha, -, hn⟩ := State.matchLine_of_answer h
  have he : act g x = .ok { draft := g.draft } := by
    rw [act, ha]
  have ht : ((none : Option Transition).getD x.rule.next).target? g.draft =
      some (target, again) := by
    rw [hn]
    rfl
  rw [← hr] at hf
  exact evaluate_of_move hx he ht hf

theorem opened_in_source {c : String} (hg : g.Coherent) (hr : r.grammar = Dialect.grammar)
    (hbound : 3 ≤ r.maxReplay) (hgood : (CommentItem.text c).Good) (hs : g.state = lua)
    {y : LineMatch} (hy : g.state.matchLine ("// " ++ dropLineEnd c) g.entering = some y)
    (hya : y.rule.action = some .startComment) : Opened r g c := by
  have hanswer : answer g.state.rules "/*" g.entering =
      some (some .startComment, [], .goTo "mgroup" false) := by
    rw [hs]
    rfl
  obtain ⟨x, hx, hxa, -, hxn⟩ := State.matchLine_of_answer hanswer
  have hyn : y.rule.next = .goTo "group" true := by
    have hmem := State.matchLine_mem hy
    rw [hs] at hmem
    refine (Dialect.startComment_cases hmem hya).resolve_left ?_
    intro hpattern
    have hread := State.matchLine_read hy
    rw [hpattern] at hread
    cases (blockStart_read? (.text (dropLineEnd c))).symm.trans hread
  -- the first evaluation starts the comment, in either form
  have hstart {z : LineMatch} (hz : z.rule.action = some .startComment) :
      act { g with line := g.line + 1 } z = .ok { draft := g.draft.freshGroup } := by
    rw [act, hz]
    rfl
  obtain ⟨g₁, hg₁, hsg, hdg⟩ := @evaluate_goTo r { g with line := g.line + 1 } _ _ _ _ _ mgroup hr
    hx (hstart hxa) hxn rfl
  obtain ⟨k₁, hk₁, hsk, hdk⟩ := @evaluate_goTo r { g with line := g.line + 1 } _ _ _ _ _ group hr
    hy (hstart hya) hyn rfl
  have hmirror : Mirror .prose g₁ k₁ := ⟨hsg, hsk, hdg.trans hdk.symm⟩
  have hopen : r.feed g "/*" = .ok g₁ := hg.feed_eq hr hbound (by decide) (.done hg₁)
  have hcoherent : g₁.Coherent := hg.of_feed hr hopen
  -- the run of line comments evaluates its first line again where the block reads its second one
  obtain ⟨n, o, -, ho⟩ := hcoherent.exists_ends_le hr (isLine_of_not_mem hgood.inline.1)
  have hafter : Mirror .prose { g₁ with line := g₁.line + 1 } k₁ :=
    ⟨hmirror.block, hmirror.line, hmirror.draft⟩
  obtain ⟨g', k', m', rfl, ho', hm', hready⟩ :=
    hafter.ends hcoherent.next_line hr hgood.trimmed rfl ho
  have hsecond : r.feed g₁ c = .ok g' :=
    hcoherent.feed_eq hr hbound (isLine_of_not_mem hgood.inline.1) ho
  have hline := Ends.again hk₁ ho'
  rw [← trimmed_text_inLine] at hline
  exact ⟨g', k', m', feedAll_pair hopen hsecond,
    hg.feed_eq hr hbound (isLine_of_not_mem hgood.inline.2) hline, hm', hready⟩

/-- The title of a section is taken alike in both forms. -/
theorem sectionTitle_read? {c title : String} (hgood : (CommentItem.text c).Good)
    (htitle : title ≠ "") (hc : c = "# " ++ title) :
    ∃ captures, sectionTitle.read? c = some captures ∧
      (lineStart ++ sectionTitle).read? ("// " ++ c) = some captures := by
  have hsome : (sectionTitle.read? c).isSome := by
    refine read?_isSome_of_spaces (q := "# " ++ (capture 0 something ++ stop)) rfl ?_
    have hchars : c.toList = '#' :: ' ' :: title.toList := by simp [hc]
    rw [hchars]
    cases ht : title.toList with
    | nil => exact absurd (String.toList_eq_nil_iff.1 ht) htitle
    | cons x xs =>
        have hnl : '\n' ∉ x :: xs := by
          intro hmem
          exact hgood.1 (by rw [hchars, ht]; simp [hmem])
        have hfollow : ((lit "# ") ++ (capture 0 something ++ stop)).follow done
            ⟨none, ('#' :: ' ' :: x :: xs).dropWhile (· = ' ')⟩ [] =
            some [(0, ⟨x :: xs, []⟩)] := follow_something hnl []
        rw [hfollow]
        rfl
  obtain ⟨captures, hread⟩ := Option.isSome_iff_exists.1 hsome
  refine ⟨captures, hread, ?_⟩
  rw [← hread]
  show (lineStart ++ sectionTitle).read? (CommentItem.text c).inLine =
    sectionTitle.read? (CommentItem.text c).inBlock
  exact read?_mirrored (q := "# " ++ (capture 0 something ++ stop)) (follow_congr steady_done) rfl
    rfl rfl (.inr (.of_none fun _ _ _ => rfl))

theorem opened_at_start {c title : String} (hg : g.Coherent) (hr : r.grammar = Dialect.grammar)
    (hbound : 3 ≤ r.maxReplay) (hgood : (CommentItem.text c).Good) (hs : g.state = Dialect.start)
    (htitle : title ≠ "") (hc : dropLineEnd c = "# " ++ title) : Opened r g c := by
  obtain ⟨captures, hblock, hline⟩ := sectionTitle_read? hgood.trimmed htitle hc
  have hx : answer g.state.rules "/*" g.entering = some (none, [], .goTo "preamble" false) := by
    rw [hs]
    rfl
  have hy : answer g.state.rules ("// " ++ dropLineEnd c) g.entering =
      some (some .preambleSection, captures, .goTo "group" false) := by
    rw [hs]
    have hopening := blockStart_read? (.text (dropLineEnd c))
    have hwhole := read?_append_eq_none (read?_append_eq_none (read?_append_eq_none
      (read?_append_eq_none hopening anything) "*/") spaces) stop
    refine (answer_skip (r := Dialect.start.rules[0]) hwhole _ _).trans ?_
    refine (answer_skip (r := Dialect.start.rules[1]) hopening _ _).trans ?_
    exact answer_of_read? (r := Dialect.start.rules[2]) rfl hline
  obtain ⟨x, hx, hxa, -, hxn⟩ := State.matchLine_of_answer hx
  obtain ⟨y, hy, hya, hyc, hyn⟩ := State.matchLine_of_answer hy
  have hact {z : LineMatch} {h : Reading} (hz : z.rule.action = some .preambleSection)
      (hzc : z.captures = captures) :
      act h z = .ok { draft := Action.openPreamble h.draft (captures.text 0) } := by
    rw [act, hz, ← hzc]
    rfl
  have hskip : act { g with line := g.line + 1 } x = .ok { draft := g.draft } := by
    rw [act, hxa]
  obtain ⟨g₁, hg₁, hsg, hdg⟩ := @evaluate_goTo r { g with line := g.line + 1 } _ _ _ _ _ preamble hr
    hx hskip hxn rfl
  have hopen : r.feed g "/*" = .ok g₁ := hg.feed_eq hr hbound (by decide) (.done hg₁)
  have hcoherent : g₁.Coherent := hg.of_feed hr hopen
  have hz : answer g₁.state.rules (dropLineEnd c) g₁.entering =
      some (some .preambleSection, captures, .goTo "mgroup" false) := by
    rw [hsg]
    exact answer_of_read? (r := preamble.rules[0]) rfl hblock
  obtain ⟨z, hz, hza, hzc, hzn⟩ := State.matchLine_of_answer hz
  obtain ⟨g', hg', hsg', hdg'⟩ := @evaluate_goTo r { g₁ with line := g₁.line + 1 } _ _ _ _ _ mgroup
    hr hz (hact hza hzc) hzn rfl
  obtain ⟨k', hk', hsk, hdk⟩ := @evaluate_goTo r { g with line := g.line + 1 } _ _ _ _ _ group hr
    hy (hact hya hyc) hyn rfl
  have hsecond : r.feed g₁ c = .ok g' :=
    hcoherent.feed_eq hr hbound (isLine_of_not_mem hgood.inline.1) (.done hg')
  have hlines := Ends.done hk'
  rw [← trimmed_text_inLine] at hlines
  refine ⟨g', k', .prose, feedAll_pair hopen hsecond,
    hg.feed_eq hr hbound (isLine_of_not_mem hgood.inline.2) hlines, ⟨hsg', hsk, ?_⟩, rfl⟩
  rw [hdg', hdk]
  show g₁.state.crossTo mgroup (Action.openPreamble g₁.draft _) =
    g.state.crossTo group (Action.openPreamble g.draft _)
  rw [hdg, hsg, hs]
  rfl

theorem opened {c : String} (hg : g.Coherent) (hr : r.grammar = Dialect.grammar)
    (hbound : 3 ≤ r.maxReplay) (hgood : (CommentItem.text c).Good)
    (hopen : OpensComment g (dropLineEnd c)) : Opened r g c := by
  rcases hopen with ⟨hname, title, htitle, hc⟩ | ⟨hname, y, hy, hya⟩
  · have hs : g.state = Dialect.start := Dialect.eq_of_name hg.state (by simp [states]) hname
    exact opened_at_start hg hr hbound hgood hs htitle hc
  · have hs : g.state = lua := hg.in_source hname
    exact opened_in_source hg hr hbound hgood hs hy hya

/-! ## The whole comment -/

/-- A comment reads the same in both forms, from its first line to the line after it. -/
theorem Reading.Coherent.comment_forms (hg : g.Coherent) (hr : r.grammar = Dialect.grammar)
    (hbound : 3 ≤ r.maxReplay) {c : String} {items : List CommentItem}
    (hbody : CommentBody false (.text c :: items)) (hopen : OpensComment g (dropLineEnd c))
    {line : String} (hl : IsLine line) (hline : endsComment line) :
    ∃ g' k', r.feedAll g (blockForm (.text c :: items) ++ [line]) = .ok g' ∧
      r.feedAll g (lineForm (.text c :: items) ++ [line]) = .ok k' ∧ g'.Abreast k' := by
  cases hbody with
  | cons hgood _ hrest =>
      obtain ⟨g₁, k₁, m, hg₁, hk₁, hm, hready⟩ := opened hg hr hbound hgood hopen
      have hcg₁ : g₁.Coherent := (hg.feedAll hr hg₁).1
      have hck₁ : k₁.Coherent := hg.of_feed hr hk₁
      obtain ⟨g₂, k₂, m', gap, hg₂, hk₂, hm', hready'⟩ :=
        hm.feedAll hcg₁ hck₁ hr hbound hrest hready
      have hcg₂ : g₂.Coherent := (hcg₁.feedAll hr hg₂).1
      have hck₂ : k₂.Coherent := (hck₁.feedAll hr hk₂).1
      have hcode : m' ≠ .firstCode := by
        rintro rfl
        cases hready'
      obtain ⟨g₃, k₃, hg₃, hk₃, ha⟩ := hm'.feed_close hcg₂ hck₂ hr hbound hcode hl hline
      refine ⟨g₃, k₃, ?_, ?_, ha⟩
      · have hform : blockForm (.text c :: items) ++ [line] =
            ["/*", c] ++ (items.map CommentItem.inBlock ++ ["*/", line]) := by
          simp [blockForm, CommentItem.inBlock]
        rw [hform, feedAll_append, hg₁]
        show r.feedAll g₁ _ = _
        rw [feedAll_append, hg₂]
        exact hg₃
      · have hform : lineForm (.text c :: items) ++ [line] =
            ("// " ++ c) :: (lineForm items ++ [line]) := by
          simp [lineForm, CommentItem.inLine]
        rw [hform, feedAll_cons, hk₁]
        show r.feedAll k₁ _ = _
        rw [feedAll_append, hk₂]
        show r.feedAll k₂ [line] = _
        rw [feedAll_cons, hk₃]
        rfl

/-- A comment leaves the same behind whether it is written as a block or as a run of line
comments: the line after it finds the same state and the same draft, and the documents are
the same. -/
theorem comment_forms_agree {settings : Settings} (hbound : 3 ≤ settings.maxReplay) {q : Request}
    {before : List String} {g : Reading} (hg : readingAfter settings q before = .ok g) {c : String}
    {items : List CommentItem} (hbody : CommentBody false (.text c :: items))
    (hopen : OpensComment g (dropLineEnd c)) {line : String} (hl : IsLine line)
    (hline : endsComment line) :
    ∃ g' k', settings.reader.feedAll g (blockForm (.text c :: items) ++ [line]) = .ok g' ∧
      settings.reader.feedAll g (lineForm (.text c :: items) ++ [line]) = .ok k' ∧
      g'.state = k'.state ∧ g'.entering = k'.entering ∧ g'.draft = k'.draft ∧
      (finishReading g').1 = (finishReading k').1 := by
  obtain ⟨hc, -⟩ := readingAfter_steps hg
  obtain ⟨g', k', hg', hk', ha⟩ :=
    hc.comment_forms (r := settings.reader) rfl hbound hbody hopen hl hline
  exact ⟨g', k', hg', hk', ha.state, ha.entering, ha.draft, finishReading_congr ha⟩

/-- A comment with code in it, in front of a function. -/
theorem comment_forms_agree_function :
    3 ≤ ({} : Settings).maxReplay ∧
      ∃ g, readingAfter {} { name := some "d" } ["// # T", ""] = .ok g ∧
        CommentBody false [.text "Adds.", .blank, .code "f(1)"] ∧ OpensComment g "Adds." ∧
        IsLine "function f(a)" ∧ endsComment "function f(a)" ∧
        ∃ g' k', (Settings.reader {}).feedAll g
            ["/*", "Adds.", "", "    f(1)", "*/", "function f(a)"] = .ok g' ∧
          (Settings.reader {}).feedAll g
            ["// Adds.", "//", "//   f(1)", "function f(a)"] = .ok k' ∧
          g'.state = k'.state ∧ g'.entering = k'.entering ∧ g'.draft = k'.draft ∧
          (finishReading g').1 = (finishReading k').1 := by
  have hbound : 3 ≤ ({} : Settings).maxReplay := by decide
  have hbody : CommentBody false [.text "Adds.", .blank, .code "f(1)"] :=
    .cons (by decide) (by decide) (.cons (by decide) (by decide)
      (.cons (by decide) (by decide) .nil))
  have hl : IsLine "function f(a)" := by decide
  have hline : endsComment "function f(a)" := by decide
  have hrun : (match readingAfter {} { name := some "d" } ["// # T", ""] with
      | .error _ => false
      | .ok g =>
        g.state.name = "lua" && (g.state.matchLine "// Adds." g.entering).any fun x =>
          x.rule.action = some .startComment) = true := by
    decide +kernel
  split at hrun
  · cases hrun
  · next g hg =>
      rw [Bool.and_eq_true, decide_eq_true_eq, Option.any_eq_true] at hrun
      obtain ⟨hname, x, hx, hxa⟩ := hrun
      have hopen : OpensComment g "Adds." := Or.inr ⟨hname, x, hx, of_decide_eq_true hxa⟩
      exact ⟨hbound, g, hg, hbody, hopen, hl, hline,
        comment_forms_agree hbound hg hbody hopen hl hline⟩

end DocComment
