import DocComment.Proofs.Replays

/-!
# Parsing ends in a document

What becomes of a source, whatever is in it. `Settles` collects the promises: there is a
document, unless a directive in source asks for an option that is not there, and then the
fault names the line of that directive; no line is replayed more than three times; and
neither a higher bound on replays nor a trace changes what comes out. `parseLines_settles`
keeps them for every list of lines, and so for every text and every file.

The argument is an induction on the lines with a coherent reading (`feedAll_total`). A
coherent reading meets no fault but the one of a directive
(`Reading.Coherent.evaluate_error`), and each line ends before the bound is looked at
(`Reading.Coherent.exists_ends_le`).
-/

namespace DocComment

open Text Relation Reader

/-- When a reading comes to a line, the state of source takes the line as a directive, at
once or after replays, and refuses it. -/
def RefusesDirective (r : Reader) (g : Reading) (line : String) (f : Fault) : Prop :=
  ∃ g' m, ReflTransGen (r.Again (dropLineEnd line)) { g with line := g.line + 1 } g' ∧
    g'.state.name = "lua" ∧ g'.state.matchLine (dropLineEnd line) g'.entering = some m ∧
    (m.rule.action = some .enableOption ∨ m.rule.action = some .disableOption) ∧
    f = .source (.badOption (trim (m.captures.text 0)))
      ⟨some (g.line + 1 : Nat), some g'.draft.file⟩

/-- What is promised of a source. -/
structure Settles (settings : Settings) (q : Request) (lines : List String) : Prop where
  /-- There is a document, or a fault that names the line of a refused directive. -/
  outcome : (∃ doc log, parseLines settings q lines = .ok (doc, log)) ∨
    ∃ before line after g f, lines = before ++ line :: after ∧
      readingAfter settings q before = .ok g ∧ g.line = before.length ∧
      RefusesDirective settings.reader g line f ∧ parseLines settings q lines = .error f
  /-- Every line that is read is replayed at most three times. -/
  replays : ∀ before line after g, lines = before ++ line :: after →
    readingAfter settings q before = .ok g →
    ∃ n o, n ≤ 3 ∧
      settings.reader.Ends (dropLineEnd line) { g with line := g.line + 1 } n o
  /-- The bound on replays and the trace do not matter. -/
  independent : ∀ (bound : Int) (trace : Bool), 3 ≤ bound →
    (parseLines { settings with maxReplay := bound, trace } q lines).map Prod.fst =
      (parseLines settings q lines).map Prod.fst

/-! ## Reading all lines -/

variable {r : Reader} {g : Reading}

theorem Reading.Coherent.of_feed (hg : g.Coherent) (hr : r.grammar = Dialect.grammar)
    {line : String} {g' : Reading} (h : r.feed g line = .ok g') : g'.Coherent :=
  (hg.feed hr h).1

theorem Reading.Coherent.feed_error (hg : g.Coherent) (hr : r.grammar = Dialect.grammar)
    (hbound : 3 ≤ r.maxReplay) {line : String} (hl : IsLine line) {f : Fault}
    (h : r.feed g line = .error f) : RefusesDirective r g line f := by
  obtain ⟨n, o, hn, ho⟩ := hg.exists_ends_le hr hl
  rw [feed_of_ends ho hn hbound] at h
  obtain ⟨g', hreach, he⟩ := ho.error h
  have hg' : Reading.Coherent { g with line := g.line + 1 } := ⟨hg.state, hg.fits⟩
  obtain ⟨hc, hline⟩ := hg'.of_again hr hreach
  obtain ⟨m, hm, hname, ha, hf⟩ := hc.evaluate_error hr he
  refine ⟨g', m, hreach, hname, hm, ha, ?_⟩
  rw [hf, hline]

/-- Lines are read to the last one, or to one that is refused. -/
theorem Reading.Coherent.feedAll_total (hg : g.Coherent) (hr : r.grammar = Dialect.grammar)
    (hbound : 3 ≤ r.maxReplay) {lines : List String} (hl : ∀ line ∈ lines, IsLine line) :
    (∃ g', r.feedAll g lines = .ok g') ∨
      ∃ before line after g' f, lines = before ++ line :: after ∧ r.feedAll g before = .ok g' ∧
        g'.line = g.line + before.length ∧ RefusesDirective r g' line f ∧
        r.feedAll g lines = .error f := by
  induction lines generalizing g with
  | nil => exact Or.inl ⟨g, rfl⟩
  | cons line lines ih =>
      cases hf : r.feed g line with
      | error f =>
          have href := hg.feed_error hr hbound (hl line List.mem_cons_self) hf
          refine Or.inr ⟨[], line, lines, g, f, rfl, rfl, rfl, href, ?_⟩
          rw [feedAll_cons, hf]
          rfl
      | ok g' =>
          have hstep (ls : List String) : r.feedAll g (line :: ls) = r.feedAll g' ls := by
            rw [feedAll_cons, hf]
            rfl
          have ih := ih (hg.of_feed hr hf) fun l hmem => hl l (List.mem_cons_of_mem _ hmem)
          rcases ih with ⟨h, hh⟩ | ⟨before, line', after, h, f, rfl, hh, hn, href, hfault⟩
          · exact Or.inl ⟨h, (hstep _).trans hh⟩
          · refine Or.inr ⟨line :: before, line', after, h, f, rfl, (hstep _).trans hh, ?_, href,
              (hstep _).trans hfault⟩
            rw [hn, feed_line hf, List.length_cons]
            omega

/-- Readers of the same grammar read alike, if neither of them has a bound below three. -/
theorem Reading.Coherent.feedAll_alike (hg : g.Coherent) (hr : r.grammar = Dialect.grammar)
    (hbound : 3 ≤ r.maxReplay) {r' : Reader} (hr' : r.grammar = r'.grammar)
    (hbound' : 3 ≤ r'.maxReplay) {g' : Reading} (hlike : g.Like g') {lines : List String}
    (hl : ∀ line ∈ lines, IsLine line) : Alike (r.feedAll g lines) (r'.feedAll g' lines) := by
  induction lines generalizing g g' with
  | nil => exact .ok hlike
  | cons line lines ih =>
      obtain ⟨n, o, hn, ho⟩ := hg.exists_ends_le hr (hl line List.mem_cons_self)
      have hnext : Reading.Like { g with line := g.line + 1 } { g' with line := g'.line + 1 } :=
        ⟨hlike.state, hlike.entering, congrArg (· + 1) hlike.line, hlike.draft⟩
      obtain ⟨o', ho', ha⟩ := ho.congr hr' hnext
      have hf := feed_of_ends ho hn hbound
      have hf' := feed_of_ends ho' hn hbound'
      rw [feedAll_cons, feedAll_cons, hf, hf']
      cases ha with
      | error f => exact .error f
      | ok h =>
          exact ih (hg.of_feed hr hf) h fun l hmem => hl l (List.mem_cons_of_mem _ hmem)

/-- What is read out of a reading depends neither on its log nor on the number of its
line. -/
theorem finishReading_congr {g' : Reading} (h : g.Abreast g') :
    (finishReading g).1 = (finishReading g').1 := by
  show (finish g).draft.finish.1.document = (finish g').draft.finish.1.document
  rw [finish_draft, finish_draft, h.state, h.draft]

/-! ## Parsing -/

theorem parseLines_eq (settings : Settings) (q : Request) (lines : List String) :
    parseLines settings q lines = (readingAfter settings q lines).map finishReading := by
  rw [parseLines, readingAfter]
  cases q.named with
  | error f => rfl
  | ok named =>
      obtain ⟨name, q'⟩ := named
      obtain ⟨log, hs⟩ := startReading_eq settings name q'
      simp only [bind, Except.bind, hs]
      cases settings.reader.feedAll _ lines <;> rfl

/-- Every source settles, if lines may be replayed three times. -/
theorem parseLines_settles {settings : Settings} (hbound : 3 ≤ settings.maxReplay) {q : Request}
    {named : String × Request} (hq : q.named = .ok named) :
    (∀ lines : List String, (∀ line ∈ lines, IsLine line) → Settles settings q lines) ∧
      (∀ text, Settles settings q (Text.lines text)) ∧
      ∀ e bytes, Settles settings q (Source.readFile e bytes).lines := by
  have hall : ∀ lines : List String, (∀ line ∈ lines, IsLine line) →
      Settles settings q lines := by
    intro lines hl
    obtain ⟨g, hg, hzero, -, hreads⟩ := readingAfter_eq settings hq
    have hread := hreads settings.maxReplay settings.trace
    refine ⟨?_, ?_, ?_⟩
    · rcases hg.feedAll_total (r := settings.reader) rfl hbound hl with
        ⟨g', hg'⟩ | ⟨before, line, after, g', f, hlines, hbefore, hline, href, hf⟩
      · refine Or.inl ⟨(finishReading g').1, (finishReading g').2, ?_⟩
        rw [parseLines_eq]
        exact congrArg (Except.map finishReading) ((hread lines).trans hg')
      · refine Or.inr
          ⟨before, line, after, g', f, hlines, (hread before).trans hbefore, ?_, href, ?_⟩
        · rw [hline, hzero, Nat.zero_add]
        · rw [parseLines_eq]
          exact congrArg (Except.map finishReading) ((hread lines).trans hf)
    · intro before line after g' hlines hbefore
      have hg' := (hg.feedAll rfl ((hread before).symm.trans hbefore)).1
      exact hg'.exists_ends_le rfl (hl line (by rw [hlines]; simp))
    · intro bound trace hbound'
      have ha : Alike (Reader.feedAll { maxReplay := bound, trace } g lines)
          (settings.reader.feedAll g lines) :=
        hg.feedAll_alike rfl hbound' (show Dialect.grammar = settings.reader.grammar from rfl)
          hbound (Reading.Like.refl g) hl
      have heq : readingAfter settings q lines = settings.reader.feedAll g lines := hread lines
      rw [parseLines_eq, parseLines_eq, hreads bound trace lines, heq]
      generalize Reader.feedAll _ g lines = o at ha ⊢
      generalize settings.reader.feedAll g lines = o' at ha ⊢
      cases ha with
      | error f => rfl
      | ok h => exact congrArg Except.ok (finishReading_congr h.abreast)
  exact ⟨hall, fun text => hall _ fun _ => isLine_of_mem_lines,
    fun e bytes => hall _ fun _ => isLine_of_mem_readFile⟩

/-- The default settings allow eight replays, and any name will do. -/
theorem parseLines_settles_default :
    3 ≤ ({} : Settings).maxReplay ∧
      ({ name := some "d" } : Request).named = .ok ("d", { name := some "d" }) ∧
      Settles {} { name := some "d" } ["// # T", "", "// doc:none\r\n"] ∧
      Settles {} { name := some "d" } (Text.lines "/* # T */\nx = 1") :=
  have hs := @parseLines_settles {} (by decide) { name := some "d" } _ rfl
  ⟨by decide, rfl, hs.1 _ (by decide +kernel), hs.2.1 _⟩

end DocComment
