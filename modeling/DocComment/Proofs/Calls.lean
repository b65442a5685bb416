import DocComment.Proofs.Captures
import DocComment.Proofs.Consistency
import DocComment.Proofs.LinePatterns

/-!
# What is done to a draft, as calls

The operations on drafts are functions of many shapes. `Call` has one constructor for each
of them, with its arguments, and `Call.run` performs it; so "every sequence of operations"
is a list, and a property of drafts that every call keeps holds all along such a list,
whatever it says.

What an action does is done by calls as well (`Action.called_run`), and by tame ones: no
group is placed by its name, and where the source has no line feeds within its lines the
texts of the calls have none either, as they are parts of the lines. Text is added on a
line of its own only to code and formulas; that is no matter of the action alone, so it is
taken for granted here.
-/

namespace DocComment

open Text Relation Reader

/-! ## Calls -/

/-- An operation on a draft, with its arguments. -/
inductive Call where
  | openSection (title : String)
  | ensureSection (reason : Option String)
  | freshGroup
  | place
  | placeGroup (group : GroupId)
  | addHeading (text : String) (level : HeadingLevel)
  | addTableStart (name : String) (lead : Option String)
  | addTableEnd
  | declareFunction (binding : Binding) (name : String) (params : Option String)
  | declareConstant (name : String)
  | declareParam (key : String) (definition : Option String) (kind : ParamKind)
  | openTable (key : String) (lead : Option String)
  | closeTable
  | addKeyword (whole keyword text : String)
  | addTodo (text : String)
  | appendText (text : String) (onNewLine : Bool)
  | appendItem (marker text : String) (definition : Option String)
  | openCode (firstLine : String)
  | openFormula (mode : MathMode) (text : Option String)
  | flush
  | closeComment
  | applyDirective (option : String) (enabled : Bool) (line : Option Int)
  | flagUndocumented
  | startCapture
  | captureLine (line : String)
  | finishCapture
  /-- Sets the style that the next paragraph gets. -/
  | setStyle (style : Option String)
  /-- Sets the state to go back to after a comment. -/
  | setBack (state : Option String)
  /-- The source of the function that was declared last ends. -/
  | leaveFunction

namespace Call

/-- Performs a call. -/
def run (call : Call) (d : Draft) : Except Fault Draft :=
  match call with
  | openSection title => .ok (d.openSection title)
  | ensureSection reason => (d.ensureSectionFor reason).map (·.1)
  | freshGroup => .ok d.freshGroup
  | place => .ok d.place
  | placeGroup i => .ok (d.placeGroup i)
  | addHeading text level => .ok (d.addHeading text level)
  | addTableStart name lead => .ok (d.addTableStart name lead)
  | addTableEnd => .ok d.addTableEnd
  | declareFunction binding name params => .ok (d.declareFunction binding name params)
  | declareConstant name => .ok (d.declareConstant name)
  | declareParam key definition kind => d.declareParam key definition kind
  | openTable key lead => .ok (d.openTable key lead)
  | closeTable => .ok d.closeTable
  | addKeyword whole keyword text => d.addKeyword whole keyword text
  | addTodo text => .ok (d.addTodo text)
  | appendText text onNewLine => d.appendText text onNewLine
  | appendItem marker text definition => .ok (d.appendItem (.marked marker text definition))
  | openCode firstLine => .ok (d.openCode firstLine)
  | openFormula mode text => .ok (d.openFormula mode text)
  | flush => .ok d.flush
  | closeComment => .ok d.closeComment
  | applyDirective option enabled line => d.applyDirective option enabled line
  | flagUndocumented => .ok d.flagUndocumented
  | startCapture => .ok d.startCapture
  | captureLine line => .ok (d.captureLine line)
  | finishCapture => .ok d.finishCapture
  | setStyle style => .ok { d with nextStyle := style }
  | setBack state => .ok { d with back := state }
  | leaveFunction => .ok { d with functionGroup := none }

/-- The texts of a call that go into prose, where no line ends. -/
def texts : Call → List String
  | addHeading text _ | addTodo text | appendText text _ => [text]
  | addKeyword whole _ text => [whole, text]
  | appendItem _ text definition => text :: definition.toList
  | _ => []

/-- Whether a call adds text on a line of its own. -/
def onNewLine : Call → Bool
  | appendText _ onNewLine => onNewLine
  | _ => false

/-- The group that a call places by its name. -/
def placed? : Call → Option GroupId
  | placeGroup i => some i
  | _ => none

end Call

/-- Whether an entry keeps the lines of its text apart. -/
def Entry.takesLines : Entry → Bool
  | code _ | formula _ => true
  | _ => false

namespace Draft

/-- Performs calls in order. -/
def callAll (d : Draft) (calls : List Call) : Except Fault Draft :=
  calls.foldlM (fun d call => call.run d) d

/-- A call as it is made while a source is read. If the source is a clean one, of which
the lines have no line feeds, then its texts have none, and only code and formulas get
any. -/
structure Tame (clean : Prop) (d : Draft) (call : Call) : Prop where
  unnamed : call.placed? = none
  texts : clean → ∀ t ∈ call.texts, '\n' ∉ t.toList
  newLine : clean → call.onNewLine → d.pending.any Entry.takesLines

/-- The second draft is the first one after a call that is made while a source is read. -/
def Called (clean : Prop) (d e : Draft) : Prop :=
  ∃ call : Call, Tame clean d call ∧ call.run d = .ok e

variable {clean : Prop} {d e : Draft}

/-- A call without texts, which most of them are. -/
theorem Called.silent (call : Call) (hc : call.texts.isEmpty && call.placed?.isNone)
    (h : call.run d = .ok e) : Called clean d e := by
  rw [Bool.and_eq_true, List.isEmpty_iff, Option.isNone_iff_eq_none] at hc
  refine ⟨call, ⟨hc.2, ?_, ?_⟩, h⟩
  · rw [hc.1]
    exact fun _ _ ht => absurd ht List.not_mem_nil
  · intro _ hn
    cases call with
    | appendText => cases hc.1
    | _ => cases hn

theorem Called.of_text {text : String} {onNewLine : Bool} (ht : clean → '\n' ∉ text.toList)
    (hn : clean → onNewLine → d.pending.any Entry.takesLines)
    (h : d.appendText text onNewLine = .ok e) : Called clean d e :=
  ⟨.appendText text onNewLine, ⟨rfl, fun hc _ hm => List.mem_singleton.1 hm ▸ ht hc, hn⟩, h⟩

theorem Called.of_keyword {whole keyword text : String} (hw : clean → '\n' ∉ whole.toList)
    (ht : clean → '\n' ∉ text.toList) (h : d.addKeyword whole keyword text = .ok e) :
    Called clean d e := by
  refine ⟨.addKeyword whole keyword text, ⟨rfl, fun hc t hm => ?_, fun _ hn => by cases hn⟩, h⟩
  rcases List.mem_cons.1 hm with rfl | hm
  · exact hw hc
  · exact List.mem_singleton.1 hm ▸ ht hc

theorem Called.of_heading {text : String} {level : HeadingLevel}
    (ht : clean → '\n' ∉ text.toList) : Called clean d (d.addHeading text level) :=
  ⟨.addHeading text level,
    ⟨rfl, fun hc _ hm => List.mem_singleton.1 hm ▸ ht hc, fun _ hn => by cases hn⟩, rfl⟩

theorem Called.of_item {marker text : String} {definition : Option String}
    (ht : clean → '\n' ∉ text.toList) (hd : clean → ∀ t ∈ definition, '\n' ∉ t.toList) :
    Called clean d (d.appendItem (.marked marker text definition)) := by
  refine ⟨.appendItem marker text definition, ⟨rfl, fun hc t hm => ?_, fun _ hn => by cases hn⟩,
    rfl⟩
  rcases List.mem_cons.1 hm with rfl | hm
  · exact ht hc
  · exact hd hc t (Option.mem_toList.1 hm)

theorem exists_callAll (h : ReflTransGen (Called clean) d e) :
    ∃ calls, d.callAll calls = .ok e ∧
      (clean → ∀ call ∈ calls, ∀ t ∈ call.texts, '\n' ∉ t.toList) := by
  induction h using ReflTransGen.head_induction_on with
  | refl => exact ⟨[], rfl, fun _ _ hm => absurd hm List.not_mem_nil⟩
  | head hc _ ih =>
      obtain ⟨call, ht, hrun⟩ := hc
      obtain ⟨calls, hcalls, htexts⟩ := ih
      refine ⟨call :: calls, ?_, fun hc c hm => ?_⟩
      · rw [callAll, List.foldlM_cons, hrun]
        exact hcalls
      · rcases List.mem_cons.1 hm with rfl | hm
        · exact ht.texts hc
        · exact htexts hc c hm

/-- Whether a section is warned of makes no difference to the draft. -/
theorem ensureSection_draft (d : Draft) (reason : Option Template) :
    (d.ensureSection reason).1 = (d.ensureSection none).1 := by
  unfold ensureSection
  split <;> rfl

theorem run_ensureSection {reason : Option String} (h : (Call.ensureSection reason).run d = .ok e) :
    e = (d.ensureSection none).1 := by
  rw [Call.run, ensureSectionFor] at h
  split at h
  · exact (Except.ok.inj h).symm
  · split at h
    · next hs =>
        unfold ensureSection
        rw [if_pos hs]
        exact (Except.ok.inj h).symm
    · next r _ _ =>
        cases ht : Template.read r d.doc.fullname with
        | error f =>
            rw [ht] at h
            cases h
        | ok t =>
            rw [ht] at h
            exact (Except.ok.inj h).symm.trans (ensureSection_draft d t)

theorem called_ensureSection (d : Draft) (reason : Option Template) :
    Called clean d (d.ensureSection reason).1 := by
  rw [ensureSection_draft]
  exact .silent (.ensureSection none) rfl rfl

end Draft

/-! ## Actions -/

namespace Action

open Draft

variable {clean : Prop} {d e : Draft}

/-- Whether an action adds text on a line of its own to what is pending. -/
def joinsLines : Action → Bool
  | appendLine | appendBlankLine | mathClose => true
  | _ => false

theorem called_openPreamble (d : Draft) (title : String) :
    ReflTransGen (Called clean) d (openPreamble d title) :=
  .tail (.single (.silent (.openSection title) rfl rfl))
    (.silent (.setStyle (some summaryStyle)) rfl rfl)

theorem called_freshIf (d : Draft) (p : Prop) [Decidable p] :
    ReflTransGen (Called clean) d (if p then d.freshGroup else d) := by
  split
  · exact .single (.silent .freshGroup rfl rfl)
  · exact .refl

theorem called_entryGroup (d : Draft) : ReflTransGen (Called clean) d (entryGroup d) := by
  rw [entryGroup]
  split
  · exact .refl
  · exact .single (.silent .freshGroup rfl rfl)

theorem called_splitFromSection (d : Draft) :
    ReflTransGen (Called clean) d (splitFromSection d) := by
  rw [splitFromSection]
  split
  · exact .single (.silent .flagUndocumented rfl rfl)
  · exact .refl

theorem called_addTrailing {text : String} (ht : clean → '\n' ∉ text.toList)
    (h : addTrailing d text = .ok e) : ReflTransGen (Called clean) d e := by
  rw [addTrailing] at h
  split at h
  · exact Except.ok.inj h ▸ .refl
  · exact .single (.of_text (fun hc hm => ht hc (trim_subset _ hm)) (fun _ hn => by cases hn) h)

theorem called_addFormula {formula trailing : String} (ht : clean → '\n' ∉ trailing.toList)
    (h : addFormula d formula trailing = .ok e) : ReflTransGen (Called clean) d e := by
  rw [addFormula] at h
  refine ReflTransGen.trans ?_ (called_addTrailing ht h)
  split
  · exact .refl
  · exact .tail (.single (.silent (.openFormula .inline _) rfl rfl)) (.silent .flush rfl rfl)

theorem called_closeFormula {formula trailing : String} (hf : clean → '\n' ∉ formula.toList)
    (ht : clean → '\n' ∉ trailing.toList) (hp : clean → d.pending.any Entry.takesLines)
    (h : closeFormula d formula trailing = .ok e) : ReflTransGen (Called clean) d e := by
  rw [closeFormula] at h
  split at h
  · exact .head (.silent .flush rfl rfl) (called_addTrailing ht h)
  · obtain ⟨d', hd', h⟩ := ok_of_bind h
    exact .head (.of_text (fun hc hm => hf hc (trim_subset _ hm)) (fun hc _ => hp hc) hd')
      (.head (.silent .flush rfl rfl) (called_addTrailing ht h))

theorem called_declareLibParam {key value : String} (h : declareLibParam d key value = .ok e) :
    ReflTransGen (Called clean) d e := by
  rw [declareLibParam] at h
  simp only [] at h
  split at h
  · exact Except.ok.inj h ▸ .refl
  · refine ReflTransGen.tail ?_ (.silent (.declareParam key (some value) .plain) rfl h)
    split
    · exact .single (.silent .flagUndocumented rfl rfl)
    · exact .refl

theorem called_captureOr {line : String} {declare : Draft → Except Fault Draft}
    (hd : ∀ d, declare d = .ok e → ReflTransGen (Called clean) d e)
    (h : captureOr d line declare = .ok e) : ReflTransGen (Called clean) d e := by
  rcases captureOr_cases h with rfl | ⟨-, h⟩
  · exact .single (.silent (.captureLine line) rfl rfl)
  · exact .head (.silent .flagUndocumented rfl rfl) (hd _ h)

/-- What an action does is done by calls. -/
theorem called_apply {a : Action} {line : Nat} {c : Captures}
    (hc : clean → ∀ i, '\n' ∉ (c.text i).toList)
    (hp : clean → a.joinsLines → d.pending.any Entry.takesLines) (h : a.apply line c d = .ok e) :
    ReflTransGen (Called clean) d e := by
  have hcap (i : Nat) (hcl : clean) : '\n' ∉ (c.text i).toList := hc hcl i
  have htrim (i : Nat) (hcl : clean) : '\n' ∉ (trim (c.text i)).toList :=
    fun hm => hc hcl i (trim_subset _ hm)
  have hspace : clean → false = true → d.pending.any Entry.takesLines := fun _ hn => by cases hn
  cases a with
  | missingTitle | untitledPreamble | documentedLibParam | undocumentedParam =>
      exact Except.ok.inj h ▸ .refl
  | preambleSection => exact Except.ok.inj h ▸ called_openPreamble d _
  | flush => exact .single (.silent .flush rfl h)
  | closeComment => exact .single (.silent .closeComment rfl h)
  | newSection => exact .single (.silent (.openSection _) rfl h)
  | newTitle => exact Except.ok.inj h ▸ .single (.of_heading (hcap 0))
  | declareFunction => exact .single (.silent (.declareFunction _ _ _) rfl h)
  | declareConstant => exact .single (.silent (.declareConstant _) rfl h)
  | todoFixme => exact .single (.of_keyword (hcap 0) (hcap 2) h)
  | append => exact .single (.of_text (hcap 0) hspace h)
  | appendLine => exact .single (.of_text (hcap 0) hp h)
  | appendBlankLine => exact .single (.of_text (fun _ => by decide) hp h)
  | bullet =>
      exact Except.ok.inj h ▸ .single (.of_item (hcap 1) fun _ _ ht => by cases ht)
  | definition =>
      exact Except.ok.inj h ▸
        .single (.of_item (hcap 1) fun hcl _ ht => Option.some.inj ht ▸ hcap 2 hcl)
  | startCode => exact .single (.silent (.openCode _) rfl h)
  | mathInline => exact called_addFormula (hcap 1) h
  | mathOpen => exact .single (.silent (.openFormula _ _) rfl h)
  | mathClose => exact called_closeFormula (hcap 0) (hcap 1) (fun hcl => hp hcl rfl) h
  | documentedFunction | documentedGlobalFunction =>
      exact (called_splitFromSection d).tail (.silent (.declareFunction _ _ _) rfl h)
  | undocumentedFunction =>
      exact called_captureOr (fun _ h => .single (.silent (.declareFunction _ _ _) rfl h)) h
  | endOfFunction =>
      exact .head (.silent .leaveFunction rfl rfl) (.single (.silent (.captureLine _) rfl h))
  | enableOption | disableOption => exact .single (.silent (.applyDirective _ _ _) rfl h)
  | openTable =>
      refine Except.ok.inj h ▸ .head (.silent .finishCapture rfl rfl) ?_
      exact (called_freshIf _ _).tail (.silent (.openTable _ _) rfl rfl)
  | sourceTodo =>
      obtain ⟨d', hd', h⟩ := ok_of_bind h
      exact .head (.of_keyword (hcap 0) (hcap 2) hd') (.single (.silent .flush rfl h))
  | startComment => exact .single (.silent .freshGroup rfl h)
  | sourceLine => exact .single (.silent (.captureLine _) rfl h)
  | paramsTitle =>
      refine Except.ok.inj h ▸ .head (.silent .flush rfl rfl) (ReflTransGen.tail ?_
        (.of_heading (hcap 0)))
      split
      · exact .refl
      · exact .single (.silent .freshGroup rfl rfl)
  | paramsComment => exact (called_entryGroup d).tail (.silent (.setBack _) rfl h)
  | paramsBlockComment =>
      obtain ⟨d', hd', h⟩ := ok_of_bind h
      exact ((called_entryGroup d).trans (called_addTrailing (hcap 0) hd')).tail
        (.silent (.setBack _) rfl h)
  | paramsInlineComment =>
      obtain ⟨d', hd', h⟩ := ok_of_bind h
      exact ((called_entryGroup d).tail (.of_text (htrim 0) (fun _ hn => by cases hn) hd')).tail
        (.silent .flush rfl h)
  | tableParam | listParam =>
      exact .head (.silent .flush rfl rfl) (.single (.silent (.declareParam _ _ _) rfl h))
  | sameLineParam =>
      obtain ⟨d', hd', h⟩ := ok_of_bind h
      exact .head (.silent .flush rfl rfl) (.head (.silent .freshGroup rfl rfl)
        (.head (.of_text (htrim 1) (fun _ hn => by cases hn) hd')
          (.head (.silent .flush rfl rfl) (.single (.silent (.declareParam _ _ _) rfl h)))))
  | closeTable => exact .single (.silent .closeTable rfl h)
  | paramsOther =>
      exact .head (.silent .flush rfl rfl) (.single (.silent .freshGroup rfl h))

theorem called_run {a : Action} {line : Nat} {c : Captures} {x : Effect}
    (hc : clean → ∀ i, '\n' ∉ (c.text i).toList)
    (hp : clean → a.joinsLines → d.pending.any Entry.takesLines) (h : a.run line c d = .ok x) :
    ReflTransGen (Called clean) d x.draft := by
  obtain ⟨e, next, log⟩ := x
  cases leads_of_run h with
  | applied _ h => exact called_apply hc hp h
  | warned reason => exact .single (called_ensureSection d reason)
  | untitled => exact called_openPreamble d _
  | documentedTable => exact (called_freshIf d _).tail (.silent (.openTable _ _) rfl rfl)
  | documentedParam h => exact called_declareLibParam h
  | undocumentedTable =>
      exact .head (.silent .finishCapture rfl rfl) (.head (.silent .freshGroup rfl rfl)
        (.single (.silent (.openTable _ _) rfl rfl)))
  | undocumentedParam h =>
      exact called_captureOr (fun _ h => .single (.silent (.declareParam _ _ _) rfl h)) h

end Action

end DocComment
