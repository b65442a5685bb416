import DocComment.Proofs.Placement
import DocComment.Proofs.ReadingCalls

/-!
# What is still to do is listed once

The lists at the end of a document are filled from four sides: by keywords in comments and
in source, by items without documentation, and by the first time that loose mode is
switched on. `Call.listed` says what a single call lists, and in which words, from where
the call is made; it knows of loose mode only whether a call before it has switched it on.
`Draft.listedBy` puts that together for a run of calls.

The lists of a draft are exactly that (`Draft.Lists.callAll`). Two calls of the same kind
in a row list two spans, whatever is pending in between; and what is added to a span
afterwards is added to the span in its group and not to the one in the list, as the two
are different values.
-/

namespace DocComment

open Text Pattern Relation

/-! ## What calls list -/

/-- A span as it is listed if it is written now. -/
def Draft.spanHere (d : Draft) (kind : SpanKind) (text : String) : Span :=
  { kind, text := some text, origin := some (d.functionGroup.getD d.group),
    file := some d.doc.fullname, sectionName := d.current.map (·.name) }

/-- What a span of a kind lists: nothing if it starts with a hyphen or is a warning or a
note. -/
def Draft.listedSpan (d : Draft) (kind : SpanKind) (text : String) : List Span :=
  if text.toList.head? = some '-' then []
  else
    match kind with
    | .todo | .fixme => [d.spanHere kind text]
    | .warn | .note => []

namespace Call

/-- Whether a call switches loose mode on. -/
def enablesLoose : Call → Bool
  | applyDirective option enabled _ => option = "loose" && enabled
  | _ => false

/-- What a call lists. The flag says whether loose mode has been switched on before. -/
def listed (call : Call) (d : Draft) (told : Bool) : List Span :=
  match call with
  | addKeyword _ keyword text =>
    match SpanKind.ofName? keyword with
    | some kind => d.listedSpan kind text
    | none => []
  | addTodo text => d.listedSpan .todo text
  | flagUndocumented =>
    if d.doc.loose then [] else [d.freshGroup.spanHere .todo "MISSING DOCUMENTATION"]
  | call =>
    if call.enablesLoose && !told then [d.spanHere .todo "INCOMPLETE DOCUMENTATION"] else []

end Call

/-- What a run of calls lists, each call where it is made. -/
def Draft.listedBy (d : Draft) (told : Bool) : List Call → List Span
  | [] => []
  | call :: calls =>
    call.listed d told ++
      match call.run d with
      | .ok e => e.listedBy (told || call.enablesLoose) calls
      | .error _ => []

/-! ## Drafts -/

namespace Draft

/-- The second draft lists the given spans after those of the first one, and has told of
loose mode since, if the flag says so. -/
structure Lists (d e : Draft) (spans : List Span) (told : Bool) : Prop where
  todos : e.todos = d.todos ++ spans.filter (·.kind = .todo)
  fixmes : e.fixmes = d.fixmes ++ spans.filter (·.kind = .fixme)
  told : e.looseReported = (d.looseReported || told)
  todo : e.doc.todo = d.doc.todo
  fixme : e.doc.fixme = d.doc.fixme

/-- The second draft lists what the first one does. -/
structure SameLists (d e : Draft) : Prop where
  todos : e.todos = d.todos
  fixmes : e.fixmes = d.fixmes
  told : e.looseReported = d.looseReported
  todo : e.doc.todo = d.doc.todo
  fixme : e.doc.fixme = d.doc.fixme

theorem SameLists.refl (d : Draft) : SameLists d d :=
  ⟨rfl, rfl, rfl, rfl, rfl⟩

theorem SameLists.trans {d e f : Draft} (h : SameLists d e) (h' : SameLists e f) :
    SameLists d f :=
  ⟨h'.todos.trans h.todos, h'.fixmes.trans h.fixmes, h'.told.trans h.told, h'.todo.trans h.todo,
    h'.fixme.trans h.fixme⟩

theorem SameLists.lists {d e : Draft} (h : SameLists d e) : Lists d e [] false :=
  ⟨by simp [h.todos], by simp [h.fixmes], by simp [h.told], h.todo, h.fixme⟩

theorem Lists.trans {d e f : Draft} {spans spans' : List Span} {told told' : Bool}
    (h : Lists d e spans told) (h' : Lists e f spans' told') :
    Lists d f (spans ++ spans') (told || told') := by
  refine ⟨?_, ?_, ?_, h'.todo.trans h.todo, h'.fixme.trans h.fixme⟩
  · rw [h'.todos, h.todos, List.filter_append, List.append_assoc]
  · rw [h'.fixmes, h.fixmes, List.filter_append, List.append_assoc]
  · rw [h'.told, h.told, Bool.or_assoc]

theorem Lists.of_same {d e f : Draft} {spans : List Span} {told : Bool} (h : SameLists d e)
    (h' : Lists e f spans told) : Lists d f spans told :=
  h.lists.trans h'

theorem Lists.same {d e f : Draft} {spans : List Span} {told : Bool} (h : Lists d e spans told)
    (h' : SameLists e f) : Lists d f spans told := by
  have ht := h.trans h'.lists
  rwa [List.append_nil, Bool.or_false] at ht

/-! ## Calls that list nothing -/

theorem lists_flush (d : Draft) : SameLists d d.flush := by
  rw [flush]
  split <;> exact ⟨rfl, rfl, rfl, rfl, rfl⟩

theorem lists_openSection (d : Draft) (title : String) : SameLists d (d.openSection title) :=
  (lists_flush d).trans ⟨rfl, rfl, rfl, rfl, rfl⟩

theorem lists_ensureSection (d : Draft) (reason : Option Template) :
    SameLists d (d.ensureSection reason).1 := by
  unfold ensureSection
  split
  · exact .refl d
  · exact (lists_openSection d d.doc.fullname).trans ⟨rfl, rfl, rfl, rfl, rfl⟩

theorem lists_appendText {d e : Draft} {text : String} {onNewLine : Bool}
    (h : d.appendText text onNewLine = .ok e) : SameLists d e := by
  rcases appendText_cases h with ⟨-, rfl⟩ | ⟨p, p', -, -, rfl⟩ <;> exact ⟨rfl, rfl, rfl, rfl, rfl⟩

theorem lists_appendItem (d : Draft) (item : ListItem) : SameLists d (d.appendItem item) := by
  rw [appendItem]
  split
  · exact ⟨rfl, rfl, rfl, rfl, rfl⟩
  · exact (lists_flush d).trans ⟨rfl, rfl, rfl, rfl, rfl⟩

theorem lists_captureLine (d : Draft) (line : String) : SameLists d (d.captureLine line) := by
  rw [captureLine]
  split <;> exact ⟨rfl, rfl, rfl, rfl, rfl⟩

theorem lists_attachCode (d : Draft) (s : Scratch) : SameLists d (d.attachCode s) := by
  rw [attachCode]
  split <;> exact ⟨rfl, rfl, rfl, rfl, rfl⟩

theorem lists_startCapture (d : Draft) : SameLists d d.startCapture := by
  rw [startCapture]
  split <;> exact ⟨rfl, rfl, rfl, rfl, rfl⟩

theorem lists_finishCapture (d : Draft) : SameLists d d.finishCapture := by
  rw [finishCapture]
  split
  · exact .refl d
  · next s _ =>
      have hd : SameLists d { d with scratch := none } := ⟨rfl, rfl, rfl, rfl, rfl⟩
      have ha := hd.trans (lists_attachCode _ s)
      simp only []
      split
      · exact ha
      · exact ha.trans ⟨rfl, rfl, rfl, rfl, rfl⟩

theorem lists_discardNodoc? {d e : Draft} (h : d.discardNodoc? = some e) : SameLists d e := by
  rw [discardNodoc?] at h
  split at h
  · cases h
    exact ⟨rfl, rfl, rfl, rfl, rfl⟩
  · split at h
    · cases h
      exact ⟨rfl, rfl, rfl, rfl, rfl⟩
    · cases h

theorem lists_declareFunction (d : Draft) (binding : Binding) (name : String)
    (params : Option String) : SameLists d (d.declareFunction binding name params) := by
  rw [declareFunction]
  split
  · next hd => exact lists_discardNodoc? hd
  · exact ⟨rfl, rfl, rfl, rfl, rfl⟩

theorem lists_declareConstant (d : Draft) (name : String) :
    SameLists d (d.declareConstant name) := by
  rw [declareConstant]
  split
  · next hd => exact lists_discardNodoc? hd
  · exact ⟨rfl, rfl, rfl, rfl, rfl⟩

theorem lists_declareParam {d e : Draft} {key : String} {definition : Option String}
    {kind : ParamKind} (h : d.declareParam key definition kind = .ok e) : SameLists d e := by
  rcases declareParam_cases h with hd | ⟨-, f, hf, rfl⟩
  · exact lists_discardNodoc? hd
  · obtain ⟨params, libParams, rfl⟩ := register_cases hf
    exact ⟨rfl, rfl, rfl, rfl, rfl⟩

theorem lists_addPlaced (d : Draft) (e : Entry) : SameLists d (d.flush.addEntry e).place :=
  (lists_flush d).trans ⟨rfl, rfl, rfl, rfl, rfl⟩

theorem lists_openTable (d : Draft) (key : String) (lead : Option String) :
    SameLists d (d.openTable key lead) := by
  have hd : SameLists d { d with
      doc := { d.doc with params := putKey (stripDeclaration key) {} d.doc.params },
      table := some (stripDeclaration key) } := ⟨rfl, rfl, rfl, rfl, rfl⟩
  have ha := hd.trans (lists_addPlaced _ (.edge { name := stripDeclaration key, lead }))
  exact ha.trans ⟨rfl, rfl, rfl, rfl, rfl⟩

theorem lists_closeTable (d : Draft) : SameLists d d.closeTable :=
  (lists_addPlaced d _).trans ⟨rfl, rfl, rfl, rfl, rfl⟩

/-! ## Calls that list something -/

/-- The hyphen at the start of a line is all that the marker asks for. -/
theorem unlistedMarker_accepts {text : String} (hn : '\n' ∉ text.toList) :
    unlistedMarker.accepts text ↔ text.toList.head? = some '-' := by
  constructor
  · intro h
    obtain ⟨t, m₁, ⟨m₂, ⟨m₃, hh, -⟩, -⟩, -⟩ := accepts_iff.1 h
    rw [show text.toList = "-".toList ++ m₃.rest from hh.rest]
    rfl
  · intro h
    obtain ⟨rest, hrest⟩ : ∃ rest, text.toList = '-' :: rest := List.head?_eq_some_iff.1 h
    have hstart : (lit "-" ++ spaces).accepts text :=
      accepts_iff.2 ⟨⟨some '-', rest⟩, ⟨some '-', rest⟩, ⟨hrest, rfl⟩, [], Nat.zero_le _, by simp,
        Spot.Passes.nil_iff.2 rfl⟩
    exact accepts_append_anything hn hstart 0

/-- The text of a span without the hyphen that keeps it out of the lists, and without the
spaces after the hyphen. -/
def withoutHyphen (text : String) : String :=
  if text.toList.head? = some '-' then String.ofList (text.toList.tail.dropWhile (· = ' '))
  else text

theorem unlistedMarker_text {text : String} (hn : '\n' ∉ text.toList) {c : Captures}
    (hr : unlistedMarker.read? text = some c) :
    c.text 0 = String.ofList (text.toList.tail.dropWhile (· = ' ')) := by
  have hhead := (unlistedMarker_accepts hn).1 (accepts_of_read hr)
  obtain ⟨rest, hrest⟩ := List.head?_eq_some_iff.1 hhead
  rw [hrest] at hn ⊢
  have hline : '\n' ∉ rest.dropWhile (· = ' ') := fun hmem =>
    hn (List.mem_cons_of_mem _ ((List.dropWhile_suffix _).subset hmem))
  have hend : (capture 0 anything ++ stop).follow done ⟨none, rest.dropWhile (· = ' ')⟩ [] =
      some [(0, ⟨rest.dropWhile (· = ' '), []⟩)] := follow_anything hline []
  have hfollow : unlistedMarker.follow done ⟨none, '-' :: rest⟩ [] =
      some [(0, ⟨rest.dropWhile (· = ' '), []⟩)] := by
    rw [← hend]
    exact follow_spaces (follow_congr steady_done) (s := ⟨some '-', rest⟩) rfl
      (.inl (by rw [hend]; rfl))
  rw [read?, hrest] at hr
  have hr : (unlistedMarker.follow done ⟨none, '-' :: rest⟩ []).map _ = some c := hr
  rw [hfollow] at hr
  rw [← Option.some.inj hr]
  show Mark.text _ = _
  rw [Mark.text]
  simp

theorem addSpan_pending (d : Draft) (kind : SpanKind) {text : String} (hn : '\n' ∉ text.toList) :
    (d.addSpan kind text).pending = some (.span { kind, text := some (withoutHyphen text) }) := by
  rw [addSpan, withoutHyphen]
  cases hr : unlistedMarker.read? text with
  | some captures =>
      rw [if_pos ((unlistedMarker_accepts hn).1 (accepts_of_read hr)), ← unlistedMarker_text hn hr]
  | none =>
      rw [if_neg fun hh => read?_eq_none_iff.1 hr ((unlistedMarker_accepts hn).2 hh)]
      cases kind <;> rfl

/-- What is done before a span is written changes nothing that the list says of the
span. -/
theorem splitCapture_flush (d : Draft) :
    SameLists d d.splitCapture.flush ∧
      d.splitCapture.functionGroup = d.functionGroup ∧ d.splitCapture.group = d.group ∧
      d.splitCapture.flush.doc.fullname = d.doc.fullname ∧
      d.splitCapture.flush.current = d.current := by
  have hs : SameLists d d.splitCapture ∧ d.splitCapture.functionGroup = d.functionGroup ∧
      d.splitCapture.doc.fullname = d.doc.fullname := by
    rw [splitCapture]
    split
    · exact ⟨.refl d, rfl, rfl⟩
    · split
      · next s _ hs =>
          rw [attachCode, if_pos hs]
          exact ⟨⟨rfl, rfl, rfl, rfl, rfl⟩, rfl, rfl⟩
      · exact ⟨.refl d, rfl, rfl⟩
  have hf : d.splitCapture.flush.doc.fullname = d.splitCapture.doc.fullname := by
    rw [flush]
    split <;> rfl
  exact ⟨hs.1.trans (lists_flush _), hs.2.1, splitCapture_group d, hf.trans hs.2.2,
    ((same_splitCapture d).trans (same_flush _)).current⟩

theorem lists_addSpan (d : Draft) (kind : SpanKind) {text : String} (hn : '\n' ∉ text.toList) :
    Lists d (d.addSpan kind text) (d.listedSpan kind text) false := by
  obtain ⟨hsame, hfunction, hgroup, hname, hcurrent⟩ := splitCapture_flush d
  unfold listedSpan
  cases hr : unlistedMarker.read? text with
  | some captures =>
      rw [if_pos ((unlistedMarker_accepts hn).1 (accepts_of_read hr)), addSpan, hr]
      exact (hsame.lists).same ⟨rfl, rfl, rfl, rfl, rfl⟩
  | none =>
      rw [if_neg fun hh => read?_eq_none_iff.1 hr ((unlistedMarker_accepts hn).2 hh), addSpan, hr]
      refine Lists.of_same hsame ?_
      rw [spanHere, ← hfunction, ← hgroup, ← hname, ← hcurrent]
      cases kind with
      | todo => exact ⟨rfl, (List.append_nil _).symm, (Bool.or_false _).symm, rfl, rfl⟩
      | fixme => exact ⟨(List.append_nil _).symm, rfl, (Bool.or_false _).symm, rfl, rfl⟩
      | warn | note => exact SameLists.lists ⟨rfl, rfl, rfl, rfl, rfl⟩

theorem lists_addTodo (d : Draft) {text : String} (hn : '\n' ∉ text.toList) :
    Lists d (d.addTodo text) (d.listedSpan .todo text) false :=
  (lists_addSpan d .todo hn).same (lists_flush _)

theorem lists_flagUndocumented (d : Draft) :
    Lists d d.flagUndocumented (Call.flagUndocumented.listed d d.looseReported) false := by
  rw [flagUndocumented, Call.listed]
  have hfresh : SameLists d d.freshGroup := ⟨rfl, rfl, rfl, rfl, rfl⟩
  show Lists d (if d.doc.loose then _ else _) _ _
  split
  · exact hfresh.lists
  · exact Lists.of_same hfresh (@lists_addTodo d.freshGroup missingDocumentation (by decide))

theorem lists_setLoose (d : Draft) (enabled : Bool) :
    Lists d (d.setLoose enabled)
      (if enabled && !d.looseReported then [d.spanHere .todo "INCOMPLETE DOCUMENTATION"] else [])
      enabled := by
  rw [setLoose]
  show Lists d (if enabled && !d.looseReported then _ else _) _ _
  split
  · next h =>
      rw [Bool.and_eq_true, Bool.not_eq_true'] at h
      obtain ⟨rfl, ht⟩ := h
      have hlists := @lists_addTodo
        { d with doc := { d.doc with loose := true }, looseReported := true }
        incompleteDocumentation (by decide)
      exact ⟨hlists.todos, hlists.fixmes, by rw [hlists.told, ht]; rfl, hlists.todo, hlists.fixme⟩
  · next h =>
      refine ⟨(List.append_nil _).symm, (List.append_nil _).symm, ?_, rfl, rfl⟩
      cases enabled with
      | false => exact (Bool.or_false _).symm
      | true => simpa using h

theorem lists_applyDirective {d e : Draft} {option : String} {enabled : Bool} {line : Option Int}
    (h : d.applyDirective option enabled line = .ok e) :
    Lists d e ((Call.applyDirective option enabled line).listed d d.looseReported)
      (Call.applyDirective option enabled line).enablesLoose := by
  rw [applyDirective] at h
  split at h
  · next mode hmode =>
      split at h
      · unfold Mode.ofOption? at hmode
        split at hmode
        · cases hmode
          cases h
          have hd : SameLists d { d with doc := { d.doc with literate := enabled } } :=
            ⟨rfl, rfl, rfl, rfl, rfl⟩
          rw [setLiterate]
          simp only [Call.listed, Call.enablesLoose]
          split
          · exact (hd.trans (lists_startCapture _)).lists
          · exact (hd.trans (lists_finishCapture _)).lists
        · cases hmode
          cases h
          simp only [Call.listed, Call.enablesLoose, decide_true, Bool.true_and]
          exact lists_setLoose d enabled
        · cases hmode
      · cases h
  · cases h

theorem lists_call {d e : Draft} {call : Call} (ht : ∀ t ∈ call.texts, '\n' ∉ t.toList)
    (h : call.run d = .ok e) :
    Lists d e (call.listed d d.looseReported) call.enablesLoose := by
  cases call with
  | openSection => exact Except.ok.inj h ▸ (lists_openSection d _).lists
  | ensureSection => exact run_ensureSection h ▸ (lists_ensureSection d none).lists
  | freshGroup | place | placeGroup | setStyle | setBack | leaveFunction =>
      exact Except.ok.inj h ▸ SameLists.lists ⟨rfl, rfl, rfl, rfl, rfl⟩
  | addHeading | addTableStart | addTableEnd =>
      exact Except.ok.inj h ▸ (lists_addPlaced d _).lists
  | declareFunction => exact Except.ok.inj h ▸ (lists_declareFunction d _ _ _).lists
  | declareConstant => exact Except.ok.inj h ▸ (lists_declareConstant d _).lists
  | declareParam => exact (lists_declareParam h).lists
  | openTable => exact Except.ok.inj h ▸ (lists_openTable d _ _).lists
  | closeTable => exact Except.ok.inj h ▸ (lists_closeTable d).lists
  | addKeyword whole keyword text =>
      have htext := ht text (List.mem_cons_of_mem _ List.mem_cons_self)
      cases hk : SpanKind.ofName? keyword with
      | some kind =>
          simp only [Call.run, addKeyword, hk] at h
          simp only [Call.listed, hk]
          exact Except.ok.inj h ▸ lists_addSpan d kind htext
      | none =>
          simp only [Call.run, addKeyword, hk] at h
          simp only [Call.listed, hk]
          exact (lists_appendText h).lists
  | addTodo text => exact Except.ok.inj h ▸ lists_addTodo d (ht text List.mem_cons_self)
  | appendText => exact (lists_appendText h).lists
  | appendItem => exact Except.ok.inj h ▸ (lists_appendItem d _).lists
  | openCode | openFormula =>
      exact Except.ok.inj h ▸ (lists_flush d).lists.same ⟨rfl, rfl, rfl, rfl, rfl⟩
  | flush => exact Except.ok.inj h ▸ (lists_flush d).lists
  | closeComment => exact Except.ok.inj h ▸ (lists_flush d).lists.same ⟨rfl, rfl, rfl, rfl, rfl⟩
  | applyDirective => exact lists_applyDirective h
  | flagUndocumented => exact Except.ok.inj h ▸ lists_flagUndocumented d
  | startCapture => exact Except.ok.inj h ▸ (lists_startCapture d).lists
  | captureLine => exact Except.ok.inj h ▸ (lists_captureLine d _).lists
  | finishCapture => exact Except.ok.inj h ▸ (lists_finishCapture d).lists

/-- A run of calls lists what its calls list, in their order. -/
theorem lists_callAll {d e : Draft} {calls : List Call}
    (ht : ∀ call ∈ calls, ∀ t ∈ call.texts, '\n' ∉ t.toList) (h : d.callAll calls = .ok e) :
    Lists d e (d.listedBy d.looseReported calls) (calls.any Call.enablesLoose) := by
  induction calls generalizing d with
  | nil =>
      cases h
      exact (SameLists.refl _).lists
  | cons call calls ih =>
      -- whether loose mode has been told of is what one call hands on to the next
      rw [callAll, List.foldlM_cons] at h
      obtain ⟨f, hf, h⟩ := ok_of_bind h
      have hcall := lists_call (ht call List.mem_cons_self) hf
      have hrest := ih (fun c hc => ht c (List.mem_cons_of_mem _ hc)) h
      rw [hcall.told] at hrest
      rw [listedBy, hf]
      exact hcall.trans hrest

end Draft

/-! ## Documents -/

/-- A section at the end of a document that lists spans of a kind: it is there if there
are any, and has one group, which holds them in order. -/
structure GroupStore.ListsAs (store : GroupStore) (list : Option Section) (kind : SpanKind)
    (spans : List Span) : Prop where
  missing : list = none ↔ spans = []
  found : ∀ s, list = some s → ∃ i, s = { title := kind.name, name := kind.name, groups := [i] } ∧
    (store.get i).entries = spans.map .span

/-- The sections at the end of a document list the spans of their kinds among those
given. -/
structure Document.ListsAll (doc : Document) (spans : List Span) : Prop where
  todo : doc.store.ListsAs doc.todo .todo (spans.filter (·.kind = .todo))
  fixme : doc.store.ListsAs doc.fixme .fixme (spans.filter (·.kind = .fixme))

namespace GroupStore

variable {store : GroupStore} {kind : SpanKind} {spans : List Span}

theorem listsAs_none (store : GroupStore) (kind : SpanKind) : store.ListsAs none kind [] :=
  ⟨⟨fun _ => rfl, fun _ => rfl⟩, fun _ hs => by cases hs⟩

theorem listsAs_insert (store : GroupStore) (kind : SpanKind) (hs : spans ≠ []) :
    (store.insert { entries := spans.map .span }).ListsAs
      (some (Document.listing kind store.nextId)) kind spans := by
  refine ⟨iff_of_false (by simp) hs, ?_⟩
  rintro _ ⟨⟩
  exact ⟨store.nextId, rfl, congrArg Group.entries (store.get_insert_nextId _)⟩

theorem ListsAs.insert {list : Option Section} (h : store.ListsAs list kind spans)
    (hheld : ∀ s ∈ list, ∀ i ∈ s.groups, store.Holds i) (g : Group) :
    (store.insert g).ListsAs list kind spans := by
  refine ⟨h.missing, fun s hs => ?_⟩
  obtain ⟨i, rfl, hi⟩ := h.found s hs
  refine ⟨i, rfl, ?_⟩
  rw [← hi]
  exact congrArg Group.entries (get_insert_of_holds (hheld _ hs i List.mem_cons_self) g)

end GroupStore

namespace Document

variable {doc : Document}

theorem withTodos_lists (ht : doc.todo = none) (spans : List Span) :
    (doc.withTodos spans).store.ListsAs (doc.withTodos spans).todo .todo spans ∧
      (∀ s ∈ (doc.withTodos spans).todo, ∀ i ∈ s.groups, (doc.withTodos spans).store.Holds i) := by
  cases spans with
  | nil =>
      show doc.store.ListsAs doc.todo .todo [] ∧ ∀ s ∈ doc.todo, _
      rw [ht]
      exact ⟨doc.store.listsAs_none .todo, fun _ hs => by cases hs⟩
  | cons span spans =>
      refine ⟨doc.store.listsAs_insert .todo (List.cons_ne_nil span spans), ?_⟩
      rintro _ ⟨⟩ i hi
      obtain rfl := List.mem_singleton.1 hi
      exact GroupStore.holds_insert.2 (Or.inr rfl)

theorem withFixmes_lists (hf : doc.fixme = none) (spans : List Span) :
    (doc.withFixmes spans).store.ListsAs (doc.withFixmes spans).fixme .fixme spans := by
  cases spans with
  | nil =>
      show doc.store.ListsAs doc.fixme .fixme []
      rw [hf]
      exact doc.store.listsAs_none .fixme
  | cons span spans => exact doc.store.listsAs_insert .fixme (List.cons_ne_nil span spans)

theorem withFixmes_keeps {kind : SpanKind} {spans : List Span}
    (h : doc.store.ListsAs doc.todo kind spans)
    (hheld : ∀ s ∈ doc.todo, ∀ i ∈ s.groups, doc.store.Holds i) (fixmes : List Span) :
    (doc.withFixmes fixmes).store.ListsAs (doc.withFixmes fixmes).todo kind spans := by
  rw [Document.withFixmes]
  split
  · exact h
  · exact h.insert hheld { entries := fixmes.map .span }

end Document

theorem Draft.document_lists {d : Draft} (ht : d.doc.todo = none) (hf : d.doc.fixme = none) :
    d.document.store.ListsAs d.document.todo .todo d.todos ∧
      d.document.store.ListsAs d.document.fixme .fixme d.fixmes := by
  let doc : Document := { d.doc with sections := d.doc.sections ++ d.current.toList }
  obtain ⟨htodo, hheld⟩ := @Document.withTodos_lists doc ht d.todos
  have hfixme : (doc.withTodos d.todos).fixme = none := by
    rw [Document.withTodos]
    split <;> exact hf
  exact ⟨Document.withFixmes_keeps htodo hheld d.fixmes,
    Document.withFixmes_lists hfixme d.fixmes⟩

theorem Draft.document_listsAll {d : Draft} {spans : List Span} (ht : d.doc.todo = none)
    (hf : d.doc.fixme = none) (htodos : d.todos = spans.filter (·.kind = .todo))
    (hfixmes : d.fixmes = spans.filter (·.kind = .fixme)) : d.document.ListsAll spans := by
  obtain ⟨htodo, hfixme⟩ := d.document_lists ht hf
  exact ⟨htodos ▸ htodo, hfixmes ▸ hfixme⟩

/-- A draft that comes to its end lists what it did, whether or not it had a section. -/
theorem Draft.lists_finish (d : Draft) :
    ∃ e, SameLists d e ∧ d.finish.1.document = e.document := by
  refine ⟨_, (lists_ensureSection d
    (some { before := "No documentation found in '", after := "'." })).trans ?_,
    finish_document_eq d⟩
  exact ⟨rfl, rfl, rfl, rfl, rfl⟩

/-- What is still to do and to mend is listed at the end of a document once for every time
that it was written, in order, whatever calls the document was written by. So it is for
every source that is read, as that is done by calls. -/
theorem todos_listed_once :
    (∀ (doc : Document) (file : Option String) (language : String) (options : List String),
      doc.todo = none → doc.fixme = none → ∀ (calls : List Call) (d : Draft),
      (∀ call ∈ calls, ∀ t ∈ call.texts, '\n' ∉ t.toList) →
      (Draft.start doc file language options).callAll calls = .ok d →
      d.document.ListsAll ((Draft.start doc file language options).listedBy false calls) ∧
        d.finish.1.document.ListsAll
          ((Draft.start doc file language options).listedBy false calls)) ∧
    ∀ (settings : Settings) (q : Request) (lines : List String) (g : Reading),
      (∀ line ∈ lines, IsLine line) → readingAfter settings q lines = .ok g →
      ∃ named calls, q.named = .ok named ∧
        (firstDraft settings named.1 named.2).callAll calls = .ok (Reader.finish g).draft ∧
        (∀ call ∈ calls, ∀ t ∈ call.texts, '\n' ∉ t.toList) ∧
        (finishReading g).1.ListsAll
          ((firstDraft settings named.1 named.2).listedBy false calls) := by
  have hrun {doc : Document} {file : Option String} {language : String} {options : List String}
      (htodo : doc.todo = none) (hfixme : doc.fixme = none) {calls : List Call} {d e : Draft}
      (ht : ∀ call ∈ calls, ∀ t ∈ call.texts, '\n' ∉ t.toList)
      (h : (Draft.start doc file language options).callAll calls = .ok d)
      (hsame : Draft.SameLists d e) :
      e.document.ListsAll ((Draft.start doc file language options).listedBy false calls) := by
    have hlists := (Draft.lists_callAll ht h).same hsame
    exact Draft.document_listsAll (hlists.todo.trans htodo) (hlists.fixme.trans hfixme)
      hlists.todos hlists.fixmes
  refine ⟨?_, ?_⟩
  · intro doc file language options htodo hfixme calls d ht h
    obtain ⟨e, hsame, hfinish⟩ := d.lists_finish
    rw [hfinish]
    exact ⟨hrun htodo hfixme ht h (.refl d), hrun htodo hfixme ht h hsame⟩
  · intro settings q lines g hl h
    obtain ⟨named, hnamed, hcalled⟩ := readingAfter_called h
    obtain ⟨calls, hcalls, ht⟩ :=
      Draft.exists_callAll (hcalled.trans (Reading.called_finish g))
    refine ⟨named, calls, hnamed, hcalls, ht hl, ?_⟩
    obtain ⟨e, hsame, hfinish⟩ := (Reader.finish g).draft.lists_finish
    rw [show (finishReading g).1 = e.document from hfinish]
    exact hrun rfl rfl (ht hl) hcalls hsame

/-- Spans of all kinds, one with a hyphen and one that goes on, and loose mode switched on
twice; and a source with a span that goes on. -/
theorem todos_listed_once_loose :
    let d := Draft.start (Document.new "d" none none) none "js" ["loose"]
    let calls : List Call := [.openSection "T", .addKeyword "TODO a" "TODO" "a",
      .appendText "more" false, .addKeyword "NOTE b" "NOTE" "b", .addKeyword "TODO -c" "TODO" "-c",
      .applyDirective "loose" true none, .applyDirective "loose" false none, .flagUndocumented,
      .applyDirective "loose" true none]
    (∃ e, d.callAll calls = .ok e ∧ e.document.ListsAll (d.listedBy false calls)) ∧
      (d.listedBy false calls).map (·.text) =
        [some "a", some "INCOMPLETE DOCUMENTATION", some "MISSING DOCUMENTATION"] ∧
      ∃ g, ∃ named : String × Request, ∃ calls,
        readingAfter {} { name := some "d" } ["// # T", "// TODO: a", "// b"] = .ok g ∧
        (finishReading g).1.ListsAll ((firstDraft {} named.1 named.2).listedBy false calls) := by
  refine ⟨⟨_, rfl, ?_⟩, by decide +kernel, ?_⟩
  · exact (todos_listed_once.1 (Document.new "d" none none) none "js" ["loose"] rfl rfl _ _
      (by decide +kernel) rfl).1
  · obtain ⟨named, calls, -, -, -, hlists⟩ := todos_listed_once.2 {} { name := some "d" }
      ["// # T", "// TODO: a", "// b"] _ (by decide +kernel) rfl
    exact ⟨_, named, calls, rfl, hlists⟩

end DocComment
