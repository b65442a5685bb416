import DocComment.Proofs.Additions

/-!
# Two drafts, side by side

What an operation takes notice of cannot be seen from one draft. It can be seen from two:
if they differ in something and the operation does the same to both, then it did not look
at what they differ in. This file reads two drafts side by side. What they have in common
is a `Likeness`; it says how the groups of a name may differ, and the lists of spans, and
loose mode. The rest is the same in both (`Draft.Beside`).

The operations on drafts keep any likeness, one after the other. They look into a group in
few places: whether it has entries, what it documents, and whether its first or its last
entry is a heading or `nodoc`. Groups that agree in that resemble each other
(`Group.Resembles`), and where an operation looks, the groups have to be plain, which
means that they do.
-/

namespace DocComment

open Text

/-! ## Two outcomes -/

/-- Both meet the same fault, or both succeed, with results that go together. -/
inductive Together {α β : Type} (R : α → β → Prop) : Except Fault α → Except Fault β → Prop where
  | ok {a : α} {b : β} (h : R a b) : Together R (.ok a) (.ok b)
  | error (f : Fault) : Together R (.error f) (.error f)

namespace Together

variable {α β γ δ : Type} {R : α → β → Prop} {S : γ → δ → Prop} {x : Except Fault α}
  {y : Except Fault β}

theorem refl (x : Except Fault α) : Together (· = ·) x x := by
  cases x with
  | ok a => exact .ok rfl
  | error f => exact .error f

theorem outcomes (h : Together R x y) :
    (∃ f, x = .error f ∧ y = .error f) ∨ ∃ a b, x = .ok a ∧ y = .ok b ∧ R a b := by
  cases h with
  | ok h => exact Or.inr ⟨_, _, rfl, rfl, h⟩
  | error f => exact Or.inl ⟨f, rfl, rfl⟩

theorem mono {R' : α → β → Prop} (h : Together R x y)
    (hR : ∀ a b, y = .ok b → R a b → R' a b) : Together R' x y := by
  cases h with
  | ok h => exact .ok (hR _ _ rfl h)
  | error f => exact .error f

theorem bind {f : α → Except Fault γ} {g : β → Except Fault δ} (h : Together R x y)
    (hfg : ∀ a b, y = .ok b → R a b → Together S (f a) (g b)) :
    Together S (x >>= f) (y >>= g) := by
  cases h with
  | ok h => exact hfg _ _ rfl h
  | error f => exact .error f

theorem map {f : α → γ} {g : β → δ} (h : Together R x y)
    (hfg : ∀ a b, y = .ok b → R a b → S (f a) (g b)) :
    Together S (x >>= fun a => pure (f a)) (y >>= fun b => pure (g b)) :=
  h.bind fun a b hb hab => .ok (hfg a b hb hab)

end Together

/-! ## Groups that resemble each other -/

/-- What actions may ask of an entry: whether it is a heading, and whether it is
`nodoc`. -/
def Entry.marks (e : Entry) : Bool × Bool :=
  (e.isHeading, e.isNodoc)

/-- The groups document the same, and have entries with the same marks. -/
structure Group.Resembles (g g' : Group) : Prop where
  same : g = { g' with entries := g.entries }
  marks : g.entries.map Entry.marks = g'.entries.map Entry.marks

namespace Group.Resembles

variable {g g' : Group}

theorem of_eq (h : g = g') : g.Resembles g' :=
  h ▸ ⟨rfl, rfl⟩

theorem length (h : g.Resembles g') : g.entries.length = g'.entries.length := by
  simpa using congrArg List.length h.marks

theorem isEmpty (h : g.Resembles g') : g.entries.isEmpty = g'.entries.isEmpty := by
  rw [← List.isEmpty_map (f := Entry.marks), h.marks, List.isEmpty_map]

theorem getLast?_any (h : g.Resembles g') (p : Bool × Bool → Bool) :
    g.entries.getLast?.any (p ∘ Entry.marks) = g'.entries.getLast?.any (p ∘ Entry.marks) := by
  have hmap (l : List Entry) :
      l.getLast?.any (p ∘ Entry.marks) = (l.map Entry.marks).getLast?.any p := by
    rw [List.getLast?_map, Option.any_map]
    rfl
  rw [hmap, hmap, h.marks]

theorem head?_any (h : g.Resembles g') (p : Bool × Bool → Bool) :
    g.entries.head?.any (p ∘ Entry.marks) = g'.entries.head?.any (p ∘ Entry.marks) := by
  have hmap (l : List Entry) :
      l.head?.any (p ∘ Entry.marks) = (l.map Entry.marks).head?.any p := by
    rw [List.head?_map, Option.any_map]
    rfl
  rw [hmap, hmap, h.marks]

theorem function (h : g.Resembles g') : g.function = g'.function :=
  (congrArg Group.function h.same).trans rfl

theorem constant (h : g.Resembles g') : g.constant = g'.constant :=
  (congrArg Group.constant h.same).trans rfl

end Group.Resembles

/-! ## Likeness -/

/-- In what two drafts are alike. -/
structure Likeness where
  /-- How the groups of a name are alike. -/
  group : GroupId → Group → Group → Prop
  /-- Groups that may be looked into. -/
  plain : GroupId → Prop
  loose : Bool → Bool → Prop
  todos : List Span → List Span → Prop
  fixmes : List Span → List Span → Prop
  addEntry : ∀ {i g g'} (e : Entry), group i g g' →
    group i { g with entries := g.entries ++ [e] } { g' with entries := g'.entries ++ [e] }
  /-- A group may get to document something, whatever its entries are. -/
  describe : ∀ {i g g'} (f : Group → Group),
    (∀ g es, f { g with entries := es } = { f g with entries := es }) → group i g g' →
      group i (f g) (f g')
  resembles : ∀ {i g g'}, plain i → group i g g' → g.Resembles g'
  dropLast : ∀ {i g g'}, plain i → group i g g' →
    group i { g with entries := g.entries.dropLast } { g' with entries := g'.entries.dropLast }
  addTodo : ∀ {l l'} (s : Span), todos l l' → todos (l ++ [s]) (l' ++ [s])
  addFixme : ∀ {l l'} (s : Span), fixmes l l' → fixmes (l ++ [s]) (l' ++ [s])

namespace Likeness

variable (L : Likeness)

/-- It can be told of the group alike whether it ends in `nodoc`, and that can be taken
away. -/
def Skips (i : GroupId) : Prop :=
  ∀ g g', L.group i g g' →
    g.entries.getLast?.any Entry.isNodoc = g'.entries.getLast?.any Entry.isNodoc ∧
      (g'.entries.getLast?.any Entry.isNodoc →
        L.group i { g with entries := g.entries.dropLast }
          { g' with entries := g'.entries.dropLast })

/-- Either both drafts are in loose mode, or none of them is. -/
def SameMode : Prop :=
  ∀ l l', L.loose l l' ↔ l = l'

variable {L}

theorem skips_of_plain {i : GroupId} (hi : L.plain i) : L.Skips i := fun _ _ h =>
  ⟨(L.resembles hi h).getLast?_any Prod.snd, fun _ => L.dropLast hi h⟩

end Likeness

/-- The groups of the stores are alike, and each new one will be plain. -/
structure GroupStore.Beside (L : Likeness) (s t : GroupStore) : Prop where
  size : s.groups.size = t.groups.size
  fresh : ∀ i, ¬ t.Holds i → L.plain i
  group : ∀ i, L.group i (s.get i) (t.get i)

namespace GroupStore.Beside

variable {L : Likeness} {s t : GroupStore}

theorem nextId (h : Beside L s t) : s.nextId = t.nextId := by
  rw [GroupStore.nextId, GroupStore.nextId, h.size]

theorem holds_iff (h : Beside L s t) (i : GroupId) : s.Holds i ↔ t.Holds i := by
  rw [Holds, Holds, h.size]

theorem update (h : Beside L s t) (i : GroupId) {f : Group → Group}
    (hf : L.group i (f (s.get i)) (f (t.get i))) : Beside L (s.update i f) (t.update i f) := by
  refine ⟨by simp [GroupStore.update, h.size], fun j hj => h.fresh j fun hh =>
    hj (holds_update.2 hh), fun j => ?_⟩
  by_cases hji : j = i
  · subst hji
    by_cases hh : t.Holds j
    · rw [get_update_self hh, get_update_self ((h.holds_iff j).2 hh)]
      exact hf
    · have hs : ¬ s.Holds j := mt (h.holds_iff j).1 hh
      have hgroup := h.group j
      rw [get_of_not_holds hs, get_of_not_holds hh] at hgroup
      rwa [get_of_not_holds (mt holds_update.1 hh), get_of_not_holds (mt holds_update.1 hs)]
  · rw [get_update_of_ne hji, get_update_of_ne hji]
    exact h.group j

theorem insert (h : Beside L s t) : Beside L (s.insert {}) (t.insert {}) := by
  refine ⟨by simp [GroupStore.insert, h.size], fun i hi => h.fresh i fun hh =>
    hi (holds_insert.2 (Or.inl hh)), fun i => ?_⟩
  rw [get_insert_empty, get_insert_empty]
  exact h.group i

end GroupStore.Beside

namespace Draft

/-- The draft with another mode, other groups in the store, and other lists. -/
def changed (d : Draft) (loose : Bool) (store : GroupStore) (todos fixmes : List Span) : Draft :=
  { d with doc := { d.doc with loose, store }, todos, fixmes }

/-- The drafts are alike. Source is captured into a plain group. -/
inductive Beside (L : Likeness) : Draft → Draft → Prop where
  | intro {d : Draft} {loose : Bool} {store : GroupStore} {todos fixmes : List Span}
      (mode : L.loose loose d.doc.loose) (groups : store.Beside L d.doc.store)
      (todo : L.todos todos d.todos) (fixme : L.fixmes fixmes d.fixmes)
      (scratch : ∀ s, d.scratch = some s → L.plain s.group) :
      Beside L (d.changed loose store todos fixmes) d

variable {L : Likeness} {d d' e e' : Draft}

namespace Beside

theorem of_eq {loose : Bool} {store : GroupStore} {todos fixmes : List Span}
    (he : e = e'.changed loose store todos fixmes) (mode : L.loose loose e'.doc.loose)
    (groups : store.Beside L e'.doc.store) (todo : L.todos todos e'.todos)
    (fixme : L.fixmes fixmes e'.fixmes) (scratch : ∀ s, e'.scratch = some s → L.plain s.group) :
    Beside L e e' :=
  he ▸ ⟨mode, groups, todo, fixme, scratch⟩

theorem eq_changed (h : Beside L d d') :
    d = d'.changed d.doc.loose d.doc.store d.todos d.fixmes := by
  cases h
  rfl

theorem store (h : Beside L d d') : d.doc.store.Beside L d'.doc.store := by
  cases h
  assumption

theorem mode (h : Beside L d d') : L.loose d.doc.loose d'.doc.loose := by
  cases h
  assumption

theorem pending (h : Beside L d d') : d.pending = d'.pending := by
  rw [h.eq_changed, changed]

theorem group (h : Beside L d d') : d.group = d'.group := by
  rw [h.eq_changed, changed]

theorem current (h : Beside L d d') : d.current = d'.current := by
  rw [h.eq_changed, changed]

theorem back (h : Beside L d d') : d.back = d'.back := by
  rw [h.eq_changed, changed]

theorem fullname (h : Beside L d d') : d.doc.fullname = d'.doc.fullname := by
  rw [h.eq_changed, changed]

theorem functionGroup (h : Beside L d d') : d.functionGroup = d'.functionGroup := by
  rw [h.eq_changed, changed]

theorem nextStyle (h : Beside L d d') : d.nextStyle = d'.nextStyle := by
  rw [h.eq_changed, changed]

theorem language (h : Beside L d d') : d.language = d'.language := by
  rw [h.eq_changed, changed]

theorem captures (h : Beside L d d') : d.scratch = d'.scratch := by
  rw [h.eq_changed, changed]

theorem literate (h : Beside L d d') : d.doc.literate = d'.doc.literate := by
  rw [h.eq_changed, changed]

theorem hasSection (h : Beside L d d') : d.hasSection = d'.hasSection := by
  rw [h.eq_changed]
  rfl

theorem opensSection (h : Beside L d d') : d.opensSection = d'.opensSection := by
  rw [h.eq_changed]
  rfl

theorem inSection (h : Beside L d d') : d.inSection = d'.inSection := by
  rw [h.eq_changed]
  rfl

theorem plain_nextId (h : Beside L d d') : L.plain d'.doc.store.nextId :=
  h.store.fresh _ (GroupStore.not_holds_nextId _)

theorem plain_scratch (h : Beside L d d') {s : Scratch} (hs : d'.scratch = some s) :
    L.plain s.group := by
  obtain ⟨-, -, -, -, hscratch⟩ := h
  exact hscratch s hs

/-! ## What is remembered -/

theorem setPending (h : Beside L d d') (p : Option Entry) :
    Beside L { d with pending := p } { d' with pending := p } := by
  obtain ⟨hmode, hgroups, htodo, hfixme, hscratch⟩ := h
  exact .of_eq rfl hmode hgroups htodo hfixme hscratch

theorem setStyle (h : Beside L d d') (style : Option String) :
    Beside L { d with nextStyle := style } { d' with nextStyle := style } := by
  obtain ⟨hmode, hgroups, htodo, hfixme, hscratch⟩ := h
  exact .of_eq rfl hmode hgroups htodo hfixme hscratch

theorem setFunction (h : Beside L d d') {i j : Option GroupId} (hij : i = j) :
    Beside L { d with functionGroup := i } { d' with functionGroup := j } := by
  obtain ⟨hmode, hgroups, htodo, hfixme, hscratch⟩ := h
  exact .of_eq (hij ▸ rfl) hmode hgroups htodo hfixme hscratch

theorem setTable (h : Beside L d d') (table back : Option String) :
    Beside L { d with table, back } { d' with table, back } := by
  obtain ⟨hmode, hgroups, htodo, hfixme, hscratch⟩ := h
  exact .of_eq rfl hmode hgroups htodo hfixme hscratch

theorem setBack (h : Beside L d d') (back : Option String) :
    Beside L { d with back } { d' with back } := by
  obtain ⟨hmode, hgroups, htodo, hfixme, hscratch⟩ := h
  exact .of_eq rfl hmode hgroups htodo hfixme hscratch

theorem setMode (h : Beside L d d') (literate : Bool) :
    Beside L { d with doc := { d.doc with literate } }
      { d' with doc := { d'.doc with literate } } := by
  obtain ⟨hmode, hgroups, htodo, hfixme, hscratch⟩ := h
  exact .of_eq rfl hmode hgroups htodo hfixme hscratch

theorem setReported (h : Beside L d d') (reported : Bool) :
    Beside L { d with looseReported := reported } { d' with looseReported := reported } := by
  obtain ⟨hmode, hgroups, htodo, hfixme, hscratch⟩ := h
  exact .of_eq rfl hmode hgroups htodo hfixme hscratch

theorem setScratch (h : Beside L d d') {s t : Option Scratch} (hst : s = t)
    (ht : ∀ c, t = some c → L.plain c.group) :
    Beside L { d with scratch := s } { d' with scratch := t } := by
  obtain ⟨hmode, hgroups, htodo, hfixme, -⟩ := h
  exact .of_eq (hst ▸ rfl) hmode hgroups htodo hfixme ht

/-! ## Groups and sections -/

theorem updateAt (h : Beside L d d') (i : GroupId) {f : Group → Group}
    (hf : L.group i (d.doc.store.get i) (d'.doc.store.get i) →
      L.group i (f (d.doc.store.get i)) (f (d'.doc.store.get i))) :
    Beside L { d with doc := d.doc.updateGroup i f }
      { d' with doc := d'.doc.updateGroup i f } := by
  obtain ⟨hmode, hgroups, htodo, hfixme, hscratch⟩ := h
  exact .of_eq rfl hmode (hgroups.update i (hf (hgroups.group i))) htodo hfixme hscratch

theorem updateGroup (h : Beside L d d') {f : Group → Group}
    (hf : L.group d'.group d.currentGroup d'.currentGroup →
      L.group d'.group (f d.currentGroup) (f d'.currentGroup)) :
    Beside L (d.updateGroup f) (d'.updateGroup f) := by
  obtain ⟨hmode, hgroups, htodo, hfixme, hscratch⟩ := h
  exact .of_eq rfl hmode (hgroups.update _ (hf (hgroups.group _))) htodo hfixme hscratch

theorem describe (h : Beside L d d') (f : Group → Group)
    (hf : ∀ g es, f { g with entries := es } = { f g with entries := es }) :
    Beside L (d.updateGroup f) (d'.updateGroup f) :=
  h.updateGroup (L.describe f hf)

theorem addEntry (h : Beside L d d') (x : Entry) :
    Beside L (d.addEntry x) (d'.addEntry x) :=
  h.updateGroup (L.addEntry x)

theorem freshGroup (h : Beside L d d') : Beside L d.freshGroup d'.freshGroup := by
  obtain ⟨hmode, hgroups, htodo, hfixme, hscratch⟩ := h
  refine .of_eq ?_ hmode hgroups.insert htodo hfixme hscratch
  simp only [Draft.freshGroup, changed, Document.insertGroup, hgroups.nextId]

theorem placeGroup (h : Beside L d d') (i : GroupId) :
    Beside L (d.placeGroup i) (d'.placeGroup i) := by
  obtain ⟨hmode, hgroups, htodo, hfixme, hscratch⟩ := h
  exact .of_eq rfl hmode hgroups htodo hfixme hscratch

theorem place (h : Beside L d d') : Beside L d.place d'.place := by
  rw [Draft.place, Draft.place, h.group]
  exact h.placeGroup _

theorem flush (h : Beside L d d') : Beside L d.flush d'.flush := by
  rw [Draft.flush, Draft.flush, h.pending]
  cases d'.pending with
  | none => exact h
  | some e => exact ((h.addEntry e.settled).setPending none).setStyle none

theorem pend (h : Beside L d d') (p : Option Entry) :
    Beside L { d.flush with pending := p } { d'.flush with pending := p } :=
  h.flush.setPending p

theorem closeComment (h : Beside L d d') : Beside L d.closeComment d'.closeComment :=
  h.flush.setStyle none

theorem openSection (h : Beside L d d') (title : String) :
    Beside L (d.openSection title) (d'.openSection title) := by
  have hfresh := h.flush.freshGroup
  rw [Draft.openSection, Draft.openSection]
  generalize d.flush.freshGroup = e at hfresh
  generalize d'.flush.freshGroup = e' at hfresh
  obtain ⟨hmode, hgroups, htodo, hfixme, hscratch⟩ := hfresh
  exact .of_eq rfl hmode hgroups htodo hfixme hscratch

theorem ensureSection (h : Beside L d d') (reason : Option Template) :
    Beside L (d.ensureSection reason).1 (d'.ensureSection reason).1 := by
  unfold Draft.ensureSection
  rw [h.hasSection]
  split
  · exact h
  · rw [h.fullname]
    exact (h.openSection _).addEntry _

theorem addPlaced (h : Beside L d d') (x : Entry) :
    Beside L (d.flush.addEntry x).place (d'.flush.addEntry x).place :=
  (h.flush.addEntry x).place

/-! ## Text and source -/

theorem appendText (h : Beside L d d') (text : String) (onNewLine : Bool) :
    Together (Beside L) (d.appendText text onNewLine) (d'.appendText text onNewLine) := by
  rw [Draft.appendText, Draft.appendText, h.pending]
  cases d'.pending with
  | none =>
      simp only [h.nextStyle]
      exact .ok ((h.setPending (some (.paragraph ⟨some text, d'.nextStyle⟩))).setStyle none)
  | some e =>
      refine (Together.refl (e.extend text onNewLine)).map ?_
      rintro e' _ - rfl
      exact h.setPending (some e')

theorem appendItem (h : Beside L d d') (item : ListItem) :
    Beside L (d.appendItem item) (d'.appendItem item) := by
  rw [Draft.appendItem, Draft.appendItem, h.pending]
  split
  · exact h.setPending _
  · exact h.pend _

theorem openCode (h : Beside L d d') (firstLine : String) :
    Beside L (d.openCode firstLine) (d'.openCode firstLine) := by
  rw [Draft.openCode, Draft.openCode, h.language]
  exact h.pend _

theorem captureLine (h : Beside L d d') (line : String) :
    Beside L (d.captureLine line) (d'.captureLine line) := by
  rw [Draft.captureLine, Draft.captureLine, h.captures]
  cases hs : d'.scratch with
  | none => exact h
  | some s =>
      have hplain := h.plain_scratch hs
      refine h.setScratch rfl fun c hc => ?_
      cases hc
      exact hplain

theorem attachCode (h : Beside L d d') (s : Scratch) :
    Beside L (d.attachCode s) (d'.attachCode s) := by
  rw [Draft.attachCode, Draft.attachCode]
  split
  · exact h.updateAt s.group (L.addEntry _)
  · exact h

theorem splitCapture (h : Beside L d d') : Beside L d.splitCapture d'.splitCapture := by
  rw [Draft.splitCapture, Draft.splitCapture, h.captures, h.language]
  cases hs : d'.scratch with
  | none => exact h
  | some s =>
      have hplain := h.plain_scratch hs
      simp only []
      split
      · refine (h.attachCode s).setScratch rfl fun c hc => ?_
        cases hc
        exact hplain
      · exact h

theorem startCapture (h : Beside L d d') : Beside L d.startCapture d'.startCapture := by
  have hfresh := h.freshGroup
  rw [Draft.startCapture, Draft.startCapture, h.captures]
  cases d'.scratch with
  | some s => exact h
  | none =>
      refine hfresh.setScratch ?_ fun c hc => ?_
      · rw [hfresh.group, hfresh.language]
      · cases hc
        exact h.plain_nextId

/-- Whether the captured source shows anything is asked of a plain group. -/
theorem finishCapture (h : Beside L d d') : Beside L d.finishCapture d'.finishCapture := by
  rw [Draft.finishCapture, Draft.finishCapture, h.captures]
  cases hs : d'.scratch with
  | none => exact h
  | some s =>
      have hended : Beside L { d with scratch := none } { d' with scratch := none } :=
        h.setScratch rfl fun _ hc => by cases hc
      have hattach := hended.attachCode s
      have hempty := (L.resembles (h.plain_scratch hs) (hattach.store.group s.group)).isEmpty
      simp only []
      rw [hempty]
      split
      · exact hattach
      · exact hattach.placeGroup _

/-! ## Spans -/

theorem listSpan (h : Beside L d d') {s t : Span} (hst : s = t) :
    Beside L (d.listSpan s) (d'.listSpan t) := by
  subst hst
  obtain ⟨hmode, hgroups, htodo, hfixme, hscratch⟩ := h
  rw [Draft.listSpan, Draft.listSpan]
  split
  · exact .of_eq rfl hmode hgroups (L.addTodo s htodo) hfixme hscratch
  · exact .of_eq rfl hmode hgroups htodo (L.addFixme s hfixme) hscratch
  · exact ⟨hmode, hgroups, htodo, hfixme, hscratch⟩
  · exact ⟨hmode, hgroups, htodo, hfixme, hscratch⟩

theorem addSpan (h : Beside L d d') (kind : SpanKind) (text : String) :
    Beside L (d.addSpan kind text) (d'.addSpan kind text) := by
  have hsplit := h.splitCapture
  rw [Draft.addSpan, Draft.addSpan]
  split
  · exact hsplit.pend _
  · refine (hsplit.pend _).listSpan ?_
    simp only [hsplit.group, hsplit.functionGroup, hsplit.flush.fullname, hsplit.flush.current]

theorem addKeyword (h : Beside L d d') (whole keyword text : String) :
    Together (Beside L) (d.addKeyword whole keyword text)
      (d'.addKeyword whole keyword text) := by
  rw [Draft.addKeyword, Draft.addKeyword]
  split
  · exact .ok (h.addSpan _ text)
  · exact h.appendText whole false

theorem addTodo (h : Beside L d d') (text : String) :
    Beside L (d.addTodo text) (d'.addTodo text) :=
  (h.addSpan .todo text).flush

/-! ## Tables and directives -/

theorem startTable (h : Beside L d d') (key : String) :
    Beside L
      { d with doc := { d.doc with params := putKey key {} d.doc.params }, table := some key }
      { d' with
        doc := { d'.doc with params := putKey key {} d'.doc.params }, table := some key } := by
  obtain ⟨hmode, hgroups, htodo, hfixme, hscratch⟩ := h
  exact .of_eq rfl hmode hgroups htodo hfixme hscratch

theorem closeTable (h : Beside L d d') : Beside L d.closeTable d'.closeTable :=
  (h.addPlaced _).setTable none none

/-- Loose mode is reported alike if it is the same in both. -/
theorem setLoose (h : Beside L d d') (hmode : L.SameMode) (enabled : Bool) :
    Beside L (d.setLoose enabled) (d'.setLoose enabled) := by
  have hset : Beside L { d with doc := { d.doc with loose := enabled } }
      { d' with doc := { d'.doc with loose := enabled } } := by
    obtain ⟨-, hgroups, htodo, hfixme, hscratch⟩ := h
    exact .of_eq rfl ((hmode _ _).2 rfl) hgroups htodo hfixme hscratch
  have hreported : d.looseReported = d'.looseReported := by
    rw [h.eq_changed, changed]
  rw [Draft.setLoose, Draft.setLoose]
  simp only [hreported]
  split
  · exact (hset.setReported true).addTodo _
  · exact hset.setReported d'.looseReported

/-- A directive is obeyed, or refused, alike, if the mode that it switches is. -/
theorem applyDirective (h : Beside L d d') {option : String} {enabled : Bool}
    {R : Draft → Draft → Prop} (hliterate : R (d.setLiterate enabled) (d'.setLiterate enabled))
    (hloose : option = "loose" → R (d.setLoose enabled) (d'.setLoose enabled))
    (line : Option Int) :
    Together R (d.applyDirective option enabled line) (d'.applyDirective option enabled line) := by
  have hallowed : d.allowedOptions = d'.allowedOptions := by
    rw [h.eq_changed, changed]
  have hfile : d.file = d'.file := by
    rw [h.eq_changed, changed]
  rw [Draft.applyDirective, Draft.applyDirective, hallowed, hfile]
  split
  · next mode hmode =>
      split
      · cases mode with
        | literate => exact .ok hliterate
        | loose =>
            unfold Mode.ofOption? at hmode
            split at hmode
            · cases hmode
            · exact .ok (hloose rfl)
            · cases hmode
      · exact .error _
  · exact .error _

theorem flagUndocumented (h : Beside L d d') (hmode : L.SameMode) :
    Beside L d.flagUndocumented d'.flagUndocumented := by
  have hfresh := h.freshGroup
  rw [Draft.flagUndocumented, Draft.flagUndocumented]
  simp only [(hmode _ _).1 hfresh.mode]
  split
  · exact hfresh
  · exact hfresh.addTodo _

/-! ## Declarations -/

theorem discardNodoc? (h : Beside L d d') (hs : L.Skips d'.group) :
    Option.Rel (Beside L) d.discardNodoc? d'.discardNodoc? := by
  have hgroup : L.group d'.group d.currentGroup d'.currentGroup := by
    rw [Draft.currentGroup, Draft.currentGroup, h.group]
    exact h.store.group _
  obtain ⟨hlast, hdrop⟩ := hs _ _ hgroup
  rw [Draft.discardNodoc?, Draft.discardNodoc?, h.pending, hlast]
  split
  · exact .some (h.setPending none)
  · split
    · next hnodoc => exact .some ((h.updateGroup fun _ => hdrop hnodoc).setPending none)
    · exact .none

theorem declareFunction (h : Beside L d d') (hs : L.Skips d'.group) (binding : Binding)
    (name : String) (params : Option String) :
    Beside L (d.declareFunction binding name params)
      (d'.declareFunction binding name params) := by
  have hskip := h.discardNodoc? hs
  have hgroup := h.describe
    (fun g => { g with function := some (trim name), binding := some binding, params := params })
    fun _ _ => rfl
  rw [Draft.declareFunction, Draft.declareFunction]
  generalize d.discardNodoc? = x at hskip
  generalize d'.discardNodoc? = y at hskip
  cases hskip with
  | some hs => exact hs
  | none => exact hgroup.place.setFunction (congrArg some hgroup.group)

theorem declareConstant (h : Beside L d d') (hs : L.Skips d'.group) (name : String) :
    Beside L (d.declareConstant name) (d'.declareConstant name) := by
  have hskip := h.discardNodoc? hs
  have hgroup := h.describe (fun g => { g with constant := some (trim name) }) fun _ _ => rfl
  rw [Draft.declareConstant, Draft.declareConstant]
  generalize d.discardNodoc? = x at hskip
  generalize d'.discardNodoc? = y at hskip
  cases hskip with
  | some hs => exact hs
  | none => exact hgroup.place.setFunction (congrArg some hgroup.group)

theorem register (h : Beside L d d') (key : String) (kind : ParamKind) :
    Together (Beside L) (d.register key kind) (d'.register key kind) := by
  obtain ⟨hmode, hgroups, htodo, hfixme, hscratch⟩ := h
  unfold Draft.register
  split
  · exact .ok (.of_eq rfl hmode hgroups htodo hfixme hscratch)
  · next table _ ht =>
      replace ht : d'.table = some table := ht
      simp only [ht]
      exact .ok (.of_eq rfl hmode hgroups htodo hfixme hscratch)
  · next ht =>
      replace ht : d'.table = none := ht
      simp only [ht]
      exact .error _

end Beside

end Draft

end DocComment
