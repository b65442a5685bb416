import DocComment.Proofs.Growth
import DocComment.Proofs.Writes

/-!
# A document is only added to

Whatever line is read, and at the end of a source, what was in the document before is
still there and in the same place: its sections, their groups, the entries of every group,
what is listed to do and to mend, and the parameters of the library (`Draft.Adds`).
Nothing is put before anything else, and no entry changes once it is in its group.

There is one exception. A declaration that finds `nodoc` as the last paragraph of the
current group takes that paragraph away. A line declares at most one item and does so
last, so one line takes away at most one paragraph; and if it comes upon a group that it
made itself, it has taken away nothing that was there before. The same holds of groups
that were never in any section.
-/

namespace DocComment

open Text Relation Reader

/-- The second section is the first one with more groups at its end. -/
structure Section.Extends (s s' : Section) : Prop where
  title : s'.title = s.title
  name : s'.name = s.name
  groups : s.groups <+: s'.groups

/-- Every section of the first list stands at its place in the second one, with more
groups at its end. -/
def Section.ExtendAll (l l' : List Section) : Prop :=
  ∀ (n : Nat) (s : Section), l[n]? = some s → ∃ s', l'[n]? = some s' ∧ s.Extends s'

namespace Section

theorem Extends.refl (s : Section) : s.Extends s :=
  ⟨rfl, rfl, List.prefix_refl _⟩

theorem Extends.trans {s s' s'' : Section} (h : s.Extends s') (h' : s'.Extends s'') :
    s.Extends s'' :=
  ⟨h'.title.trans h.title, h'.name.trans h.name, h.groups.trans h'.groups⟩

theorem extends_place (s : Section) (i : GroupId) : s.Extends (s.place i) := by
  rw [place]
  split
  · exact .refl s
  · exact ⟨rfl, rfl, List.prefix_append _ _⟩

theorem ExtendAll.refl (l : List Section) : ExtendAll l l :=
  fun _ s hs => ⟨s, hs, .refl s⟩

theorem ExtendAll.trans {l l' l'' : List Section} (h : ExtendAll l l') (h' : ExtendAll l' l'') :
    ExtendAll l l'' := by
  intro n s hs
  obtain ⟨s', hs', hx⟩ := h n s hs
  obtain ⟨s'', hs'', hx'⟩ := h' n s' hs'
  exact ⟨s'', hs'', hx.trans hx'⟩

theorem extendAll_append (l rest : List Section) : ExtendAll l (l ++ rest) := by
  intro n s hs
  have hn : n < l.length := (List.getElem?_eq_some_iff.1 hs).1
  exact ⟨s, by rw [List.getElem?_append_left hn, hs], .refl s⟩

/-- Only the last section changes. -/
theorem extendAll_concat (l : List Section) {s s' : Section} (h : s.Extends s') :
    ExtendAll (l ++ [s]) (l ++ [s']) := by
  intro n t ht
  rcases Nat.lt_or_ge n l.length with hn | hn
  · rw [List.getElem?_append_left hn] at ht ⊢
    exact ⟨t, ht, .refl t⟩
  · rw [List.getElem?_append_right hn, List.getElem?_singleton] at ht
    split at ht
    · next hz =>
        obtain rfl := Option.some.inj ht
        refine ⟨s', ?_, h⟩
        rw [List.getElem?_append_right hn, hz]
        rfl
    · cases ht

end Section

theorem GroupStore.get_of_not_holds {s : GroupStore} {i : GroupId} (h : ¬ s.Holds i) :
    s.get i = {} := by
  rw [Holds, Nat.not_lt] at h
  simp [get, h]

namespace Draft

/-- The second draft is the first one with more at the ends of its lists. The entries of
one group may be left out of that. -/
structure Adds (except : Option GroupId) (d e : Draft) : Prop where
  sections : Section.ExtendAll d.document.sections e.document.sections
  todos : d.todos <+: e.todos
  fixmes : d.fixmes <+: e.fixmes
  libParams : d.doc.libParams.groups <+: e.doc.libParams.groups
  held : ∀ i, d.doc.store.Holds i → e.doc.store.Holds i
  /-- A group that is no longer the current one never is again. -/
  group : e.group = d.group ∨ ¬ d.doc.store.Holds e.group
  entries : ∀ i, except ≠ some i →
    (d.doc.store.get i).entries <+: (e.doc.store.get i).entries

variable {except : Option GroupId} {d e f : Draft}

namespace Adds

theorem refl (d : Draft) : Adds none d d where
  sections := .refl _
  todos := List.prefix_refl _
  fixmes := List.prefix_refl _
  libParams := List.prefix_refl _
  held := fun _ => id
  group := Or.inl rfl
  entries := fun _ _ => List.prefix_refl _

theorem trans (h : Adds except d e) (h' : Adds except e f) : Adds except d f where
  sections := h.sections.trans h'.sections
  todos := h.todos.trans h'.todos
  fixmes := h.fixmes.trans h'.fixmes
  libParams := h.libParams.trans h'.libParams
  held := fun i hi => h'.held i (h.held i hi)
  group := by
    rcases h'.group with hg | hg
    · rw [hg]
      exact h.group
    · exact Or.inr fun hd => hg (h.held _ hd)
  entries := fun i hi => (h.entries i hi).trans (h'.entries i hi)

theorem weaken (h : Adds none d e) (except : Option GroupId) : Adds except d e :=
  { h with entries := fun i _ => h.entries i (by simp) }

/-- A group that was not there before has lost nothing. -/
theorem of_new {i : GroupId} (h : Adds (some i) d e) (hi : ¬ d.doc.store.Holds i) :
    Adds none d e := by
  refine { h with entries := fun j _ => ?_ }
  by_cases hj : i = j
  · subst hj
    rw [GroupStore.get_of_not_holds hi]
    exact List.nil_prefix
  · exact h.entries j fun hs => hj (Option.some.inj hs)

/-- Sections of a draft, of which the last one is open. -/
theorem sections_of (h : Section.ExtendAll (d.doc.sections ++ d.current.toList)
    (e.doc.sections ++ e.current.toList)) :
    Section.ExtendAll d.document.sections e.document.sections := by
  rw [document_sections, document_sections]
  exact h

end Adds

/-! ## Writes -/

theorem adds_updateGroup (d : Draft) (i : GroupId) {f : Group → Group}
    (hf : ∀ g, g.entries <+: (f g).entries) :
    Adds none d { d with doc := d.doc.updateGroup i f } := by
  refine { Adds.refl d with
    sections := Adds.sections_of (.refl _)
    held := fun _ => GroupStore.holds_update.2
    entries := fun j _ => ?_ }
  rcases d.doc.store.get_update_cases i j f with hj | ⟨-, hj⟩
  · exact (congrArg Group.entries hj).symm ▸ List.prefix_refl _
  · exact (congrArg Group.entries hj).symm ▸ hf _

theorem adds_freshGroup (d : Draft) : Adds none d d.freshGroup := by
  refine { Adds.refl d with
    sections := Adds.sections_of (.refl _)
    held := fun i hi => GroupStore.holds_insert.2 (Or.inl hi)
    group := Or.inr d.doc.store.not_holds_nextId
    entries := fun i _ => ?_ }
  exact (d.doc.store.get_insert_empty i).symm ▸ List.prefix_refl _

theorem adds_placeGroup (d : Draft) (i : GroupId) : Adds none d (d.placeGroup i) := by
  refine { Adds.refl d with sections := Adds.sections_of ?_ }
  rw [placeGroup]
  cases d.current with
  | none => exact .refl _
  | some s => exact Section.extendAll_concat _ (s.extends_place i)

theorem adds_listSpan (d : Draft) (s : Span) : Adds none d (d.listSpan s) := by
  rw [listSpan]
  split
  · exact { Adds.refl d with
      sections := Adds.sections_of (.refl _), todos := List.prefix_append _ _ }
  · exact { Adds.refl d with
      sections := Adds.sections_of (.refl _), fixmes := List.prefix_append _ _ }
  · exact .refl d
  · exact .refl d

theorem adds_register {key : String} {kind : ParamKind} (h : d.register key kind = .ok e) :
    Adds none d e := by
  unfold register at h
  split at h
  · refine Except.ok.inj h ▸ { Adds.refl d with sections := Adds.sections_of (.refl _)
                                                libParams := ?_ }
    rw [ParamTable.groups_insert]
    exact List.prefix_append _ _
  · exact Except.ok.inj h ▸ { Adds.refl d with sections := Adds.sections_of (.refl _) }
  · cases h

/-- Nothing that is written takes anything away. -/
theorem Write.adds (h : Write d e) : Adds none d e := by
  cases h with
  | remember => exact { Adds.refl d with sections := Adds.sections_of (.refl _) }
  | freshGroup => exact adds_freshGroup d
  | addEntry i e => exact adds_updateGroup d i fun _ => List.prefix_append _ _
  | describe hf => exact adds_updateGroup d d.group fun g => hf g ▸ List.prefix_refl _
  | placeGroup i => exact adds_placeGroup d i
  | opened title name =>
      exact { Adds.refl d with sections := Adds.sections_of (Section.extendAll_append _ _) }
  | listSpan s => exact adds_listSpan d s
  | clearTable key => exact { Adds.refl d with sections := Adds.sections_of (.refl _) }
  | @declare f key definition kind _ h =>
      have htag := adds_updateGroup d d.group (f := fun g =>
        { g with param := some key, paramKind := some kind, params := definition })
        fun _ => List.prefix_refl _
      exact ((htag.trans (adds_register h)).trans (adds_placeGroup f f.group)).trans
        (adds_freshGroup _)

theorem Writes.adds (h : Writes d e) : Adds none d e := by
  induction h with
  | refl => exact .refl d
  | tail _ hw ih => exact ih.trans hw.adds

/-- A declaration that is skipped takes away what says so, and nothing else. -/
theorem Skips.adds (h : Skips d e) : Adds (some d.group) d e := by
  obtain ⟨-, rfl⟩ := h
  refine { (Adds.refl d).weaken (some d.group) with
    sections := Adds.sections_of (.refl _)
    held := fun _ => GroupStore.holds_update.2
    entries := fun i hi => ?_ }
  have hne : i ≠ d.group := fun h => hi (congrArg some h.symm)
  exact (congrArg Group.entries (GroupStore.get_update_of_ne hne _)).symm ▸ List.prefix_refl _

theorem Entry.eq_paragraph_of_isNodoc {e : Entry} (h : e.isNodoc) :
    ∃ p, e = .paragraph p ∧ p.text = some "nodoc" := by
  cases e with
  | paragraph p => exact ⟨p, rfl, by simpa [Entry.isNodoc] using h⟩
  | _ => cases h

/-- The current group had a last paragraph that says `nodoc`, and keeps what stood before
it. -/
theorem Skips.kept (h : Skips d e) :
    ∃ p, (d.doc.store.get d.group).entries = (e.doc.store.get d.group).entries ++ [.paragraph p] ∧
      p.text = some "nodoc" := by
  obtain ⟨hlast, rfl⟩ := h
  rw [Option.any_eq_true] at hlast
  obtain ⟨last, hlast, hn⟩ := hlast
  obtain ⟨p, rfl, hp⟩ := Entry.eq_paragraph_of_isNodoc hn
  have hheld : d.doc.store.Holds d.group := by
    refine Classical.byContradiction fun hno => ?_
    rw [currentGroup, GroupStore.get_of_not_holds hno] at hlast
    cases hlast
  obtain ⟨kept, hkept⟩ := List.getLast?_eq_some_iff.1 hlast
  refine ⟨p, hkept.trans (congrArg (· ++ [_]) ?_), hp⟩
  have hget := congrArg Group.entries (GroupStore.get_update_self hheld
    fun g => { g with entries := g.entries.dropLast })
  refine Eq.trans ?_ hget.symm
  rw [currentGroup] at hkept
  rw [hkept, List.dropLast_concat]

/-- The second draft is the first one with more in it, but the current group of the first
one has lost a last paragraph that says `nodoc`. -/
structure Loses (d e : Draft) : Prop where
  adds : Adds (some d.group) d e
  nodoc : ∃ kept p, d.currentGroup.entries = kept ++ [.paragraph p] ∧ p.text = some "nodoc" ∧
    kept <+: (e.doc.store.get d.group).entries

/-- What is written before a declaration that is skipped, and after it. -/
theorem adds_or_loses {declares : Prop} {d' : Draft} (h : Writes d d')
    (hw : Written declares d' e) (h' : Writes e f) : Adds none d f ∨ declares ∧ Loses d f := by
  obtain ⟨d₁, hw, rfl | ⟨hdecl, hskip⟩⟩ := hw
  · exact Or.inl ((h.trans hw).adds.trans h'.adds)
  have hbefore : Adds none d d₁ := (h.trans hw).adds
  have hall : Adds (some d₁.group) d f :=
    ((hbefore.weaken _).trans hskip.adds).trans (h'.adds.weaken _)
  rcases hbefore.group with hsame | hnew
  · rw [hsame] at hall
    obtain ⟨p, hlast, hp⟩ := hskip.kept
    rw [hsame] at hlast
    have hkept := h'.adds.entries d.group (by simp)
    have hold := hbefore.entries d.group (by simp)
    rw [hlast, List.prefix_concat_iff] at hold
    -- either the paragraph was there before, or it came and went with what was written
    rcases hold with hold | hold
    · exact Or.inr ⟨hdecl, hall, _, p, hold, hp, hkept⟩
    · refine Or.inl { hall with entries := fun i _ => ?_ }
      by_cases hi : i = d.group
      · rw [hi]
        exact hold.trans hkept
      · exact hall.entries i fun hs => hi (Option.some.inj hs).symm
  · exact Or.inl (hall.of_new hnew)

end Draft

/-! ## Readings -/

open Draft

/-- Wherever a reader of the dialect has come to: what a line does to the document,
however far it is read, and what the end of the source does, are additions. Only a line
that declares something may take away one last paragraph of the group that was the current
one before it, if that says `nodoc`. -/
theorem reaches_adds {r : Reader} (hr : r.grammar = Dialect.grammar) {doc : Document}
    (hdoc : doc.sections = []) {file : Option String} {language : String} {options : List String}
    {g₀ g : Reading}
    (h₀ : r.start Dialect.initial (Draft.start doc file language options) = .ok g₀)
    (h : r.Reaches g₀ g) :
    (∀ line g', r.feed g line = .ok g' →
      Adds none g.draft g'.draft ∨
        (∃ g₁, ReflTransGen (r.Again (dropLineEnd line)) { g with line := g.line + 1 } g₁ ∧
          g₁.Declares (dropLineEnd line)) ∧ Loses g.draft g'.draft) ∧
    (∀ line g', ReflTransGen (r.Again (dropLineEnd line)) { g with line := g.line + 1 } g' →
      Adds none g.draft g'.draft) ∧
    Adds none g.draft (Reader.finish g).draft := by
  have hg : g.Coherent := h.coherent hr (coherent_of_start hr hdoc h₀)
  refine ⟨fun line g' hf => ?_, fun line g' hagain => ?_, g.writes_finish.adds⟩
  · obtain ⟨g₁, d, hagain, hbefore, hwritten, hafter⟩ := hg.written_feed hr hf
    exact (adds_or_loses hbefore hwritten hafter).imp_right fun ⟨hdecl, hloses⟩ =>
      ⟨⟨g₁, hagain, hdecl⟩, hloses⟩
  · have hnext : Reading.Coherent { g with line := g.line + 1 } := ⟨hg.state, hg.fits⟩
    exact (hnext.writes_of_again hr hagain).adds

/-- A comment of two paragraphs, of which the second one keeps the function out. -/
theorem reaches_adds_nodoc :
    ∃ g₀ g g', ({} : Reader).start Dialect.initial
        (Draft.start (Document.new "d" none none) none "js" []) = .ok g₀ ∧
      ({} : Reader).feedAll g₀ ["// # T", "", "// text", "//", "// nodoc", "//"] = .ok g ∧
      ({} : Reader).feed g "lib.f = function(a)" = .ok g' ∧
      ¬ Adds none g.draft g'.draft ∧ Loses g.draft g'.draft := by
  let run : Except Fault (Reading × Reading × Reading) := do
    let g₀ ← ({} : Reader).start Dialect.initial
      (Draft.start (Document.new "d" none none) none "js" [])
    let g ← ({} : Reader).feedAll g₀ ["// # T", "", "// text", "//", "// nodoc", "//"]
    let g' ← ({} : Reader).feed g "lib.f = function(a)"
    return (g₀, g, g')
  have hlengths : run.toOption.map (fun (_, g, g') =>
      ((g.draft.doc.store.get g.draft.group).entries.length,
        (g'.draft.doc.store.get g.draft.group).entries.length)) = some (2, 1) := by
    decide +kernel
  cases hrun : run with
  | error f =>
      rw [hrun] at hlengths
      cases hlengths
  | ok x =>
      rw [hrun] at hlengths
      obtain ⟨g₀, h₀, hrun⟩ := ok_of_bind hrun
      obtain ⟨g, hg, hrun⟩ := ok_of_bind hrun
      obtain ⟨g', hf, hrun⟩ := ok_of_bind hrun
      cases hrun
      obtain ⟨hbefore, hafter⟩ := Prod.mk.inj (Option.some.inj hlengths)
      have hno : ¬ Adds none g.draft g'.draft := by
        intro hadds
        have hle := (hadds.entries g.draft.group (by simp)).length_le
        omega
      have hline := (reaches_adds rfl rfl h₀ (.of_feedAll hg)).1 _ _ hf
      exact ⟨g₀, g, g', h₀, hg, hf, hno, (hline.resolve_left hno).2⟩

end DocComment
