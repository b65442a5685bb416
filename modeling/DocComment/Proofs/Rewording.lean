import DocComment.Proofs.PairedReadings

/-!
# A source that was read so far in other words

Take a reading, and let everything that documentation has said by then be something else:
the groups have any other entries, and any other spans are listed (`Draft.Rewords`). Only
the current group must not come to be one that actions treat in another way. Read on from
there, the source meets no other rule and no other fault. A group that was ahead, that is
the current one or one that was still to come, gets the same entries, after what is left
of those that it had (`Reading.rewords_feedAll`). So nothing that it gets comes from what
was read before.
-/

namespace DocComment

open Reader

/-! ## Other words -/

namespace Draft

/-- The second draft is the first one in other words: its groups may have any entries, and
it may list any spans. The entries of its current group have the same marks, so that
actions do the same to it. -/
structure Rewords (d d' : Draft) : Prop where
  same : d' = d.changed d.doc.loose d'.doc.store d'.todos d'.fixmes
  size : d'.doc.store.groups.size = d.doc.store.groups.size
  current : d'.currentGroup.Resembles d.currentGroup

/-- The current group, and the groups that are still to come. -/
def Ahead (d : Draft) (i : GroupId) : Prop :=
  i = d.group ∨ ¬ d.doc.store.Holds i

end Draft

/-- A list that lost some of its end and then got a new one loses one more, alike whatever
was in it. -/
theorem dropLast_take_append {α : Type} (n : Nat) (rest : List α) (len : Nat) :
    ∃ m rest', ∀ l : List α, l.length = len →
      (l.take n ++ rest).dropLast = l.take m ++ rest' := by
  cases rest with
  | nil =>
      refine ⟨min n len - 1, [], fun l hl => ?_⟩
      rw [List.append_nil, List.append_nil, List.dropLast_eq_take, List.length_take,
        List.take_take, hl]
      congr 1
      omega
  | cons x xs =>
      exact ⟨n, (x :: xs).dropLast, fun l _ =>
        List.dropLast_append_of_ne_nil (List.cons_ne_nil x xs)⟩

/-- Groups that are ahead lose some of the entries that they had in two stores, and get
further ones that are the same. The other groups may be anything. -/
def Likeness.reworded (s t : GroupStore) (ahead : GroupId → Prop)
    (h : ∀ i, ahead i → (s.get i).Resembles (t.get i)) : Likeness where
  group i g g' := ahead i → ∃ n later,
    g = { g' with entries := (s.get i).entries.take n ++ later } ∧
      g'.entries = (t.get i).entries.take n ++ later
  plain := ahead
  loose := (· = ·)
  todos _ _ := True
  fixmes _ _ := True
  addEntry := by
    intro i g g' e hg hi
    obtain ⟨n, later, rfl, hlater⟩ := hg hi
    refine ⟨n, later ++ [e], ?_, ?_⟩ <;> simp [hlater]
  describe := by
    intro i g g' f hf hg hi
    obtain ⟨n, later, rfl, hlater⟩ := hg hi
    refine ⟨n, later, hf g' _, ?_⟩
    rw [show f g' = { f g' with entries := g'.entries } from hf g' g'.entries]
    exact hlater
  resembles := by
    intro i g g' hi hg
    obtain ⟨n, later, rfl, hlater⟩ := hg hi
    refine ⟨rfl, ?_⟩
    rw [hlater, List.map_append, List.map_append, List.map_take, List.map_take, (h i hi).marks]
  dropLast := by
    intro i g g' hi hg _
    obtain ⟨n, later, rfl, hlater⟩ := hg hi
    obtain ⟨m, later', hdrop⟩ := dropLast_take_append n later (t.get i).entries.length
    refine ⟨m, later', ?_, ?_⟩
    · rw [← hdrop _ (h i hi).length]
    · rw [← hdrop _ rfl, hlater]
  addTodo _ h := h
  addFixme _ h := h

namespace Draft.Rewords

variable {d d' : Draft}

theorem resembles (h : d.Rewords d') (i : GroupId) (hi : d.Ahead i) :
    (d'.doc.store.get i).Resembles (d.doc.store.get i) := by
  rcases hi with rfl | hi
  · have hcurrent := h.current
    rwa [currentGroup, currentGroup, h.same] at hcurrent
  · have hi' : ¬ d'.doc.store.Holds i := by
      rwa [GroupStore.Holds, h.size]
    rw [GroupStore.get_of_not_holds hi, GroupStore.get_of_not_holds hi']
    exact .of_eq rfl

/-- How a draft and its rewording stay alike. -/
def likeness (h : d.Rewords d') : Likeness :=
  .reworded d'.doc.store d.doc.store d.Ahead h.resembles

theorem bare (h : d.Rewords d') (hs : d.scratch = none) : Bare h.likeness d' d := by
  refine ⟨.of_eq h.same rfl ⟨h.size, fun i hi => Or.inr hi, fun i hi => ?_⟩ trivial trivial ?_,
    Or.inl rfl⟩
  · refine ⟨(d.doc.store.get i).entries.length, [], ?_, ?_⟩
    · have hresembles := h.resembles i hi
      rw [← hresembles.length, List.take_length, List.append_nil]
      exact hresembles.same
    · rw [List.take_length, List.append_nil]
  · intro s hc
    rw [hs] at hc
    cases hc

end Draft.Rewords

/-! ## The rest of the source -/

namespace Reading

/-- The readings end alike. -/
theorem Paired.completes {L : Likeness} {g g' : Reading}
    (h : g.Paired (fun _ => Draft.Bare L) g') (hg' : g'.Coherent) :
    g.Completes (finishReading g).1 ∧ g'.Completes (finishReading g').1 ∧
      Draft.Bare L (Reader.finish g).draft (Reader.finish g').draft := by
  have hbare := h.draft.finish h.state
  obtain ⟨hpending, hscratch⟩ := hg'.finish_settled
  have hopened := hg'.finish.2
  exact ⟨⟨hbare.beside.pending.trans hpending, hbare.beside.captures.trans hscratch,
    Draft.finish_document (hbare.beside.current ▸ hopened)⟩,
    ⟨hpending, hscratch, Draft.finish_document hopened⟩, hbare⟩

/-- Read on in other words, a source comes to the same end: a group that was ahead has
what is left of the entries that it had, and the same further ones. -/
theorem rewords_feedAll {r : Reader} {k last : Reading} {rest : List String} {d' : Draft}
    {i : GroupId} (hr : r.grammar = Dialect.grammar) (hk : k.Tracked)
    (hs : k.draft.scratch = none) (h : k.draft.Rewords d') (hi : k.draft.Ahead i)
    (hlast : r.feedAll k rest = .ok last)
    (hheld : (Reader.finish last).draft.doc.store.Holds i) :
    ∃ last' n later, r.feedAll { k with draft := d' } rest = .ok last' ∧
      ((finishReading last).1.store.get i).entries =
        (k.draft.doc.store.get i).entries.take n ++ later ∧
      ((finishReading last').1.store.get i).entries =
        (d'.doc.store.get i).entries.take n ++ later := by
  have hpaired : Paired (fun _ => Draft.Bare h.likeness) { k with draft := d' } k :=
    ⟨rfl, rfl, rfl, h.bare hs⟩
  have hall : Together (Paired fun _ => Draft.Bare h.likeness)
      (r.feedAll { k with draft := d' } rest) (r.feedAll k rest) :=
    hpaired.feedAll fun _ _ => Iff.rfl
  rcases hall.outcomes with ⟨f, -, hfault⟩ | ⟨last', last₁, hlast', hlast₁, hend⟩
  · cases hlast.symm.trans hfault
  · obtain rfl : last = last₁ := Except.ok.inj (hlast.symm.trans hlast₁)
    obtain ⟨hends', hends, hbare⟩ := hend.completes (hk.feedAll hr hlast).1.toCoherent
    obtain ⟨n, later, heq, hlater⟩ := hbare.beside.store.group i hi
    refine ⟨last', n, later, hlast', ?_, ?_⟩
    · rw [hends.groups.2 i hheld, hlater]
    · rw [hends'.groups.2 i ((hbare.beside.store.holds_iff i).2 hheld), heq]

end Reading

end DocComment
