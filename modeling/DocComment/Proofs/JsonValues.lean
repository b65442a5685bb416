import DocComment.Document.Json
import DocComment.Proofs.JsonText
import Mathlib.Data.List.Nodup
import Mathlib.Data.List.Perm.Subperm

/-!
# Values and their sorted forms

A value is printed in its sorted form, in which the members of every object are in the
order of their names. That form is what two values that are equal as JSON values have in
common: equality there looks at what stands under each name and not at where it stands
(`Same`), and where the names of every object differ it comes to the same as equality of
the sorted forms (`same_iff_sorted`).

The names differ in whatever a document consists of, as the names of every kind of object
are fixed. The tables of a document are the one object whose names come from its source.
-/

namespace DocComment

namespace Json

mutual

/-- Whether two values are equal as JSON values: objects that have as many members and,
for each of them, one of the same name with an equal value. -/
def Same : Json → Json → Prop
  | null, null => True
  | bool b, bool b' => b = b'
  | int n, int n' => n = n'
  | str s, str s' => s = s'
  | arr items, arr items' => SameItems items items'
  | obj members, obj members' =>
    members.length = members'.length ∧ SameMembers members members'
  | _, _ => False

/-- Items that are equal place by place. -/
def SameItems : List Json → List Json → Prop
  | [], [] => True
  | j :: js, j' :: js' => j.Same j' ∧ SameItems js js'
  | _, _ => False

/-- Members of which each is found among the others. -/
def SameMembers : List (String × Json) → List (String × Json) → Prop
  | [], _ => True
  | (k, j) :: ms, others => (∃ m ∈ others, m.1 = k ∧ j.Same m.2) ∧ SameMembers ms others

end

/-- Whether the names of every object differ. -/
inductive Distinct : Json → Prop where
  | null : Distinct null
  | bool (b : Bool) : Distinct (bool b)
  | int (n : Int) : Distinct (int n)
  | str (s : String) : Distinct (str s)
  | arr {items : List Json} (h : ∀ j ∈ items, Distinct j) : Distinct (arr items)
  | obj {members : List (String × Json)} (names : (members.map (·.1)).Nodup)
      (h : ∀ m ∈ members, Distinct m.2) : Distinct (obj members)

/-- Whether the members of every object are in the order of their names. -/
inductive Ordered : Json → Prop where
  | null : Ordered null
  | bool (b : Bool) : Ordered (bool b)
  | int (n : Int) : Ordered (int n)
  | str (s : String) : Ordered (str s)
  | arr {items : List Json} (h : ∀ j ∈ items, Ordered j) : Ordered (arr items)
  | obj {members : List (String × Json)} (names : (members.map (·.1)).Pairwise (· ≤ ·))
      (h : ∀ m ∈ members, Ordered m.2) : Ordered (obj members)

/-! ## Sorting -/

theorem sortedItems_eq (items : List Json) : sortedItems items = items.map sorted := by
  induction items with
  | nil => rfl
  | cons j js ih => rw [sortedItems, ih, List.map_cons]

/-- A member with its value sorted. -/
def sortedMember (m : String × Json) : String × Json :=
  (m.1, m.2.sorted)

theorem insertMember_perm (m : String × Json) (ms : List (String × Json)) :
    (insertMember m ms).Perm (m :: ms) := by
  induction ms with
  | nil => exact .refl _
  | cons n ns ih =>
      rw [insertMember]
      split
      · exact (ih.cons n).trans (.swap m n ns)
      · exact .refl _

theorem sortedMembers_perm (members : List (String × Json)) :
    (sortedMembers members).Perm (members.map sortedMember) := by
  induction members with
  | nil => exact .refl _
  | cons m ms ih =>
      rw [sortedMembers, List.map_cons]
      exact (insertMember_perm _ _).trans (ih.cons _)

/-- A member is put where it keeps the order. -/
theorem pairwise_insertMember {m : String × Json} {ms : List (String × Json)}
    (h : ms.Pairwise (·.1 ≤ ·.1)) : (insertMember m ms).Pairwise (·.1 ≤ ·.1) := by
  induction ms with
  | nil => exact List.pairwise_singleton _ _
  | cons n ns ih =>
      rw [insertMember]
      obtain ⟨hn, hns⟩ := List.pairwise_cons.1 h
      split
      · next hlt =>
          refine List.pairwise_cons.2 ⟨fun x hx => ?_, ih hns⟩
          rcases List.mem_cons.1 ((insertMember_perm m ns).mem_iff.1 hx) with rfl | hx
          · exact String.lt_asymm hlt
          · exact hn x hx
      · next hge =>
          refine List.pairwise_cons.2 ⟨fun x hx => ?_, h⟩
          rcases List.mem_cons.1 hx with rfl | hx
          · exact hge
          · exact String.le_trans hge (hn x hx)

theorem pairwise_sortedMembers (members : List (String × Json)) :
    (sortedMembers members).Pairwise (·.1 ≤ ·.1) := by
  induction members with
  | nil => exact List.Pairwise.nil
  | cons m ms ih => exact pairwise_insertMember ih

/-- Sorting puts the members of every object in order. -/
theorem ordered_sorted (j : Json) : j.sorted.Ordered := by
  induction j using inductionOn with
  | null => exact .null
  | bool b => exact .bool b
  | int n => exact .int n
  | str s => exact .str s
  | arr items ih =>
      rw [sorted, sortedItems_eq]
      exact .arr (List.forall_mem_map.2 ih)
  | obj members ih =>
      rw [sorted]
      refine .obj (List.pairwise_map.2 (pairwise_sortedMembers members)) fun m hm => ?_
      obtain ⟨n, hn, rfl⟩ := List.mem_map.1 ((sortedMembers_perm members).mem_iff.1 hm)
      exact ih n hn

/-! ## Equality -/

theorem sameItems_iff {items items' : List Json} :
    SameItems items items' ↔ List.Forall₂ Same items items' := by
  induction items generalizing items' with
  | nil => cases items' <;> simp [SameItems]
  | cons j js ih => cases items' <;> simp [SameItems, ih]

theorem sameMembers_iff {members members' : List (String × Json)} :
    SameMembers members members' ↔
      ∀ m ∈ members, ∃ m' ∈ members', m'.1 = m.1 ∧ m.2.Same m'.2 := by
  induction members with
  | nil => simp [SameMembers]
  | cons m ms ih =>
      obtain ⟨k, j⟩ := m
      rw [SameMembers, ih, List.forall_mem_cons]

theorem nodup_of_names {members : List (String × Json)} (h : (members.map (·.1)).Nodup) :
    (members.map sortedMember).Nodup := by
  refine List.Nodup.of_map (·.1) ?_
  rwa [List.map_map]

/-- Two members of an object with different names have one name only if they are the
same. -/
theorem eq_of_name {members : List (String × Json)} (h : (members.map (·.1)).Nodup)
    {m n : String × Json} (hm : m ∈ members) (hn : n ∈ members) (hname : m.1 = n.1) : m = n :=
  List.inj_on_of_nodup_map h hm hn hname

/-- The sorted members of an object are given by which members it has. -/
theorem sortedMembers_eq_iff {members members' : List (String × Json)}
    (h : (members.map (·.1)).Nodup) :
    sortedMembers members = sortedMembers members' ↔
      (members.map sortedMember).Perm (members'.map sortedMember) := by
  constructor
  · intro heq
    exact (sortedMembers_perm members).symm.trans (heq ▸ sortedMembers_perm members')
  · intro hperm
    have hsorted : (sortedMembers members).Perm (sortedMembers members') :=
      (sortedMembers_perm members).trans (hperm.trans (sortedMembers_perm members').symm)
    refine hsorted.eq_of_pairwise ?_ (pairwise_sortedMembers members)
      (pairwise_sortedMembers members')
    intro a b ha hb hab hba
    have hnames : ((sortedMembers members).map (·.1)).Nodup := by
      rw [((sortedMembers_perm members).map _).nodup_iff, List.map_map]
      exact h
    exact eq_of_name hnames ha (hsorted.mem_iff.2 hb) (String.le_antisymm hab hba)

theorem same_obj_iff {members members' : List (String × Json)}
    (h : (members.map (·.1)).Nodup)
    (ih : ∀ m ∈ members, ∀ m' ∈ members', m.2.Same m'.2 ↔ m.2.sorted = m'.2.sorted) :
    (obj members).Same (obj members') ↔ sortedMembers members = sortedMembers members' := by
  rw [sortedMembers_eq_iff h, Same, sameMembers_iff]
  constructor
  · rintro ⟨hlength, hmembers⟩
    have hsubset : members.map sortedMember ⊆ members'.map sortedMember := by
      intro x hx
      obtain ⟨m, hm, rfl⟩ := List.mem_map.1 hx
      obtain ⟨m', hm', hname, hsame⟩ := hmembers m hm
      refine List.mem_map.2 ⟨m', hm', Prod.ext hname ?_⟩
      exact ((ih m hm m' hm').1 hsame).symm
    refine ((nodup_of_names h).subperm hsubset).perm_of_length_le ?_
    exact Nat.le_of_eq (by simp [hlength])
  · intro hperm
    refine ⟨by simpa using hperm.length_eq, fun m hm => ?_⟩
    obtain ⟨m', hm', heq⟩ := List.mem_map.1 (hperm.mem_iff.1 (List.mem_map_of_mem hm))
    obtain ⟨hname, hvalue⟩ := Prod.ext_iff.1 heq
    exact ⟨m', hm', hname, (ih m hm m' hm').2 hvalue.symm⟩

theorem same_arr_iff {items items' : List Json}
    (ih : ∀ j ∈ items, ∀ j' ∈ items', j.Same j' ↔ j.sorted = j'.sorted) :
    (arr items).Same (arr items') ↔ items.map sorted = items'.map sorted := by
  rw [Same, sameItems_iff]
  induction items generalizing items' with
  | nil => cases items' <;> simp
  | cons j js hjs =>
      cases items' with
      | nil => simp
      | cons j' js' =>
          rw [List.forall₂_cons, ih j List.mem_cons_self j' List.mem_cons_self,
            hjs fun i hi i' hi' => ih i (List.mem_cons_of_mem _ hi) i' (List.mem_cons_of_mem _ hi')]
          simp

/-- Where names differ, two values are equal as JSON values just in case they have the
same sorted form. -/
theorem same_iff_sorted {j j' : Json} (h : j.Distinct) (h' : j'.Distinct) :
    j.Same j' ↔ j.sorted = j'.sorted := by
  induction j using inductionOn generalizing j' with
  | null => cases j' <;> simp [Same, sorted]
  | bool b => cases j' <;> simp [Same, sorted]
  | int n => cases j' <;> simp [Same, sorted]
  | str s => cases j' <;> simp [Same, sorted]
  | arr items ih =>
      cases h with
      | arr h =>
      cases h' with
      | arr h' =>
          rw [same_arr_iff fun j hj j' hj' => ih j hj (h j hj) (h' j' hj'), sorted, sorted,
            sortedItems_eq, sortedItems_eq, arr.injEq]
      | _ => simp [Same, sorted]
  | obj members ih =>
      cases h with
      | obj hnames h =>
      cases h' with
      | obj _ h' =>
          rw [same_obj_iff hnames fun m hm m' hm' => ih m hm (h m hm) (h' m' hm'), sorted,
            sorted, obj.injEq]
      | _ => simp [Same, sorted]

theorem sortedMembers_of_ordered {members : List (String × Json)}
    (names : (members.map (·.1)).Pairwise (· ≤ ·)) (h : ∀ m ∈ members, m.2.sorted = m.2) :
    sortedMembers members = members := by
  induction members with
  | nil => rfl
  | cons m ms ih =>
      obtain ⟨k, j⟩ := m
      rw [List.map_cons, List.pairwise_cons] at names
      rw [sortedMembers, ih names.2 fun n hn => h n (List.mem_cons_of_mem _ hn),
        h (k, j) List.mem_cons_self]
      cases ms with
      | nil => rfl
      | cons n ns => exact if_neg (names.1 n.1 List.mem_cons_self)

/-- A value in order is its own sorted form. -/
theorem sorted_of_ordered {j : Json} (h : j.Ordered) : j.sorted = j := by
  induction j using inductionOn with
  | null | bool | int | str => rfl
  | arr items ih =>
      cases h with
      | arr h =>
          have hitems : items.map sorted = items.map id :=
            List.map_congr_left fun j hj => ih j hj (h j hj)
          rw [sorted, sortedItems_eq, hitems, List.map_id]
  | obj members ih =>
      cases h with
      | obj names h =>
          rw [sorted, sortedMembers_of_ordered names fun m hm => ih m hm (h m hm)]

theorem distinct_sorted {j : Json} (h : j.Distinct) : j.sorted.Distinct := by
  induction j using inductionOn with
  | null | bool | int | str => exact h
  | arr items ih =>
      cases h with
      | arr h =>
          rw [sorted, sortedItems_eq]
          exact .arr (List.forall_mem_map.2 fun j hj => ih j hj (h j hj))
  | obj members ih =>
      cases h with
      | obj names h =>
          have hperm := sortedMembers_perm members
          refine .obj ?_ fun m hm => ?_
          · rw [(hperm.map _).nodup_iff, List.map_map]
            exact names
          · obtain ⟨n, hn, rfl⟩ := List.mem_map.1 (hperm.mem_iff.1 hm)
            exact ih n hn (h n hn)

/-- Sorting changes nothing but the order. -/
theorem same_sorted {j : Json} (h : j.Distinct) : j.Same j.sorted :=
  (same_iff_sorted h (distinct_sorted h)).2 (sorted_of_ordered (ordered_sorted j)).symm

end Json

end DocComment
