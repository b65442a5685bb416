import DocComment.Proofs.Blocks
import Mathlib.Data.List.Forall2

/-!
# Prose of texts that differ in what no mark holds

Where a character of a page comes from cannot be read off the page. It can be read off two
pages: if the text has something else in some places and the page has its characters where
it had them, then they did not come from these places. This file compares the prose of two
texts that are alike but for pairs of blocks in each other's place (`Alike`).

The blocks are such that no step of the markup takes notice of them (`Unnoticed`): they
hold no mark and are passed over in one piece. So every step takes texts that are alike to
texts that are alike: a reader that recognises a place in one of them recognises the same
place in the other (`Agrees`), the pieces correspond to each other, and so does what is
put in their place (`alike_prose`).
-/

namespace DocComment

namespace Text

/-- Texts that are the same but for pairs of blocks in each other's place. -/
inductive Alike (pair : List Char → List Char → Prop) : List Char → List Char → Prop where
  | nil : Alike pair [] []
  | char (c : Char) {cs ds : List Char} (h : Alike pair cs ds) : Alike pair (c :: cs) (c :: ds)
  | pair {b b' cs ds : List Char} (hb : pair b b') (h : Alike pair cs ds) :
      Alike pair (b ++ cs) (b' ++ ds)

namespace Alike

variable {pair : List Char → List Char → Prop}

theorem refl (cs : List Char) : Alike pair cs cs := by
  induction cs with
  | nil => exact .nil
  | cons c cs ih => exact .char c ih

theorem append {cs ds cs' ds' : List Char} (h : Alike pair cs ds) (h' : Alike pair cs' ds') :
    Alike pair (cs ++ cs') (ds ++ ds') := by
  induction h with
  | nil => exact h'
  | char c _ ih => exact .char c ih
  | pair hb _ ih =>
      rw [List.append_assoc, List.append_assoc]
      exact .pair hb ih

theorem single {b b' : List Char} (hb : pair b b') : Alike pair b b' := by
  rw [← List.append_nil b, ← List.append_nil b']
  exact .pair hb .nil

end Alike

theorem Clear.mono {block block' : List Char → Prop} (hsub : ∀ b, block b → block' b)
    {mark : List Char} (h : Clear block' mark) : Clear block mark where
  outside := fun x hx b hb => h.outside x hx b (hsub b hb)
  unled := fun x hx b hb => h.unled x hx b (hsub b hb)

end Text

namespace Html

open Text

variable {pair : List Char → List Char → Prop}

/-! ## Blocks that are not noticed -/

/-- One of the two blocks of a pair. -/
def Side (pair : List Char → List Char → Prop) (b : List Char) : Prop :=
  ∃ b', pair b b' ∨ pair b' b

/-- The marks of inline markup. -/
def proseMarks : List String :=
  ["[math]", "[/math]", "\x60", "*", " _", "_ ", "_", "![", "](", ")", "\x27"]

/-- Pairs of blocks of which the markup does not notice which one stands in a text. -/
structure Unnoticed (pair : List Char → List Char → Prop) : Prop where
  start : ∀ b, Side pair b → b ≠ []
  clear : ∀ mark ∈ proseMarks, Clear (Side pair) mark.toList
  plain : ∀ b, Side pair b → ∀ c ∈ b, c ≠ '\x00' ∧ isDecimal c = false ∧ isBlank c = false

/-- Two readings of texts that are alike, with the same recognised in both. -/
def Parted {α : Type} (pair : List Char → List Char → Prop) (R : α → α → Prop)
    (x y : α × List Char) : Prop :=
  R x.1 y.1 ∧ Alike pair x.2 y.2

/-- A reader that reads alike what is alike. -/
def Agrees {α : Type} (pair : List Char → List Char → Prop) (R : α → α → Prop)
    (read : List Char → Option (α × List Char)) : Prop :=
  ∀ cs ds, Alike pair cs ds → Option.Rel (Parted pair R) (read cs) (read ds)

namespace Unnoticed

variable {cs ds : List Char}

/-- Blocks that are given texts, of which it can be tried out whether the markup notices
them. -/
theorem of_oneOf (texts : List String) (hsub : ∀ b, Side pair b → OneOf texts b)
    (hstart : ∀ t ∈ texts, t ≠ "") (hclear : ∀ mark ∈ proseMarks, ClearOf texts mark.toList)
    (hplain : ∀ t ∈ texts, ∀ c ∈ t.toList, c ≠ '\x00' ∧ isDecimal c = false ∧ isBlank c = false) :
    Unnoticed pair where
  start := fun b hb => ne_nil_of_oneOf hstart (hsub b hb)
  clear := fun mark hmark => (hclear mark hmark).clear.mono hsub
  plain := by
    intro b hb
    obtain ⟨t, ht, rfl⟩ := hsub b hb
    exact hplain t ht

theorem sides {b b' : List Char} (h : pair b b') : Side pair b ∧ Side pair b' :=
  ⟨⟨b', .inl h⟩, ⟨b, .inr h⟩⟩

/-- A pair of blocks, each with its first character. -/
theorem exists_cons (hp : Unnoticed pair) {b b' : List Char} (h : pair b b') :
    ∃ x w y w', b = x :: w ∧ b' = y :: w' := by
  obtain ⟨x, w, hb⟩ := List.exists_cons_of_ne_nil (hp.start _ (sides h).1)
  obtain ⟨y, w', hb'⟩ := List.exists_cons_of_ne_nil (hp.start _ (sides h).2)
  exact ⟨x, w, y, w', hb, hb'⟩

theorem onLine (hp : Unnoticed pair) {b : List Char} (hb : Side pair b) :
    ∀ c ∈ b, Html.onLine c = true := by
  intro c hc
  have hblank := (hp.plain b hb c hc).2.2
  rw [Html.onLine, bne_iff_ne]
  rintro rfl
  exact absurd hblank (by decide)

/-- The character with which a mark starts stands in no block. -/
theorem not_mem (hp : Unnoticed pair) {mark : String} (hmark : mark ∈ proseMarks) {x : Char}
    {w : List Char} (hx : mark.toList = x :: w) : ∀ b, Side pair b → x ∉ b :=
  (hp.clear mark hmark).outside x (hx ▸ rfl)

theorem eq_nil_iff (hp : Unnoticed pair) (h : Alike pair cs ds) : cs = [] ↔ ds = [] := by
  cases h with
  | nil => exact Iff.rfl
  | char => simp
  | pair hb h =>
      obtain ⟨x, w, y, w', rfl, rfl⟩ := hp.exists_cons hb
      simp

/-- A text of one character outside all blocks is its own like. -/
theorem eq_singleton_iff (hp : Unnoticed pair) {x : Char} (hx : ∀ b, Side pair b → x ∉ b)
    (h : Alike pair cs ds) : cs = [x] ↔ ds = [x] := by
  cases h with
  | nil => exact Iff.rfl
  | char c h => simp [hp.eq_nil_iff h]
  | pair hb h =>
      obtain ⟨y, w, z, w', rfl, rfl⟩ := hp.exists_cons hb
      have hy : y ≠ x := fun he => hx _ (sides hb).1 (he ▸ List.mem_cons_self)
      have hz : z ≠ x := fun he => hx _ (sides hb).2 (he ▸ List.mem_cons_self)
      simp [hy, hz]

theorem all_isBlank_eq (hp : Unnoticed pair) (h : Alike pair cs ds) :
    cs.all isBlank = ds.all isBlank := by
  induction h with
  | nil => rfl
  | char c _ ih => rw [List.all_cons, List.all_cons, ih]
  | pair hb h ih =>
      obtain ⟨x, w, y, w', rfl, rfl⟩ := hp.exists_cons hb
      have hx := (hp.plain _ (sides hb).1 x List.mem_cons_self).2.2
      have hy := (hp.plain _ (sides hb).2 y List.mem_cons_self).2.2
      rw [List.cons_append, List.cons_append, List.all_cons, List.all_cons, hx, hy]
      rfl

end Unnoticed

/-! ## Readers -/

/-- A mark is not found within a block. -/
theorem upTo?_passed {x : Char} {mark w : List Char} (hx : x ∉ w) (hline : ∀ c ∈ w, onLine c = true)
    (cs : List Char) : upTo? onLine (x :: mark) (w ++ cs) =
      (upTo? onLine (x :: mark) cs).map fun (body, rest) => (w ++ body, rest) := by
  induction w with
  | nil => cases h : upTo? onLine (x :: mark) cs <;> simp [h]
  | cons c w ih =>
      rw [List.mem_cons, not_or] at hx
      rw [List.forall_mem_cons] at hline
      rw [List.cons_append, upTo?, after?, if_neg hx.1]
      simp only [hline.1, if_true, ih hx.2 hline.2, Option.map_map]
      rfl

theorem upToFinalMark_passed {w : List Char} (hx : '_' ∉ w) (hline : ∀ c ∈ w, onLine c = true)
    (cs : List Char) : upToFinalMark (w ++ cs) =
      (upToFinalMark cs).map fun (body, rest) => (w ++ body, rest) := by
  induction w with
  | nil => cases h : upToFinalMark cs <;> simp [h]
  | cons c w ih =>
      rw [List.mem_cons, not_or] at hx
      rw [List.forall_mem_cons] at hline
      rw [List.cons_append, upToFinalMark]
      simp only [Ne.symm hx.1, hline.1, decide_false, Bool.false_and, Bool.false_eq_true, if_false,
        if_true, ih hx.2 hline.2, Option.map_map]
      rfl

/-- What is read after a pair of blocks is read with them. -/
theorem rel_map_append {b b' : List Char} (hb : pair b b')
    {x y : Option (List Char × List Char)} (h : Option.Rel (Parted pair (Alike pair)) x y) :
    Option.Rel (Parted pair (Alike pair)) (x.map fun (body, rest) => (b ++ body, rest))
      (y.map fun (body, rest) => (b' ++ body, rest)) := by
  cases h with
  | none => exact .none
  | some hp => exact .some ⟨.pair hb hp.1, hp.2⟩

section

variable (hp : Unnoticed pair)

include hp

theorem alike_after? {mark : List Char} (hmark : ∀ x ∈ mark, ∀ b, Side pair b → b.head? ≠ some x)
    {cs ds : List Char} (h : Alike pair cs ds) :
    Option.Rel (Alike pair) (after? mark cs) (after? mark ds) := by
  induction mark generalizing cs ds with
  | nil => exact .some h
  | cons x mark ih =>
      rw [List.forall_mem_cons] at hmark
      cases h with
      | nil => exact .none
      | char c h =>
          rw [after?, after?]
          split
          · exact ih hmark.2 h
          · exact .none
      | pair hb h =>
          obtain ⟨y, w, z, w', rfl, rfl⟩ := hp.exists_cons hb
          have hy : x ≠ y := fun he => hmark.1 _ (Unnoticed.sides hb).1 (congrArg some he.symm)
          have hz : x ≠ z := fun he => hmark.1 _ (Unnoticed.sides hb).2 (congrArg some he.symm)
          rw [List.cons_append, List.cons_append, after?, after?, if_neg hy, if_neg hz]
          exact .none

theorem agrees_upTo? {mark : List Char} (hmark : Clear (Side pair) mark) (hne : mark ≠ []) :
    Agrees pair (Alike pair) (upTo? onLine mark) := by
  obtain ⟨x, w, rfl⟩ := List.exists_cons_of_ne_nil hne
  have hx : ∀ b, Side pair b → x ∉ b := hmark.outside x rfl
  intro cs ds h
  induction h with
  | nil => exact .none
  | @char c cs ds h ih =>
      have ha := alike_after? hp hmark.unled (.char c h)
      rw [upTo?, upTo?]
      generalize after? (x :: w) (c :: cs) = a at ha
      generalize after? (x :: w) (c :: ds) = a' at ha
      cases ha with
      | some hr => exact .some ⟨.nil, hr⟩
      | none =>
          show Option.Rel _ (if onLine c then _ else none) (if onLine c then _ else none)
          split
          · generalize upTo? onLine (x :: w) cs = a at ih
            generalize upTo? onLine (x :: w) ds = a' at ih
            cases ih with
            | none => exact .none
            | some hp => exact .some ⟨.char c hp.1, hp.2⟩
          · exact .none
  | pair hb _ ih =>
      have hsides := Unnoticed.sides hb
      rw [upTo?_passed (hx _ hsides.1) (hp.onLine hsides.1),
        upTo?_passed (hx _ hsides.2) (hp.onLine hsides.2)]
      exact rel_map_append hb ih

theorem agrees_between {opening closing : String} (ho : opening ∈ proseMarks)
    (hc : closing ∈ proseMarks) (hne : closing ≠ "") :
    Agrees pair (Alike pair) (between opening closing) := by
  intro cs ds h
  have ha := alike_after? hp (hp.clear opening ho).unled h
  rw [between, between]
  generalize after? opening.toList cs = x at ha
  generalize after? opening.toList ds = y at ha
  cases ha with
  | none => exact .none
  | some hr =>
      have hclosing := mt String.toList_eq_nil_iff.1 hne
      exact agrees_upTo? hp (hp.clear closing hc) hclosing _ _ hr

theorem agrees_upToFinalMark : Agrees pair (Alike pair) upToFinalMark := by
  have hx : ∀ b, Side pair b → '_' ∉ b := hp.not_mem (by decide : "_" ∈ proseMarks) rfl
  intro cs ds h
  induction h with
  | nil => exact .none
  | @char c cs ds h ih =>
      have hend : cs = ['\n'] ↔ ds = ['\n'] := by
        refine hp.eq_singleton_iff (fun b hb hmem => ?_) h
        exact absurd (hp.onLine hb _ hmem) (by decide)
      rw [upToFinalMark, upToFinalMark]
      simp only [hp.eq_nil_iff h, hend]
      split
      · exact .some ⟨.nil, h⟩
      · split
        · generalize upToFinalMark cs = x at ih
          generalize upToFinalMark ds = y at ih
          cases ih with
          | none => exact .none
          | some hp => exact .some ⟨.char c hp.1, hp.2⟩
        · exact .none
  | pair hb _ ih =>
      have hsides := Unnoticed.sides hb
      rw [upToFinalMark_passed (hx _ hsides.1) (hp.onLine hsides.1),
        upToFinalMark_passed (hx _ hsides.2) (hp.onLine hsides.2)]
      exact rel_map_append hb ih

/-- A reader of places that start with one mark recognises nothing at a block without
it. -/
theorem rel_of_pair {α : Type} {R : α → α → Prop} {read : List Char → Option (α × List Char)}
    {x : Char} (hx : ∀ b, Side pair b → x ∉ b) (hread : ∀ y cs, y ≠ x → read (y :: cs) = none)
    {b b' : List Char} (hb : pair b b') (cs ds : List Char) :
    Option.Rel (Parted pair R) (read (b ++ cs)) (read (b' ++ ds)) := by
  obtain ⟨y, w, z, w', rfl, rfl⟩ := hp.exists_cons hb
  have hy : y ≠ x := fun he => hx _ (Unnoticed.sides hb).1 (he ▸ List.mem_cons_self)
  have hz : z ≠ x := fun he => hx _ (Unnoticed.sides hb).2 (he ▸ List.mem_cons_self)
  rw [List.cons_append, List.cons_append, hread y _ hy, hread z _ hz]
  exact .none

theorem agrees_finalEmphasis : Agrees pair (Alike pair) finalEmphasis := by
  intro cs ds h
  cases h with
  | nil => exact .none
  | char c h =>
      by_cases hc : c = '_'
      · subst hc
        exact agrees_upToFinalMark hp _ _ h
      · rw [finalEmphasis_none c _ hc, finalEmphasis_none c _ hc]
        exact .none
  | pair hb h =>
      have hx : ∀ b, Side pair b → '_' ∉ b := hp.not_mem (by decide : "_" ∈ proseMarks) rfl
      exact rel_of_pair hp hx finalEmphasis_none hb _ _

theorem agrees_readImage :
    Agrees pair (fun x y => Alike pair x.1 y.1 ∧ Alike pair x.2 y.2) readImage := by
  intro cs ds h
  have hb : Option.Rel (Parted pair (Alike pair)) (between "![" "](" cs) (between "![" "](" ds) :=
    agrees_between hp (by decide) (by decide) (by decide) cs ds h
  rw [readImage, readImage]
  generalize between "![" "](" cs = x at hb
  generalize between "![" "](" ds = y at hb
  cases hb with
  | none => exact .none
  | @some x y hxy =>
      obtain ⟨alt, cs⟩ := x
      obtain ⟨alt', ds⟩ := y
      have hu : Option.Rel (Parted pair (Alike pair)) (upTo? onLine ")".toList cs)
          (upTo? onLine ")".toList ds) :=
        agrees_upTo? hp (hp.clear ")" (by decide)) (by decide) cs ds hxy.2
      show Option.Rel _ ((upTo? onLine ")".toList cs).bind _) ((upTo? onLine ")".toList ds).bind _)
      generalize upTo? onLine ")".toList cs = x at hu
      generalize upTo? onLine ")".toList ds = y at hu
      cases hu with
      | none => exact .none
      | some hq => exact .some ⟨⟨hxy.1, hq.1⟩, hq.2⟩

theorem alike_takeWhile_isDecimal {cs ds : List Char} (h : Alike pair cs ds) :
    cs.takeWhile isDecimal = ds.takeWhile isDecimal ∧
      Alike pair (cs.dropWhile isDecimal) (ds.dropWhile isDecimal) := by
  induction h with
  | nil => exact ⟨rfl, .nil⟩
  | char c h ih =>
      by_cases hd : isDecimal c
      · simpa [hd] using ih
      · simpa [hd] using Alike.char c h
  | pair hb h =>
      obtain ⟨x, w, y, w', rfl, rfl⟩ := hp.exists_cons hb
      have hx := (hp.plain _ (Unnoticed.sides hb).1 x List.mem_cons_self).2.1
      have hy := (hp.plain _ (Unnoticed.sides hb).2 y List.mem_cons_self).2.1
      have hpair := Alike.pair hb h
      rw [List.cons_append, List.cons_append] at hpair ⊢
      simpa [hx, hy] using hpair

theorem agrees_readPlaceholder : Agrees pair Eq readPlaceholder := by
  have hnul : ∀ b, Side pair b → '\x00' ∉ b := fun b hb hmem => (hp.plain b hb _ hmem).1 rfl
  intro cs ds h
  cases h with
  | nil => exact .none
  | @char c cs ds h =>
      by_cases hc : c = '\x00'
      · subst hc
        obtain ⟨htake, hdrop⟩ := alike_takeWhile_isDecimal hp h
        rw [readPlaceholder, readPlaceholder, htake]
        generalize cs.dropWhile isDecimal = x at hdrop
        generalize ds.dropWhile isDecimal = y at hdrop
        cases ds.takeWhile isDecimal with
        | nil => exact .none
        | cons digit digits =>
            cases hdrop with
            | nil => exact .none
            | char a hxy =>
                by_cases ha : a = '\x00'
                · subst ha
                  exact .some ⟨rfl, hxy⟩
                · -- no placeholder ends here, in neither text
                  split
                  · next he => exact absurd (List.cons.inj he).1 ha
                  · split
                    · next he => exact absurd (List.cons.inj he).1 ha
                    · exact .none
            | pair hb hxy =>
                obtain ⟨a, w, a', w', rfl, rfl⟩ := hp.exists_cons hb
                have hsides := Unnoticed.sides hb
                split
                · next he =>
                    exact absurd ((List.cons.inj he).1 ▸ List.mem_cons_self) (hnul _ hsides.1)
                · split
                  · next he =>
                      exact absurd ((List.cons.inj he).1 ▸ List.mem_cons_self) (hnul _ hsides.2)
                  · exact .none
      · rw [readPlaceholder_none c _ hc, readPlaceholder_none c _ hc]
        exact .none
  | pair hb h => exact rel_of_pair hp hnul readPlaceholder_none hb _ _

end

/-! ## Pieces and what is put in their place -/

/-- Pieces of two texts that correspond to each other. -/
inductive AlikePieces {α : Type} (pair : List Char → List Char → Prop) (R : α → α → Prop) :
    List (Piece α) → List (Piece α) → Prop where
  | nil : AlikePieces pair R [] []
  | char (c : Char) {ps qs : List (Piece α)} (h : AlikePieces pair R ps qs) :
      AlikePieces pair R (.plain c :: ps) (.plain c :: qs)
  | pair {b b' : List Char} {ps qs : List (Piece α)} (hb : pair b b')
      (h : AlikePieces pair R ps qs) :
      AlikePieces pair R (b.map .plain ++ ps) (b'.map .plain ++ qs)
  | marked {a a' : α} {ps qs : List (Piece α)} (ha : R a a') (h : AlikePieces pair R ps qs) :
      AlikePieces pair R (.marked a :: ps) (.marked a' :: qs)

/-- A reader cuts texts that are alike into pieces that correspond to each other. -/
theorem alike_pieces {α : Type} {R : α → α → Prop} {read : List Char → Option (α × List Char)}
    (hread : MovesOn read) (hstart : ∀ b, Side pair b → b ≠ [])
    (hblock : ∀ b, Side pair b → ∀ x ∈ b, ∀ cs, read (x :: cs) = none) (hr : Agrees pair R read)
    {cs ds : List Char} (h : Alike pair cs ds) :
    AlikePieces pair R (pieces read cs) (pieces read ds) := by
  induction hn : cs.length using Nat.strongRecOn generalizing cs ds with
  | ind n ih =>
    have hrel := hr _ _ h
    cases hx : read cs with
    | some x =>
        obtain ⟨a, rest⟩ := x
        rw [hx] at hrel
        generalize hy : read ds = y at hrel
        cases hrel with
        | @some _ y hp =>
            obtain ⟨a', rest'⟩ := y
            rw [pieces_of_some hread hx, pieces_of_some hread hy]
            refine .marked hp.1 (ih rest.length ?_ hp.2 rfl)
            obtain ⟨c, w, rfl⟩ := hread hx
            rw [← hn, List.length_cons, List.length_append]
            omega
    | none =>
        rw [hx] at hrel
        generalize hy : read ds = y at hrel
        cases hrel
        cases h with
        | nil => exact .nil
        | @char c cs ds h =>
            rw [pieces_of_none hx, pieces_of_none hy]
            exact .char c (ih cs.length (by rw [← hn, List.length_cons]; omega) h rfl)
        | @pair b b' cs ds hb h =>
            have hsides := Unnoticed.sides hb
            have hb0 : 0 < b.length := List.length_pos_iff.2 (hstart b hsides.1)
            rw [pieces_passed (hblock b hsides.1), pieces_passed (hblock b' hsides.2)]
            exact .pair hb (ih cs.length (by rw [← hn, List.length_append]; omega) h rfl)

theorem alike_replaceMarked {α : Type} {R : α → α → Prop} {ps qs : List (Piece α)}
    (h : AlikePieces pair R ps qs) {wrap : α → List Char}
    (hwrap : ∀ a a', R a a' → Alike pair (wrap a) (wrap a')) :
    Alike pair (replaceMarked wrap ps) (replaceMarked wrap qs) := by
  induction h with
  | nil => exact .nil
  | char c _ ih => exact .char c ih
  | pair hb _ ih =>
      rw [replaceMarked_block, replaceMarked_block]
      exact .pair hb ih
  | marked ha _ ih => exact (hwrap _ _ ha).append ih

theorem alike_element {tag : String} {cs ds : List Char} (h : Alike pair cs ds) :
    Alike pair (element tag cs) (element tag ds) :=
  ((Alike.refl _).append h).append (Alike.refl _)

theorem alike_shelve {wrap : List Char → List Char}
    (hwrap : ∀ cs ds, Alike pair cs ds → Alike pair (wrap cs) (wrap ds))
    {ps qs : List (Piece (List Char))} (h : AlikePieces pair (Alike pair) ps qs)
    {shelf shelf' : Shelf} (hs : List.Forall₂ (Alike pair) shelf shelf') :
    Alike pair (shelve wrap shelf ps).1 (shelve wrap shelf' qs).1 ∧
      List.Forall₂ (Alike pair) (shelve wrap shelf ps).2 (shelve wrap shelf' qs).2 := by
  induction h generalizing shelf shelf' with
  | nil => exact ⟨.nil, hs⟩
  | char c _ ih => exact ⟨.char c (ih hs).1, (ih hs).2⟩
  | pair hb _ ih =>
      rw [shelve_block, shelve_block]
      exact ⟨.pair hb (ih hs).1, (ih hs).2⟩
  | marked ha _ ih =>
      have hs' := List.rel_append hs (List.Forall₂.cons (hwrap _ _ ha) .nil)
      refine ⟨Alike.append ?_ (ih hs').1, (ih hs').2⟩
      rw [hs.length_eq]
      exact Alike.refl _

theorem alike_fetch {shelf shelf' : Shelf} (hs : List.Forall₂ (Alike pair) shelf shelf')
    {digits cs : List Char} (h : fetch shelf digits = .ok cs) :
    ∃ ds, fetch shelf' digits = .ok ds ∧ Alike pair cs ds := by
  rw [fetch] at h
  rw [fetch]
  split at h
  · cases h
  · next hlen =>
      rw [if_neg hlen]
      split at h
      · cases h
      · next hindex =>
          rw [if_neg hindex]
          split at h
          · next item hitem =>
              cases h
              obtain ⟨hlt, hget⟩ := List.getElem?_eq_some_iff.1 hitem
              have hlt' : readDecimal digits < shelf'.length := hs.length_eq ▸ hlt
              refine ⟨shelf'[readDecimal digits], ?_, ?_⟩
              · rw [List.getElem?_eq_getElem hlt']
              · rw [← hget]
                exact hs.get hlt hlt'
          · cases h

theorem restore_block (shelf : Shelf) (b : List Char) (ps : List (Piece (List Char))) :
    restore shelf (b.map .plain ++ ps) = (restore shelf ps).map (b ++ ·) := by
  induction b with
  | nil =>
      rw [List.map_nil, List.nil_append]
      cases restore shelf ps <;> rfl
  | cons c b ih =>
      rw [List.map_cons, List.cons_append, restore, ih]
      cases restore shelf ps <;> rfl

theorem alike_restore {shelf shelf' : Shelf} (hs : List.Forall₂ (Alike pair) shelf shelf')
    {ps qs : List (Piece (List Char))} (h : AlikePieces pair Eq ps qs) {out : List Char}
    (hout : restore shelf ps = .ok out) :
    ∃ out', restore shelf' qs = .ok out' ∧ Alike pair out out' := by
  induction h generalizing out with
  | nil =>
      cases hout
      exact ⟨[], rfl, .nil⟩
  | char c _ ih =>
      rw [restore] at hout
      obtain ⟨cs, hcs, hout⟩ := ok_of_bind hout
      obtain ⟨ds, hds, hrel⟩ := ih hcs
      refine ⟨c :: ds, ?_, ?_⟩
      · rw [restore, hds]
        rfl
      · exact Except.ok.inj hout ▸ .char c hrel
  | @pair b b' ps qs hb _ ih =>
      rw [restore_block] at hout
      cases hps : restore shelf ps with
      | error e =>
          rw [hps] at hout
          cases hout
      | ok cs =>
          rw [hps] at hout
          obtain ⟨ds, hds, hrel⟩ := ih hps
          refine ⟨b' ++ ds, ?_, ?_⟩
          · rw [restore_block, hds]
            rfl
          · exact Except.ok.inj hout ▸ .pair hb hrel
  | marked heq _ ih =>
      subst heq
      rw [restore] at hout
      obtain ⟨item, hitem, hout⟩ := ok_of_bind hout
      obtain ⟨cs, hcs, hout⟩ := ok_of_bind hout
      obtain ⟨item', hitem', hi⟩ := alike_fetch hs hitem
      obtain ⟨ds, hds, hrel⟩ := ih hcs
      refine ⟨item' ++ ds, ?_, ?_⟩
      · rw [restore, hitem', hds]
        rfl
      · exact Except.ok.inj hout ▸ hi.append hrel

/-! ## The steps of the markup -/

section

variable (hp : Unnoticed pair) {cs ds : List Char}

include hp

theorem alike_mathChars (mode : MathMode) (h : Alike pair cs ds) :
    Alike pair (mathChars mode cs) (mathChars mode ds) := by
  unfold mathChars
  rw [hp.all_isBlank_eq h]
  split
  · exact .nil
  · cases mode with
    | inline => exact ((Alike.refl _).append h).append (Alike.refl _)
    | block => exact ((Alike.refl _).append h).append (Alike.refl _)

theorem alike_quoteChars (h : Alike pair cs ds) : Alike pair (quoteChars cs) (quoteChars ds) := by
  have hquote : ∀ b, Side pair b → '\x27' ∉ b := 
    hp.not_mem (by decide : "\x27" ∈ proseMarks) rfl
  induction h with
  | nil => exact .nil
  | char c _ ih => exact (Alike.refl _).append ih
  | pair hb _ ih =>
      have hsides := Unnoticed.sides hb
      rw [quoteChars_append, quoteChars_append, quoteChars_of_not_mem (hquote _ hsides.1),
        quoteChars_of_not_mem (hquote _ hsides.2)]
      exact .pair hb ih

theorem alike_imageTag {x y : List Char × List Char}
    (h : Alike pair x.1 y.1 ∧ Alike pair x.2 y.2) : Alike pair (imageTag x) (imageTag y) :=
  ((((Alike.refl _).append (alike_quoteChars hp h.1)).append (Alike.refl _)).append
    (alike_quoteChars hp h.2)).append (Alike.refl _)

/-- What stands between two marks corresponds, and so does what stands around them. -/
theorem alike_pieces_between (opening closing : String) (ho : opening ∈ proseMarks)
    (hc : closing ∈ proseMarks) (hne : opening ≠ "") (hne' : closing ≠ "") (h : Alike pair cs ds) :
    AlikePieces pair (Alike pair) (pieces (between opening closing) cs)
      (pieces (between opening closing) ds) := by
  cases hw : opening.toList with
  | nil => exact absurd (String.toList_eq_nil_iff.1 hw) hne
  | cons x w =>
      have hx : x ∈ opening.toList.head? := hw ▸ rfl
      exact alike_pieces (movesOn_between hw) hp.start
        (passes_blocks ((hp.clear opening ho).outside x hx) (between_none hw))
        (agrees_between hp ho hc hne') h

theorem alike_strong (h : Alike pair cs ds) : Alike pair (strong cs) (strong ds) := by
  have hps := alike_pieces_between hp "*" "*" (by decide) (by decide) (by decide) (by decide) h
  exact alike_replaceMarked hps fun _ _ => alike_element

theorem alike_emphasisWithin (h : Alike pair cs ds) :
    Alike pair (emphasisWithin cs) (emphasisWithin ds) := by
  have hps := alike_pieces_between hp " _" "_ " (by decide) (by decide) (by decide) (by decide) h
  refine alike_replaceMarked hps fun body body' hb => ?_
  exact (Alike.char ' ' (alike_element hb)).append (Alike.refl _)

theorem alike_emphasisAtStart (h : Alike pair cs ds) :
    Alike pair (emphasisAtStart cs) (emphasisAtStart ds) := by
  have hb : Option.Rel (Parted pair (Alike pair)) (between "_" "_" cs) (between "_" "_" ds) :=
    agrees_between hp (by decide) (by decide) (by decide) cs ds h
  rw [emphasisAtStart, emphasisAtStart]
  generalize between "_" "_" cs = x at hb
  generalize between "_" "_" ds = y at hb
  cases hb with
  | none => exact h
  | some hxy => exact (alike_element hxy.1).append hxy.2

theorem alike_emphasisAtEnd (h : Alike pair cs ds) :
    Alike pair (emphasisAtEnd cs) (emphasisAtEnd ds) := by
  have hx : ∀ b, Side pair b → '_' ∉ b := hp.not_mem (by decide : "_" ∈ proseMarks) rfl
  have hps := alike_pieces movesOn_finalEmphasis hp.start (passes_blocks hx finalEmphasis_none)
    (agrees_finalEmphasis hp) h
  exact alike_replaceMarked hps fun _ _ => alike_element

theorem alike_images (h : Alike pair cs ds) : Alike pair (images cs) (images ds) := by
  have hx : ∀ b, Side pair b → '!' ∉ b := hp.not_mem (by decide : "![" ∈ proseMarks) rfl
  have hps := alike_pieces movesOn_readImage hp.start (passes_blocks hx readImage_none)
    (agrees_readImage hp) h
  exact alike_replaceMarked hps fun _ _ => alike_imageTag hp

theorem alike_markedUp (h : Alike pair cs ds) : Alike pair (markedUp cs) (markedUp ds) :=
  alike_images hp (alike_emphasisAtEnd hp (alike_emphasisAtStart hp
    (alike_emphasisWithin hp (alike_strong hp h))))

theorem alike_shelved (h : Alike pair (escapeChars cs) (escapeChars ds)) :
    Alike pair (shelved cs).1 (shelved ds).1 ∧
      List.Forall₂ (Alike pair) (shelved cs).2 (shelved ds).2 := by
  obtain ⟨hmath, hshelf⟩ := alike_shelve (fun _ _ => alike_mathChars hp .inline)
    (alike_pieces_between hp "[math]" "[/math]" (by decide) (by decide) (by decide) (by decide) h)
    .nil
  exact alike_shelve (fun _ _ => alike_element)
    (alike_pieces_between hp "\x60" "\x60" (by decide) (by decide) (by decide) (by decide) hmath)
    hshelf

/-- The prose of texts whose escaped forms are alike. -/
theorem alike_prose (h : Alike pair (escapeChars cs) (escapeChars ds)) {out : List Char}
    (hout : proseChars cs = .ok out) : ∃ out', proseChars ds = .ok out' ∧ Alike pair out out' := by
  obtain ⟨htext, hshelf⟩ := alike_shelved hp h
  have hmarked := alike_markedUp hp htext
  have hempty : (shelved cs).2.isEmpty = (shelved ds).2.isEmpty := by
    rw [Bool.eq_iff_iff, List.isEmpty_iff_length_eq_zero, List.isEmpty_iff_length_eq_zero,
      hshelf.length_eq]
  rw [proseChars_eq] at hout
  rw [proseChars_eq, ← hempty]
  split at hout
  · next he =>
      rw [if_pos he]
      exact ⟨_, rfl, Except.ok.inj hout ▸ hmarked⟩
  · next he =>
      rw [if_neg he]
      have hnul : ∀ b, Side pair b → '\x00' ∉ b := fun b hb hmem => (hp.plain b hb _ hmem).1 rfl
      exact alike_restore hshelf (alike_pieces movesOn_readPlaceholder hp.start
        (passes_blocks hnul readPlaceholder_none) (agrees_readPlaceholder hp) hmarked) hout

end

end Html

end DocComment
