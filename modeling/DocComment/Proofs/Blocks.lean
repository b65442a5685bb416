import DocComment.Proofs.Pieces

/-!
# Texts made of blocks

What a step of the markup puts into a text is in one piece: a tag, or what stands for a
thing on the shelf. `Blocks` says of a text that it is made of such blocks and of
characters outside them. The next step cuts the text at its marks, and as long as no block
holds a character of a mark, nothing is ever cut within a block (`Blocks.split`).

So the pieces of such a text are blocks again (`Blocks.pieced`), and that is shown once
for all readers: what a step makes of the pieces is then an induction over `Pieced`, block
by block.
-/

namespace DocComment

namespace Text

/-- What is said of the characters of a text is decided by trying these, not every
character there is. -/
instance (priority := 2000) decidableForallChar {P : Char → Prop} [DecidablePred P]
    (cs : List Char) : Decidable (∀ c ∈ cs, P c) :=
  List.decidableBAll P cs

variable {plain : Char → Prop} {block : List Char → Prop}

/-- Texts of the given blocks and of characters that stand outside them. -/
inductive Blocks (plain : Char → Prop) (block : List Char → Prop) : List Char → Prop where
  | nil : Blocks plain block []
  | char {c : Char} {cs : List Char} (hc : plain c) (h : Blocks plain block cs) :
      Blocks plain block (c :: cs)
  | block {b cs : List Char} (hb : block b) (h : Blocks plain block cs) :
      Blocks plain block (b ++ cs)

/-- Characters that stand in no block. -/
def Apart (block : List Char → Prop) (mark : List Char) : Prop :=
  ∀ x ∈ mark, ∀ b, block b → x ∉ b

theorem Apart.subset {mark mark' : List Char} (h : Apart block mark) (hsub : mark' ⊆ mark) :
    Apart block mark' :=
  fun x hx => h x (hsub hx)

/-- A mark at which no block is cut: its first character stands in none, and no block
starts with any other. -/
structure Clear (block : List Char → Prop) (mark : List Char) : Prop where
  outside : ∀ x ∈ mark.head?, ∀ b, block b → x ∉ b
  unled : ∀ x ∈ mark, ∀ b, block b → b.head? ≠ some x

theorem Apart.clear {mark : List Char} (h : Apart block mark) : Clear block mark where
  outside := fun x hx => h x (List.mem_of_mem_head? hx)
  unled := fun x hx b hb hhead => h x hx b hb (List.mem_of_mem_head? hhead)

namespace Blocks

theorem append {u v : List Char} (hu : Blocks plain block u) (hv : Blocks plain block v) :
    Blocks plain block (u ++ v) := by
  induction hu with
  | nil => exact hv
  | char hc _ ih => exact .char hc ih
  | block hb _ ih =>
      rw [List.append_assoc]
      exact .block hb ih

theorem of_plain {cs : List Char} (h : ∀ c ∈ cs, plain c) : Blocks plain block cs := by
  induction cs with
  | nil => exact .nil
  | cons c cs ih =>
      exact .char (h c List.mem_cons_self) (ih fun d hd => h d (List.mem_cons_of_mem _ hd))

theorem single {b : List Char} (hb : block b) : Blocks plain block b := by
  rw [← List.append_nil b]
  exact .block hb .nil

/-- A text is never cut within a block by a character that no block holds. -/
theorem split {u v : List Char} {x : Char} (hx : ∀ b, block b → x ∉ b)
    (h : Blocks plain block (u ++ x :: v)) : Blocks plain block u ∧ Blocks plain block v := by
  generalize hw : u ++ x :: v = w at h
  induction h generalizing u with
  | nil => simp at hw
  | char hc hcs ih =>
      cases u with
      | nil =>
          obtain ⟨rfl, rfl⟩ : x = _ ∧ v = _ := by simpa using hw
          exact ⟨.nil, hcs⟩
      | cons c u =>
          obtain ⟨rfl, hrest⟩ : c = _ ∧ u ++ x :: v = _ := by simpa using hw
          obtain ⟨hu, hv⟩ := ih hrest
          exact ⟨.char hc hu, hv⟩
  | block hb _ ih =>
      rw [List.append_eq_append_iff] at hw
      rcases hw with ⟨w', hw, hrest⟩ | ⟨w', rfl, hrest⟩
      · cases w' with
        | nil =>
            rw [List.append_nil] at hw
            rw [List.nil_append] at hrest
            obtain ⟨-, hv⟩ := ih (u := []) hrest
            exact ⟨hw ▸ single hb, hv⟩
        | cons y w' =>
            -- the character would stand in the block
            obtain ⟨rfl, -⟩ : x = y ∧ v = _ := by simpa using hrest
            exact absurd (by rw [hw]; simp) (hx _ hb)
      · obtain ⟨hu, hv⟩ := ih hrest.symm
        exact ⟨.block hb hu, hv⟩

/-- The rest of a text after a character that no block starts with. -/
theorem tail {x : Char} {v : List Char} (hx : ∀ b, block b → b.head? ≠ some x)
    (h : Blocks plain block (x :: v)) : Blocks plain block v := by
  generalize hw : x :: v = w at h
  induction h with
  | nil => cases hw
  | char _ hcs _ =>
      obtain ⟨-, rfl⟩ := List.cons.inj hw
      exact hcs
  | @block b cs hb _ ih =>
      cases b with
      | nil => exact ih hw
      | cons c b =>
          obtain ⟨rfl, -⟩ := List.cons.inj hw
          exact absurd rfl (hx _ hb)

/-- The rest of a text after a mark. -/
theorem drop {w v : List Char} (hw : ∀ x ∈ w, ∀ b, block b → b.head? ≠ some x)
    (h : Blocks plain block (w ++ v)) : Blocks plain block v := by
  induction w with
  | nil => exact h
  | cons x w ih =>
      exact ih (fun y hy => hw y (List.mem_cons_of_mem _ hy)) (h.tail (hw x List.mem_cons_self))

end Blocks

/-! ## Blocks that are given texts -/

/-- One of the given texts. -/
def OneOf (texts : List String) (b : List Char) : Prop :=
  ∃ t ∈ texts, b = t.toList

theorem ne_nil_of_oneOf {texts : List String} (h : ∀ t ∈ texts, t ≠ "") {b : List Char}
    (hb : OneOf texts b) : b ≠ [] := by
  obtain ⟨t, ht, rfl⟩ := hb
  exact mt String.toList_eq_nil_iff.1 (h t ht)

/-- A mark of which no character stands in one of the texts. -/
def Outside (texts : List String) (mark : List Char) : Prop :=
  ∀ x ∈ mark, ∀ t ∈ texts, x ∉ t.toList

instance (texts : List String) (mark : List Char) : Decidable (Outside texts mark) :=
  List.decidableBAll _ mark

theorem Outside.apart {texts : List String} {mark : List Char} (h : Outside texts mark) :
    Apart (OneOf texts) mark := by
  rintro x hx b ⟨t, ht, rfl⟩
  exact h x hx t ht

/-- A mark at which none of the texts is cut. -/
def ClearOf (texts : List String) (mark : List Char) : Prop :=
  (∀ x ∈ mark.head?, ∀ t ∈ texts, x ∉ t.toList) ∧ ∀ x ∈ mark, ∀ t ∈ texts, t.toList.head? ≠ some x

instance (texts : List String) (mark : List Char) : Decidable (ClearOf texts mark) :=
  @instDecidableAnd _ _ (Option.decidableForallMem mark.head?) (List.decidableBAll _ mark)

theorem ClearOf.clear {texts : List String} {mark : List Char} (h : ClearOf texts mark) :
    Clear (OneOf texts) mark where
  outside := by
    rintro x hx b ⟨t, ht, rfl⟩
    exact h.1 x hx t ht
  unled := by
    rintro x hx b ⟨t, ht, rfl⟩
    exact h.2 x hx t ht

/-! ## The pieces of such texts -/

variable {α : Type} {mark : α → Prop} {read : List Char → Option (α × List Char)}

/-- Pieces that are blocks, characters outside them, and marked places. -/
inductive Pieced (plain : Char → Prop) (block : List Char → Prop) (mark : α → Prop) :
    List (Piece α) → Prop where
  | nil : Pieced plain block mark []
  | char {c : Char} {ps : List (Piece α)} (hc : plain c) (h : Pieced plain block mark ps) :
      Pieced plain block mark (.plain c :: ps)
  | block {b : List Char} {ps : List (Piece α)} (hb : block b) (h : Pieced plain block mark ps) :
      Pieced plain block mark (b.map .plain ++ ps)
  | marked {a : α} {ps : List (Piece α)} (ha : mark a) (h : Pieced plain block mark ps) :
      Pieced plain block mark (.marked a :: ps)

theorem marksOf_block (b : List Char) (ps : List (Piece α)) :
    marksOf (b.map .plain ++ ps) = marksOf ps := by
  simp [marksOf, List.filterMap_append]

theorem Pieced.of_mem_marksOf {ps : List (Piece α)} (h : Pieced plain block mark ps) :
    ∀ a ∈ marksOf ps, mark a := by
  induction h with
  | nil => exact fun _ h => absurd h List.not_mem_nil
  | char _ _ ih => exact ih
  | block _ _ ih =>
      rw [marksOf_block]
      exact ih
  | marked ha _ ih => exact List.forall_mem_cons.2 ⟨ha, ih⟩

/-- A reader passes over a part of a text if it recognises nothing at any character of
it. -/
theorem pieces_passed {w : List Char} (hw : ∀ x ∈ w, ∀ cs, read (x :: cs) = none)
    (cs : List Char) : pieces read (w ++ cs) = w.map .plain ++ pieces read cs := by
  induction w with
  | nil => rfl
  | cons x w ih =>
      rw [List.cons_append, pieces_of_none (hw x List.mem_cons_self _),
        ih fun y hy => hw y (List.mem_cons_of_mem _ hy)]
      rfl

/-- A reader that recognises nothing at a character of a block passes over the blocks of a
text one by one. -/
theorem Blocks.pieced (hread : MovesOn read) (hstart : ∀ b, block b → b ≠ [])
    (hblock : ∀ b, block b → ∀ x ∈ b, ∀ cs, read (x :: cs) = none)
    (hmark : ∀ cs a rest, Blocks plain block cs → read cs = some (a, rest) →
      mark a ∧ Blocks plain block rest)
    {cs : List Char} (h : Blocks plain block cs) : Pieced plain block mark (pieces read cs) := by
  induction hn : cs.length using Nat.strongRecOn generalizing cs with
  | ind n ih =>
    cases hr : read cs with
    | some x =>
        obtain ⟨a, rest⟩ := x
        obtain ⟨ha, hrest⟩ := hmark cs a rest h hr
        rw [pieces_of_some hread hr]
        refine .marked ha (ih rest.length ?_ hrest rfl)
        obtain ⟨c, w, rfl⟩ := hread hr
        rw [← hn, List.length_cons, List.length_append]
        omega
    | none =>
        cases h with
        | nil => exact .nil
        | @char c cs hc h =>
            rw [pieces_of_none hr]
            exact .char hc (ih cs.length (by rw [← hn, List.length_cons]; omega) h rfl)
        | @block b cs hb h =>
            have hb0 : 0 < b.length := List.length_pos_iff.2 (hstart b hb)
            rw [pieces_passed (hblock b hb)]
            exact .block hb (ih cs.length (by rw [← hn, List.length_append]; omega) h rfl)

end Text

namespace Html

open Text

variable {plain : Char → Prop} {block : List Char → Prop}

variable {α : Type} {mark : α → Prop}

/-! ## Replacing marks -/

theorem replaceMarked_plain (wrap : α → List Char) (c : Char) (ps : List (Piece α)) :
    replaceMarked wrap (.plain c :: ps) = c :: replaceMarked wrap ps := rfl

theorem replaceMarked_marked (wrap : α → List Char) (a : α) (ps : List (Piece α)) :
    replaceMarked wrap (.marked a :: ps) = wrap a ++ replaceMarked wrap ps := rfl

theorem replaceMarked_block (wrap : α → List Char) (b : List Char) (ps : List (Piece α)) :
    replaceMarked wrap (b.map .plain ++ ps) = b ++ replaceMarked wrap ps := by
  induction b with
  | nil => rfl
  | cons c b ih =>
      rw [List.map_cons, List.cons_append, replaceMarked_plain, ih, List.cons_append]

/-- What was read, put back in its place, gives the text. -/
theorem replaceMarked_read {read : List Char → Option (α × List Char)} (hread : MovesOn read)
    {raw : α → List Char} (hraw : ∀ {cs a rest}, read cs = some (a, rest) → cs = raw a ++ rest)
    (cs : List Char) : replaceMarked raw (pieces read cs) = cs := by
  refine pieces_induction (P := fun cs ps => replaceMarked raw ps = cs) hread rfl ?_ ?_ cs
  · intro c cs _ ih
    rw [replaceMarked_plain, ih]
  · intro cs a rest hr ih
    rw [replaceMarked_marked, ih, hraw hr]

theorem shelve_block (wrap : List Char → List Char) (shelf : Shelf) (b : List Char)
    (ps : List (Piece (List Char))) :
    shelve wrap shelf (b.map .plain ++ ps) =
      (b ++ (shelve wrap shelf ps).1, (shelve wrap shelf ps).2) := by
  induction b with
  | nil => rfl
  | cons c b ih =>
      rw [List.map_cons, List.cons_append, shelve, ih]
      rfl

/-- Replacing marks leaves the blocks as they are. -/
theorem blocks_replaceMarked {wrap : α → List Char}
    (hwrap : ∀ a, mark a → Blocks plain block (wrap a)) {ps : List (Piece α)}
    (h : Pieced plain block mark ps) : Blocks plain block (replaceMarked wrap ps) := by
  induction h with
  | nil => exact .nil
  | char hc _ ih => exact .char hc ih
  | block hb _ ih =>
      rw [replaceMarked_block]
      exact .block hb ih
  | marked ha _ ih => exact (hwrap _ ha).append ih

/-- What stands between two marks is part of the text. -/
theorem blocks_between {opening closing : String} (ho : Clear block opening.toList)
    (hc : Clear block closing.toList) (hne : closing ≠ "") {cs body rest : List Char}
    (h : Blocks plain block cs) (hb : between opening closing cs = some (body, rest)) :
    Blocks plain block body ∧ Blocks plain block rest := by
  rw [between_eq_some hb] at h
  have h := h.drop ho.unled
  cases hcl : closing.toList with
  | nil => exact absurd (String.toList_eq_nil_iff.1 hcl) hne
  | cons c w =>
      rw [hcl] at h hc
      obtain ⟨hbody, hrest⟩ := h.split (hc.outside c rfl)
      exact ⟨hbody, hrest.drop fun x hx => hc.unled x (List.mem_cons_of_mem _ hx)⟩

/-! ## Readers with one mark to start from -/

/-- A reader of places that start with one mark passes over blocks without that mark. -/
theorem passes_blocks {read : List Char → Option (α × List Char)} {x : Char}
    (hx : ∀ b, block b → x ∉ b) (hread : ∀ y cs, y ≠ x → read (y :: cs) = none) :
    ∀ b, block b → ∀ y ∈ b, ∀ cs, read (y :: cs) = none := by
  intro b hb y hy cs
  refine hread y cs ?_
  rintro rfl
  exact hx b hb hy

theorem between_none {opening closing : String} {mark : Char} {w : List Char}
    (ho : opening.toList = mark :: w) :
    ∀ x cs, x ≠ mark → between opening closing (x :: cs) = none := by
  intro x cs hx
  rw [between, ho, after?, if_neg (Ne.symm hx)]

theorem finalEmphasis_none : ∀ x cs, x ≠ '_' → finalEmphasis (x :: cs) = none := by
  intro x cs hx
  unfold finalEmphasis
  split
  · next h =>
      injection h with h _
      exact absurd h hx
  · rfl

theorem readImage_none : ∀ x cs, x ≠ '!' → readImage (x :: cs) = none := by
  intro x cs hx
  rw [readImage, between_none rfl x cs hx]
  rfl

theorem readPlaceholder_none : ∀ x cs, x ≠ '\x00' → readPlaceholder (x :: cs) = none := by
  intro x cs hx
  unfold readPlaceholder
  split
  · next h =>
      injection h with h _
      exact absurd h hx
  · rfl

/-- What stands between two marks, and what stands around them, is made of the blocks that
the text is made of. -/
theorem pieced_between (hstart : ∀ b, block b → b ≠ []) {opening closing : String}
    (ho : Clear block opening.toList) (hc : Clear block closing.toList) (hne : opening ≠ "")
    (hne' : closing ≠ "") {cs : List Char} (h : Blocks plain block cs) :
    Pieced plain block (Blocks plain block) (pieces (between opening closing) cs) := by
  cases hw : opening.toList with
  | nil => exact absurd (String.toList_eq_nil_iff.1 hw) hne
  | cons x w =>
      have hx : x ∈ opening.toList.head? := hw ▸ rfl
      exact h.pieced (movesOn_between hw) hstart
        (passes_blocks (ho.outside x hx) (between_none hw)) fun _ _ _ => blocks_between ho hc hne'

/-! ## Quotes -/

theorem quoteChars_of_not_mem {cs : List Char} (h : '\x27' ∉ cs) : quoteChars cs = cs := by
  induction cs with
  | nil => rfl
  | cons c cs ih =>
      rw [List.mem_cons, not_or] at h
      rw [quoteChars, List.flatMap_cons, if_neg (Ne.symm h.1)]
      exact congrArg (c :: ·) (ih h.2)

theorem quoteChars_append (u v : List Char) : quoteChars (u ++ v) = quoteChars u ++ quoteChars v :=
  List.flatMap_append

/-- Quotes are replaced in the value of an attribute, and no block holds one. -/
theorem blocks_quoteChars (hquote : ∀ b, block b → '\x27' ∉ b)
    (hwritten : Blocks plain block "&#x27;".toList) {cs : List Char} (h : Blocks plain block cs) :
    Blocks plain block (quoteChars cs) := by
  induction h with
  | nil => exact .nil
  | @char c cs hc _ ih =>
      rw [quoteChars, List.flatMap_cons]
      refine Blocks.append ?_ ih
      split
      · exact hwritten
      · exact .char hc .nil
  | @block b cs hb _ ih =>
      rw [quoteChars_append, quoteChars_of_not_mem (hquote b hb)]
      exact .block hb ih

/-! ## Emphasis and images -/

/-- The characters of the marks of emphasis and images, and the quote that images
replace. -/
def marks : List Char :=
  "*_ ![]()\x27".toList

/-- Blocks that emphasis leaves in one piece, and that its tags go with. -/
structure Firm (plain : Char → Prop) (block : List Char → Prop) : Prop where
  start : ∀ b, block b → b ≠ []
  apart : Apart block marks
  space : plain ' '
  tags : ∀ tag ∈ ["strong", "em"], Blocks plain block ("<" ++ tag ++ ">").toList ∧
    Blocks plain block ("</" ++ tag ++ ">").toList

namespace Firm

theorem passes (hs : Firm plain block) {read : List Char → Option (α × List Char)} {x : Char}
    (hx : x ∈ marks) (hread : ∀ y cs, y ≠ x → read (y :: cs) = none) :
    ∀ b, block b → ∀ y ∈ b, ∀ cs, read (y :: cs) = none :=
  passes_blocks (hs.apart x hx) hread

theorem between (hs : Firm plain block) {opening closing : String}
    (ho : opening.toList ⊆ marks) (hc : closing.toList ⊆ marks) (hne : closing ≠ "")
    {cs body rest : List Char} (h : Blocks plain block cs)
    (hb : Html.between opening closing cs = some (body, rest)) :
    Blocks plain block body ∧ Blocks plain block rest :=
  blocks_between (hs.apart.subset ho).clear (hs.apart.subset hc).clear hne h hb

theorem element (hs : Firm plain block) {tag : String} (ht : tag ∈ ["strong", "em"])
    {cs : List Char} (h : Blocks plain block cs) : Blocks plain block (element tag cs) :=
  ((hs.tags tag ht).1.append h).append (hs.tags tag ht).2

variable {cs : List Char}

theorem pieced_between (hs : Firm plain block) {opening closing : String}
    (ho : opening.toList ⊆ marks) (hc : closing.toList ⊆ marks) (hne : opening ≠ "")
    (hne' : closing ≠ "") (h : Blocks plain block cs) :
    Pieced plain block (Blocks plain block) (pieces (Html.between opening closing) cs) :=
  Html.pieced_between hs.start (hs.apart.subset ho).clear (hs.apart.subset hc).clear hne hne' h

theorem strong (hs : Firm plain block) (h : Blocks plain block cs) :
    Blocks plain block (strong cs) :=
  blocks_replaceMarked (fun _ => hs.element (by decide))
    (hs.pieced_between (by decide) (by decide) (by decide) (by decide) h)

theorem emphasisWithin (hs : Firm plain block) (h : Blocks plain block cs) :
    Blocks plain block (emphasisWithin cs) := by
  refine blocks_replaceMarked (fun body hbody => ?_)
    (hs.pieced_between (by decide) (by decide) (by decide) (by decide) h)
  exact .char hs.space ((hs.element (by decide) hbody).append (.char hs.space .nil))

theorem emphasisAtStart (hs : Firm plain block) (h : Blocks plain block cs) :
    Blocks plain block (emphasisAtStart cs) := by
  rw [Html.emphasisAtStart]
  split
  · next body rest hb =>
      obtain ⟨hbody, hrest⟩ := hs.between (by decide) (by decide) (by decide) h hb
      exact (hs.element (by decide) hbody).append hrest
  · exact h

theorem pieced_finalEmphasis (hs : Firm plain block) (h : Blocks plain block cs) :
    Pieced plain block (Blocks plain block) (pieces finalEmphasis cs) := by
  refine h.pieced movesOn_finalEmphasis hs.start (hs.passes (by decide) finalEmphasis_none) ?_
  intro cs body rest h hb
  rw [finalEmphasis_eq_some hb] at h
  have hmark : '_' ∈ marks := by decide
  exact (h.tail (hs.apart.clear.unled '_' hmark)).split (hs.apart '_' hmark)

theorem emphasisAtEnd (hs : Firm plain block) (h : Blocks plain block cs) :
    Blocks plain block (emphasisAtEnd cs) :=
  blocks_replaceMarked (fun _ => hs.element (by decide)) (hs.pieced_finalEmphasis h)

/-- All emphasis leaves the blocks as they are. -/
theorem emphasized (hs : Firm plain block) (h : Blocks plain block cs) :
    Blocks plain block (emphasized cs) :=
  hs.emphasisAtEnd (hs.emphasisAtStart (hs.emphasisWithin (hs.strong h)))

/-- The two texts of an image are made of the blocks that the text is made of. -/
theorem pieced_readImage (hs : Firm plain block) (h : Blocks plain block cs) :
    Pieced plain block (fun image => Blocks plain block image.1 ∧ Blocks plain block image.2)
      (pieces readImage cs) := by
  refine h.pieced movesOn_readImage hs.start (hs.passes (by decide) readImage_none) ?_
  rintro cs ⟨alt, source⟩ rest h hb
  rw [readImage_eq_some hb] at h
  have h := h.drop (w := ['!', '[']) (hs.apart.subset (by decide)).clear.unled
  obtain ⟨halt, h⟩ := h.split (hs.apart ']' (by decide))
  obtain ⟨hsource, hrest⟩ :=
    (h.tail (hs.apart.clear.unled '(' (by decide))).split (hs.apart ')' (by decide))
  exact ⟨⟨halt, hsource⟩, hrest⟩

end Firm

end Html

end DocComment
