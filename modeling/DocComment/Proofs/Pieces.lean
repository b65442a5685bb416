import DocComment.Html.Inline

/-!
# Marked texts, piece by piece

Inline markup is read off a text from left to right: a reader recognises a marked place
and says where the text goes on, and `Text.pieces` cuts the text along what it recognises.
The function counts the characters still to skip; here it is turned into what it means. A
reader that moves on (`MovesOn`) recognises a place or passes over a character, and
`pieces_induction` is the induction that goes with that, for whatever is to be shown of a
text and its pieces. The rest of the file says of each reader of inline markup what it has
read.
-/

namespace DocComment

namespace Text

variable {α : Type} {read : List Char → Option (α × List Char)}

/-- What the reader recognises is there, and is not nothing. -/
def MovesOn (read : List Char → Option (α × List Char)) : Prop :=
  ∀ {cs a rest}, read cs = some (a, rest) → ∃ c w, cs = c :: (w ++ rest)

theorem piecesAfter_eq_drop (skip : Nat) (cs : List Char) :
    piecesAfter read skip cs = pieces read (cs.drop skip) := by
  induction cs generalizing skip with
  | nil =>
      rw [List.drop_nil]
      cases skip <;> rfl
  | cons c cs ih =>
      cases skip with
      | zero => rfl
      | succ skip => exact ih skip

theorem pieces_of_none {c : Char} {cs : List Char} (h : read (c :: cs) = none) :
    pieces read (c :: cs) = .plain c :: pieces read cs := by
  rw [pieces, piecesAfter, h]
  rfl

theorem pieces_of_some {cs rest : List Char} {a : α} (hread : MovesOn read)
    (h : read cs = some (a, rest)) : pieces read cs = .marked a :: pieces read rest := by
  obtain ⟨c, w, rfl⟩ := hread h
  rw [pieces, piecesAfter, h]
  simp only []
  rw [piecesAfter_eq_drop]
  have hlen : (w ++ rest).length - rest.length = w.length := by
    rw [List.length_append]
    omega
  rw [hlen, List.drop_left]

/-- What holds of a text and its pieces if it holds of nothing, of a character that is
passed over, and of a place that is recognised. -/
theorem pieces_induction {P : List Char → List (Piece α) → Prop} (hread : MovesOn read)
    (nil : P [] [])
    (plain : ∀ c cs, read (c :: cs) = none → P cs (pieces read cs) →
      P (c :: cs) (.plain c :: pieces read cs))
    (marked : ∀ cs a rest, read cs = some (a, rest) → P rest (pieces read rest) →
      P cs (.marked a :: pieces read rest)) :
    ∀ cs, P cs (pieces read cs) := by
  intro cs
  induction hn : cs.length using Nat.strongRecOn generalizing cs with
  | ind n ih =>
    cases cs with
    | nil => exact nil
    | cons c cs =>
        cases h : read (c :: cs) with
        | none =>
            rw [pieces_of_none h]
            refine plain c cs h (ih cs.length ?_ cs rfl)
            rw [← hn, List.length_cons]
            omega
        | some x =>
            obtain ⟨a, rest⟩ := x
            rw [pieces_of_some hread h]
            refine marked _ a rest h (ih rest.length ?_ rest rfl)
            obtain ⟨d, w, hw⟩ := hread h
            rw [← hn, hw, List.length_cons, List.length_append]
            omega

/-- The marks among some pieces. -/
def marksOf {α : Type} (ps : List (Piece α)) : List α :=
  ps.filterMap fun
    | .plain _ => none
    | .marked a => some a

end Text

namespace Html

open Text

/-! ## The readers of inline markup -/

theorem between_eq_some {opening closing : String} {cs body rest : List Char}
    (h : between opening closing cs = some (body, rest)) :
    cs = opening.toList ++ (body ++ (closing.toList ++ rest)) := by
  rw [between] at h
  split at h
  · next cs' ho =>
      rw [after?_eq_some_iff.1 ho, eq_append_of_upTo? h, List.append_assoc]
  · cases h

theorem movesOn_between {opening closing : String} {c : Char} {w : List Char}
    (ho : opening.toList = c :: w) : MovesOn (between opening closing) := by
  intro cs body rest h
  refine ⟨c, w ++ (body ++ closing.toList), ?_⟩
  rw [between_eq_some h, ho]
  simp

theorem readImage_eq_some {cs alt source rest : List Char}
    (h : readImage cs = some ((alt, source), rest)) :
    cs = '!' :: '[' :: (alt ++ (']' :: '(' :: (source ++ (')' :: rest)))) := by
  simp only [readImage, Option.bind_eq_bind, Option.bind_eq_some_iff, Prod.exists] at h
  obtain ⟨alt', cs', hb, source', rest', hu, h⟩ := h
  obtain ⟨⟨rfl, rfl⟩, rfl⟩ : (alt' = alt ∧ source' = source) ∧ rest' = rest := by
    simpa using h
  rw [between_eq_some hb, eq_append_of_upTo? hu]
  simp

theorem movesOn_readImage : MovesOn readImage := by
  intro cs image rest h
  obtain ⟨alt, source⟩ := image
  refine ⟨'!', '[' :: (alt ++ (']' :: '(' :: (source ++ [')']))), ?_⟩
  rw [readImage_eq_some h]
  simp

theorem upToFinalMark_eq_some {cs body rest : List Char}
    (h : upToFinalMark cs = some (body, rest)) : cs = body ++ '_' :: rest := by
  induction cs generalizing body with
  | nil => cases h
  | cons c cs ih =>
      rw [upToFinalMark] at h
      split at h
      · next hc =>
          rw [Bool.and_eq_true, decide_eq_true_eq] at hc
          obtain ⟨rfl, rfl⟩ : [] = body ∧ cs = rest := by simpa using h
          rw [hc.1, List.nil_append]
      · split at h
        · rw [Option.map_eq_some_iff] at h
          obtain ⟨⟨body', rest'⟩, hb, h⟩ := h
          obtain ⟨rfl, rfl⟩ : c :: body' = body ∧ rest' = rest := by simpa using h
          rw [ih hb, List.cons_append]
        · cases h

theorem finalEmphasis_eq_some {cs body rest : List Char}
    (h : finalEmphasis cs = some (body, rest)) : cs = '_' :: (body ++ '_' :: rest) := by
  unfold finalEmphasis at h
  split at h
  · rw [upToFinalMark_eq_some h]
  · cases h

theorem movesOn_finalEmphasis : MovesOn finalEmphasis := by
  intro cs body rest h
  refine ⟨'_', body ++ ['_'], ?_⟩
  rw [finalEmphasis_eq_some h]
  simp

theorem readPlaceholder_eq_some {cs digits rest : List Char}
    (h : readPlaceholder cs = some (digits, rest)) :
    cs = '\x00' :: (digits ++ '\x00' :: rest) ∧ ∀ d ∈ digits, isDecimal d := by
  unfold readPlaceholder at h
  split at h
  · next cs' =>
      split at h
      · next d ds rest' htake hdrop =>
          obtain ⟨rfl, rfl⟩ : d :: ds = digits ∧ rest' = rest := by simpa using h
          constructor
          · rw [← hdrop, ← htake, List.takeWhile_append_dropWhile]
          · intro x hx
            rw [← htake] at hx
            exact List.all_eq_true.1 List.all_takeWhile x hx
      · cases h
  · cases h

theorem movesOn_readPlaceholder : MovesOn readPlaceholder := by
  intro cs digits rest h
  refine ⟨'\x00', digits ++ ['\x00'], ?_⟩
  rw [(readPlaceholder_eq_some h).1]
  simp

/-! ## The steps of the markup -/

/-- A text with its formulas and its code on the shelf. -/
def shelved (cs : List Char) : List Char × Shelf :=
  shelveCode (shelveMath (escapeChars cs)).2 (shelveMath (escapeChars cs)).1

/-- A text with its emphasis marked up. -/
def emphasized (cs : List Char) : List Char :=
  emphasisAtEnd (emphasisAtStart (emphasisWithin (strong cs)))

/-- A text with all that is marked up in place. -/
def markedUp (cs : List Char) : List Char :=
  images (emphasisAtEnd (emphasisAtStart (emphasisWithin (strong cs))))

theorem proseChars_eq (cs : List Char) :
    proseChars cs =
      if (shelved cs).2.isEmpty then .ok (markedUp (shelved cs).1)
      else restore (shelved cs).2 (pieces readPlaceholder (markedUp (shelved cs).1)) := rfl

end Html

end DocComment
