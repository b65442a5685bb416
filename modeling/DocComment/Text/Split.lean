/-!
# Parts of a text

The rest of a text after a fixed start, what stands before a fixed text and after it, and
a text cut into the places that a reader recognises and the characters between them.
-/

namespace DocComment.Text

/-- The rest of a text that starts as given. -/
def after? : List Char → List Char → Option (List Char)
  | [], cs => some cs
  | t :: ts, c :: cs => if t = c then after? ts cs else none
  | _ :: _, [] => none

/-- What stands before the first occurrence of a text, and what follows it. The part
before holds only characters that pass the test. -/
def upTo? (p : Char → Bool) (close : List Char) : List Char → Option (List Char × List Char)
  | [] => (after? close []).map fun rest => ([], rest)
  | c :: cs =>
    match after? close (c :: cs) with
    | some rest => some ([], rest)
    | none => if p c then (upTo? p close cs).map fun (body, rest) => (c :: body, rest) else none

theorem after?_eq_some_iff {start cs rest : List Char} :
    after? start cs = some rest ↔ cs = start ++ rest := by
  induction start generalizing cs with
  | nil => simp [after?]
  | cons t ts ih =>
    cases cs with
    | nil => simp [after?]
    | cons c cs =>
      by_cases h : t = c
      · simp [after?, h, ih]
      · simp [after?, h, Ne.symm h]

/-- Nothing is lost: the part before, the text looked for and the rest make up the
whole. -/
theorem eq_append_of_upTo? {p : Char → Bool} {close cs body rest : List Char}
    (h : upTo? p close cs = some (body, rest)) : cs = body ++ close ++ rest := by
  induction cs generalizing body with
  | nil =>
    simp only [upTo?, Option.map_eq_some_iff, Prod.mk.injEq] at h
    obtain ⟨r, hr, rfl, rfl⟩ := h
    simpa using after?_eq_some_iff.1 hr
  | cons c cs ih =>
    unfold upTo? at h
    split at h
    · next hr =>
      simp only [Option.some.injEq, Prod.mk.injEq] at h
      obtain ⟨rfl, rfl⟩ := h
      simpa using after?_eq_some_iff.1 hr
    · split at h
      · simp only [Option.map_eq_some_iff, Prod.mk.injEq, Prod.exists] at h
        obtain ⟨b, r, hb, rfl, rfl⟩ := h
        simp [ih hb]
      · simp at h

/-- The part before holds only characters that pass the test. -/
theorem all_of_upTo? {p : Char → Bool} {close cs body rest : List Char}
    (h : upTo? p close cs = some (body, rest)) : ∀ c ∈ body, p c := by
  induction cs generalizing body with
  | nil =>
    simp only [upTo?, Option.map_eq_some_iff, Prod.mk.injEq] at h
    obtain ⟨r, hr, rfl, rfl⟩ := h
    simp
  | cons c cs ih =>
    unfold upTo? at h
    split at h
    · simp only [Option.some.injEq, Prod.mk.injEq] at h
      obtain ⟨rfl, rfl⟩ := h
      simp
    · split at h
      · simp only [Option.map_eq_some_iff, Prod.mk.injEq, Prod.exists] at h
        obtain ⟨b, r, hb, rfl, rfl⟩ := h
        simp only [List.mem_cons, forall_eq_or_imp]
        exact ⟨by assumption, ih hb⟩
      · simp at h

/-- A piece of a text: a character, or a place that a reader recognised. -/
inductive Piece (α : Type) where
  | plain (c : Char)
  | marked (mark : α)
  deriving DecidableEq, Repr

/-- The pieces of a text after `skip` more characters. At each place the reader is tried
first, and what it has read is skipped. -/
def piecesAfter {α : Type} (read : List Char → Option (α × List Char)) :
    (skip : Nat) → List Char → List (Piece α)
  | _, [] => []
  | skip + 1, _ :: cs => piecesAfter read skip cs
  | 0, c :: cs =>
    match read (c :: cs) with
    | some (a, rest) => .marked a :: piecesAfter read (cs.length - rest.length) cs
    | none => .plain c :: piecesAfter read 0 cs

/-- The pieces of a text, from left to right. -/
def pieces {α : Type} (read : List Char → Option (α × List Char)) (cs : List Char) :
    List (Piece α) :=
  piecesAfter read 0 cs

end DocComment.Text
