import DocComment.Json.Printer
import DocComment.Json.Reader
import DocComment.Proofs.Placeholders

/-!
# Printed values are read back

Reading inverts printing in every layout, for every value and not only for sorted ones
(`ofText?_text`). So two values with the same text are the same value (`text_inj`), and
nothing of a value is lost in its text.

A value is read back wherever it stands: after any number of blanks, and before anything
that does not start with a digit, as a number would be read on there. With that as the
induction hypothesis (`ReadsBack`) the layouts need no cases of their own, for all that
they do is to put blanks where blanks are skipped. The calls of the reader are bounded by
a number; it never matters, since the length of what is printed is enough.
-/

namespace DocComment.Json

open Text

/-- A value is made of values that have been made before it. -/
@[elab_as_elim]
theorem inductionOn {motive : Json → Prop} (j : Json) (null : motive .null)
    (bool : ∀ b, motive (.bool b)) (int : ∀ n, motive (.int n)) (str : ∀ s, motive (.str s))
    (arr : ∀ items, (∀ j ∈ items, motive j) → motive (.arr items))
    (obj : ∀ members, (∀ m ∈ members, motive m.2) → motive (.obj members)) : motive j :=
  @Json.rec motive (fun items => ∀ j ∈ items, motive j) (fun members => ∀ m ∈ members, motive m.2)
    (fun m => motive m.2) null bool int str arr obj
    (fun _ hj => nomatch hj)
    (fun _ _ hj hjs => List.forall_mem_cons.2 ⟨hj, hjs⟩)
    (fun _ hm => nomatch hm)
    (fun _ _ hm hms => List.forall_mem_cons.2 ⟨hm, hms⟩)
    (fun _ _ hj => hj) j

/-! ## Escapes -/

theorem hexValue?_hexDigit {n : Nat} (h : n < 16) : hexValue? (hexDigit n) = some n := by
  have hall : ∀ n : Fin 16, hexValue? (hexDigit n) = some n.val := by decide
  exact hall ⟨n, h⟩

/-- An escape for a code unit has four digits, from which the unit is read off. -/
theorem unitEscape_read {n : Nat} (h : n < 0x10000) :
    ∃ a b c d, unitEscape n = ['\\', 'u', a, b, c, d] ∧ unitValue? a b c d = some n := by
  refine ⟨hexDigit (n / 16 / 16 / 16 % 16), hexDigit (n / 16 / 16 % 16), hexDigit (n / 16 % 16),
    hexDigit (n % 16), rfl, ?_⟩
  have digit (m : Nat) : hexValue? (hexDigit (m % 16)) = some (m % 16) :=
    hexValue?_hexDigit (Nat.mod_lt _ (by decide))
  simp only [unitValue?, digit, Option.bind_eq_bind, Option.bind_some, Option.pure_def,
    Option.some.injEq]
  omega

variable {cs rest s : List Char} {a b c d : Char}

/-- If an escape can be read then its digits stand for a unit. -/
theorem unitValue?_of_read
    (h : readString ('\\' :: 'u' :: a :: b :: c :: d :: cs) = some (s, rest)) :
    ∃ n, unitValue? a b c d = some n := by
  cases hn : unitValue? a b c d with
  | some n => exact ⟨n, rfl⟩
  | none =>
      by_cases hesc : ∃ a' b' c' d' cs', cs = '\\' :: 'u' :: a' :: b' :: c' :: d' :: cs'
      · obtain ⟨a', b', c', d', cs', rfl⟩ := hesc
        simp [readString.eq_3, hn] at h
      · rw [readString.eq_4 _ _ _ _ _ fun a' b' c' d' cs' hcs => hesc ⟨a', b', c', d', cs', hcs⟩,
          hn] at h
        cases h

/-- The ways to write a character: a backslash and a letter, the character itself, the
escape of a unit that is no half of a surrogate pair, and the escapes of a pair. -/
inductive Spelling : Char → List Char → Prop where
  | short {x e : Char} (h : plainEscape? e = some x) : Spelling x ['\\', e]
  | self {x : Char} (hquote : x ≠ '"') (hslash : x ≠ '\\') (hcontrol : 0x20 ≤ x.toNat) :
      Spelling x [x]
  | unit {a b c d : Char} {n : Nat} (hn : unitValue? a b c d = some n)
      (hhigh : isHighUnit n = false) (hlow : isLowUnit n = false) :
      Spelling (Char.ofNat n) ['\\', 'u', a, b, c, d]
  | pair {a b c d a' b' c' d' : Char} {high low : Nat} (hh : unitValue? a b c d = some high)
      (hl : unitValue? a' b' c' d' = some low) (hhigh : isHighUnit high = true)
      (hlow : isLowUnit low = true) :
      Spelling (Char.ofNat (0x10000 + (high - 0xd800) * 0x400 + (low - 0xdc00)))
        (['\\', 'u', a, b, c, d] ++ ['\\', 'u', a', b', c', d'])

/-- A character is read wherever it is written in one of these ways. -/
theorem Spelling.read {x : Char} {w : List Char} (hw : Spelling x w)
    (h : readString cs = some (s, rest)) : readString (w ++ cs) = some (x :: s, rest) := by
  cases hw with
  | @short _ e he =>
      have hu : e ≠ 'u' := by
        rintro rfl
        cases he
      rw [List.cons_append, List.singleton_append,
        readString.eq_5 e cs (fun _ _ _ _ _ _ _ _ _ he => absurd he hu)
          (fun _ _ _ _ _ he => absurd he hu), he]
      simp [h]
  | self hquote hslash hcontrol =>
      rw [List.singleton_append, readString.eq_6 x cs (absurd · hquote)
        (fun _ _ _ _ _ _ _ _ _ hc => absurd hc hslash) (fun _ _ _ _ _ hc => absurd hc hslash)
        (fun _ _ hc => absurd hc hslash)]
      simp [hslash, Nat.not_lt.2 hcontrol, h]
  | @unit a b c d n hn hhigh hlow =>
      -- An escape that follows is looked at before it is known that there is no pair.
      show readString ('\\' :: 'u' :: a :: b :: c :: d :: cs) = _
      by_cases hesc : ∃ a' b' c' d' cs', cs = '\\' :: 'u' :: a' :: b' :: c' :: d' :: cs'
      · obtain ⟨a', b', c', d', cs', rfl⟩ := hesc
        obtain ⟨n', hn'⟩ := unitValue?_of_read h
        simp [readString.eq_3, hn, hn', hhigh, hlow, h]
      · have hplain a' b' c' d' cs' hcs := hesc ⟨a', b', c', d', cs', hcs⟩
        rw [readString.eq_4 _ _ _ _ _ hplain, hn]
        simp [hhigh, hlow, h]
  | pair hh hl hhigh hlow => simp [readString.eq_3, hh, hl, hhigh, hlow, h]

/-- The four ways to write a character. -/
theorem escapeChar_cases (x : Char) :
    (∃ e, escapeChar x = ['\\', e] ∧ plainEscape? e = some x) ∨
      (escapeChar x = [x] ∧ x ≠ '"' ∧ x ≠ '\\' ∧ ' ' ≤ x ∧ x ≤ '~') ∨
      (escapeChar x = unitEscape x.toNat ∧ x.toNat < 0x10000) ∨
      (escapeChar x = unitEscape (0xd800 + (x.toNat - 0x10000) / 0x400) ++
          unitEscape (0xdc00 + (x.toNat - 0x10000) % 0x400) ∧ 0x10000 ≤ x.toNat) := by
  have short {y e : Char} (he : plainEscape? e = some y) (hx : x = y) :
      ∃ e', ['\\', e] = ['\\', e'] ∧ plainEscape? e' = some x := ⟨e, rfl, hx ▸ he⟩
  unfold escapeChar
  by_cases hquote : x = '"'
  · rw [if_pos hquote]
    exact .inl (short rfl hquote)
  rw [if_neg hquote]
  by_cases hslash : x = '\\'
  · rw [if_pos hslash]
    exact .inl (short rfl hslash)
  rw [if_neg hslash]
  by_cases hfeed : x = '\n'
  · rw [if_pos hfeed]
    exact .inl (short rfl hfeed)
  rw [if_neg hfeed]
  by_cases hreturn : x = '\r'
  · rw [if_pos hreturn]
    exact .inl (short rfl hreturn)
  rw [if_neg hreturn]
  by_cases htab : x = '\t'
  · rw [if_pos htab]
    exact .inl (short rfl htab)
  rw [if_neg htab]
  by_cases hback : x = '\x08'
  · rw [if_pos hback]
    exact .inl (short rfl hback)
  rw [if_neg hback]
  by_cases hpage : x = '\x0c'
  · rw [if_pos hpage]
    exact .inl (short rfl hpage)
  rw [if_neg hpage]
  by_cases hshown : (' ' ≤ x && x ≤ '~') = true
  · rw [if_pos hshown]
    rw [Bool.and_eq_true, decide_eq_true_eq, decide_eq_true_eq] at hshown
    exact .inr (.inl ⟨rfl, hquote, hslash, hshown⟩)
  rw [if_neg hshown]
  by_cases hsmall : x.toNat < 0x10000
  · rw [if_pos hsmall]
    exact .inr (.inr (.inl ⟨rfl, hsmall⟩))
  · rw [if_neg hsmall]
    exact .inr (.inr (.inr ⟨rfl, Nat.not_lt.1 hsmall⟩))

/-- What is printed for a character is one of the ways to write it. -/
theorem spelling_escapeChar (x : Char) : Spelling x (escapeChar x) := by
  have hvalid : x.toNat < 0xd800 ∨ 0xdfff < x.toNat ∧ x.toNat < 0x110000 := x.valid
  have hx : Char.ofNat x.toNat = x := Char.ofNat_toNat x
  obtain ⟨e, heq, he⟩ | ⟨heq, hquote, hslash, hlow, -⟩ | ⟨heq, hsmall⟩ | ⟨heq, hlarge⟩ :=
    escapeChar_cases x
  · rw [heq]
    exact .short he
  · rw [heq]
    exact .self hquote hslash hlow
  · obtain ⟨a, b, c, d, hunit, hn⟩ := unitEscape_read hsmall
    have hhigh : isHighUnit x.toNat = false := by
      rw [isHighUnit, Bool.and_eq_false_iff, decide_eq_false_iff_not, decide_eq_false_iff_not]
      omega
    have hlow : isLowUnit x.toNat = false := by
      rw [isLowUnit, Bool.and_eq_false_iff, decide_eq_false_iff_not, decide_eq_false_iff_not]
      omega
    have hspell := Spelling.unit hn hhigh hlow
    rw [hx] at hspell
    rw [heq, hunit]
    exact hspell
  · obtain ⟨a, b, c, d, hunit, hh⟩ :=
      unitEscape_read (n := 0xd800 + (x.toNat - 0x10000) / 0x400) (by omega)
    obtain ⟨a', b', c', d', hunit', hl⟩ :=
      unitEscape_read (n := 0xdc00 + (x.toNat - 0x10000) % 0x400) (by omega)
    have hhigh : isHighUnit (0xd800 + (x.toNat - 0x10000) / 0x400) = true := by
      rw [isHighUnit, Bool.and_eq_true, decide_eq_true_eq, decide_eq_true_eq]
      omega
    have hlow : isLowUnit (0xdc00 + (x.toNat - 0x10000) % 0x400) = true := by
      rw [isLowUnit, Bool.and_eq_true, decide_eq_true_eq, decide_eq_true_eq]
      omega
    have hnumber : 0x10000 + (0xd800 + (x.toNat - 0x10000) / 0x400 - 0xd800) * 0x400 +
        (0xdc00 + (x.toNat - 0x10000) % 0x400 - 0xdc00) = x.toNat := by omega
    have hspell := Spelling.pair hh hl hhigh hlow
    rw [hnumber, hx] at hspell
    rw [heq, hunit, hunit']
    exact hspell

/-- A text is read up to its closing quote. -/
theorem readString_flatMap (s rest : List Char) :
    readString (s.flatMap escapeChar ++ '"' :: rest) = some (s, rest) := by
  induction s with
  | nil => rfl
  | cons c s ih =>
      rw [List.flatMap_cons, List.append_assoc]
      exact (spelling_escapeChar c).read ih

/-! ## Numbers -/

/-- What follows a value so that a number is not read on there. -/
def Stops (cs : List Char) : Prop :=
  ∀ c ∈ cs.head?, c.isDigit = false

theorem stops_nil : Stops [] := nofun

theorem stops_cons (h : c.isDigit = false) : Stops (c :: cs) := by
  rintro c ⟨⟩
  exact h

/-- The digits of a number end where it stops. -/
theorem takeWhile_toString (n : Nat) (h : Stops rest) :
    ((toString n).toList ++ rest).takeWhile Char.isDigit = (toString n).toList ∧
      ((toString n).toList ++ rest).dropWhile Char.isDigit = rest := by
  have hdigits : ∀ c ∈ (toString n).toList, c.isDigit = true := fun _ => Html.isDigit_of_mem
  rw [List.takeWhile_append_of_pos hdigits, List.dropWhile_append_of_pos hdigits]
  cases rest with
  | nil => simp
  | cons c cs =>
      have hc := h c rfl
      simp [hc]

/-- Only the number zero starts with a zero. -/
theorem head_toDigits {n : Nat} (h : 0 < n) : (Nat.toDigits 10 n).head? ≠ some '0' := by
  induction n using Nat.strongRecOn with
  | ind n ih =>
      rcases Nat.lt_or_ge n 10 with hlt | hge
      · have hall : ∀ n : Fin 10, 0 < n.val → n.val.digitChar ≠ '0' := by decide
        rw [Nat.toDigits_of_lt_base hlt]
        simpa using hall ⟨n, hlt⟩ h
      · rw [Nat.toDigits_of_base_le (by decide) hge,
          List.head?_append_of_ne_nil _ Nat.toDigits_ne_nil]
        exact ih (n / 10) (by omega) (by omega)

theorem readNatural_toString (n : Nat) (h : Stops rest) :
    readNatural ((toString n).toList ++ rest) = some (n, rest) := by
  obtain ⟨htake, hdrop⟩ := takeWhile_toString n h
  rw [readNatural, htake]
  cases n with
  | zero => rfl
  | succ n =>
      have hhead := head_toDigits (Nat.succ_pos n)
      rw [← Html.toList_toString] at hhead
      split
      · next heq => 
          rw [Html.toList_toString] at heq
          exact absurd heq Nat.toDigits_ne_nil
      · next heq => exact absurd (by rw [heq]; rfl) hhead
      · next heq => exact absurd (by rw [heq]; rfl) hhead
      · rw [hdrop, Html.readDecimal_toString]

/-! ## Blanks -/

/-- Blanks in a row. -/
def Blank (ws : List Char) : Prop :=
  ∀ c ∈ ws, isSpace c = true

theorem blank_newline (layout : Layout) (level : Nat) : Blank (layout.newline level) := by
  cases layout with
  | oneLine => exact nofun
  | indented width =>
      refine List.forall_mem_cons.2 ⟨rfl, fun c hc => ?_⟩
      rw [List.eq_of_mem_replicate hc]
      rfl

/-- A comma is followed by blanks. -/
theorem comma_eq (layout : Layout) (level : Nat) :
    ∃ ws, Blank ws ∧ layout.comma level = ',' :: ws := by
  cases layout with
  | oneLine => exact ⟨[' '], List.forall_mem_singleton.2 rfl, rfl⟩
  | indented width => exact ⟨_, blank_newline (.indented width) level, rfl⟩

variable {ws : List Char}

theorem skipSpace_append (h : Blank ws) (cs : List Char) : skipSpace (ws ++ cs) = skipSpace cs :=
  List.dropWhile_append_of_pos h

theorem skipSpace_cons (h : isSpace c = false) : skipSpace (c :: cs) = c :: cs :=
  List.dropWhile_cons_of_neg (by simp [h])

theorem stops_newline (layout : Layout) (level : Nat) (hc : c.isDigit = false) :
    Stops (layout.newline level ++ c :: cs) := by
  cases layout with
  | oneLine => exact stops_cons hc
  | indented width => exact stops_cons rfl

theorem readValue_blanks (h : Blank ws) (fuel : Nat) (cs : List Char) :
    readValue fuel (ws ++ cs) = readValue fuel cs := by
  cases fuel with
  | zero => rfl
  | succ fuel => rw [readValue, readValue, skipSpace_append h]

theorem readItems_blanks (h : Blank ws) (fuel : Nat) (cs : List Char) :
    readItems fuel (ws ++ cs) = readItems fuel cs := by
  cases fuel with
  | zero => rfl
  | succ fuel => rw [readItems, readItems, readValue_blanks h]

theorem readMembers_blanks (h : Blank ws) (fuel : Nat) (cs : List Char) :
    readMembers fuel (ws ++ cs) = readMembers fuel cs := by
  cases fuel with
  | zero => rfl
  | succ fuel => rw [readMembers, readMembers, skipSpace_append h]

/-! ## Values -/

theorem isSpace_of_isDigit (h : c.isDigit = true) : isSpace c = false := by
  rw [Bool.eq_false_iff]
  intro hs
  simp only [isSpace, Bool.or_eq_true, decide_eq_true_eq] at hs
  obtain ((rfl | rfl) | rfl) | rfl := hs <;> exact absurd h (by decide)

/-- A number starts with a digit. -/
theorem toString_cons (n : Nat) : ∃ c cs, (toString n).toList = c :: cs ∧ c.isDigit = true := by
  cases h : (toString n).toList with
  | nil =>
      rw [Html.toList_toString] at h
      exact absurd h Nat.toDigits_ne_nil
  | cons c cs => exact ⟨c, cs, rfl, Html.isDigit_of_mem (h ▸ List.mem_cons_self)⟩

theorem toList_toString_negSucc (n : Nat) :
    (toString (Int.negSucc n)).toList = '-' :: (toString (n + 1)).toList := by
  show ("-" ++ toString (n + 1)).toList = _
  rw [String.toList_append]
  rfl

/-- A value starts neither with a blank nor with the end of an array. -/
theorem print_cons (layout : Layout) (level : Nat) (j : Json) :
    ∃ c cs, j.print layout level = c :: cs ∧ isSpace c = false ∧ c ≠ ']' := by
  cases j with
  | null => exact ⟨_, _, rfl, rfl, by decide⟩
  | bool b => cases b <;> exact ⟨_, _, rfl, rfl, by decide⟩
  | int n =>
      cases n with
      | ofNat n =>
          obtain ⟨c, cs, heq, hc⟩ := toString_cons n
          refine ⟨c, cs, heq, isSpace_of_isDigit hc, ?_⟩
          rintro rfl
          exact absurd hc (by decide)
      | negSucc n => exact ⟨_, _, toList_toString_negSucc n, rfl, by decide⟩
  | str s => exact ⟨_, _, rfl, rfl, by decide⟩
  | arr items => cases items <;> exact ⟨_, _, rfl, rfl, by decide⟩
  | obj members => cases members <;> exact ⟨_, _, rfl, rfl, by decide⟩

theorem readValue_digit (h : c.isDigit = true) (fuel : Nat) :
    readValue (fuel + 1) (c :: cs) =
      (readNatural (c :: cs)).map fun (n, rest) => (int n, rest) := by
  rw [readValue, skipSpace_cons (isSpace_of_isDigit h)]
  split
  case h_8 => rfl
  all_goals
    next heq =>
      obtain ⟨rfl, -⟩ := List.cons.inj heq
      exact absurd h (by decide)

/-- Whether a value is read back, wherever it stands, if only the bound allows for its
length. -/
def ReadsBack (layout : Layout) (j : Json) : Prop :=
  ∀ level fuel rest, Stops rest → (j.print layout level).length ≤ fuel →
    readValue fuel (j.print layout level ++ rest) = some (j, rest)

/-- The items of an array are read back up to its end. -/
theorem readItems_print {layout : Layout} {level : Nat} {js : List Json} {j : Json} {fuel : Nat}
    (h : ∀ i ∈ j :: js, ReadsBack layout i)
    (hfuel : (j.print layout (level + 1)).length + (printItems layout level js).length < fuel) :
    readItems fuel (j.print layout (level + 1) ++ (printItems layout level js ++
      (layout.newline level ++ ']' :: rest))) = some (j :: js, rest) := by
  induction js generalizing j fuel with
  | nil =>
      obtain _ | fuel := fuel
      · cases hfuel
      have hj := h j List.mem_cons_self (level + 1) fuel (layout.newline level ++ ']' :: rest)
        (stops_newline layout level rfl)
        (by simp only [printItems, List.length_nil] at hfuel; omega)
      rw [readItems, printItems, List.nil_append, hj]
      simp only [Option.bind_eq_bind, Option.bind_some]
      rw [skipSpace_append (blank_newline layout level), skipSpace_cons rfl]
      rfl
  | cons j' js ih =>
      obtain _ | fuel := fuel
      · cases hfuel
      obtain ⟨ws, hws, hcomma⟩ := comma_eq layout (level + 1)
      simp only [printItems, hcomma, List.cons_append, List.append_assoc, List.length_cons,
        List.length_append] at hfuel ⊢
      have hj := h j List.mem_cons_self (level + 1) fuel (',' :: (ws ++ (j'.print layout (level + 1)
        ++ (printItems layout level js ++ (layout.newline level ++ ']' :: rest)))))
        (stops_cons rfl) (by omega)
      have hjs := @ih j' fuel (fun i hi => h i (List.mem_cons_of_mem _ hi)) (by omega)
      rw [readItems, hj]
      simp only [Option.bind_eq_bind, Option.bind_some]
      rw [skipSpace_cons rfl]
      simp only [readItems_blanks hws, hjs, Option.map_some]

/-- The name of a member and its value are read back, and after them the end of the object
or a comma and more members. -/
theorem readMember_print {layout : Layout} {level : Nat} {k : String} {j : Json} {fuel : Nat}
    {ms : List (String × Json)} {cs : List Char} (h : ReadsBack layout j) (hcs : Stops cs)
    (hfuel : (j.print layout level).length ≤ fuel)
    (hnext : skipSpace cs = '\x7d' :: rest ∧ ms = [] ∨
      ∃ more, skipSpace cs = ',' :: more ∧ readMembers fuel more = some (ms, rest)) :
    readMembers (fuel + 1) (printString k ++ (':' :: ' ' :: (j.print layout level ++ cs))) =
      some ((k, j) :: ms, rest) := by
  have hblank : Blank [' '] := List.forall_mem_singleton.2 rfl
  have hj : readValue fuel (' ' :: (j.print layout level ++ cs)) = some (j, cs) :=
    (readValue_blanks hblank fuel _).trans (h level fuel cs hcs hfuel)
  have hform : printString k ++ (':' :: ' ' :: (j.print layout level ++ cs)) =
      '"' :: (k.toList.flatMap escapeChar ++
        '"' :: (':' :: ' ' :: (j.print layout level ++ cs))) := by
    simp [printString]
  rw [hform, readMembers, skipSpace_cons rfl]
  simp only [readString_flatMap, Option.bind_eq_bind, Option.bind_some]
  rw [skipSpace_cons rfl]
  rcases hnext with ⟨hend, rfl⟩ | ⟨more, hcomma, hms⟩
  · simp only [hj, hend, Option.bind_some, String.ofList_toList]
  · simp only [hj, hcomma, hms, Option.bind_some, Option.map_some, String.ofList_toList]

/-- The members of an object are read back up to its end. -/
theorem readMembers_print {layout : Layout} {level : Nat} {ms : List (String × Json)} {k : String}
    {j : Json} {fuel : Nat} (h : ∀ m ∈ (k, j) :: ms, ReadsBack layout m.2)
    (hfuel : (j.print layout (level + 1)).length + (printMembers layout level ms).length < fuel) :
    readMembers fuel (printString k ++ (':' :: ' ' :: (j.print layout (level + 1) ++
      (printMembers layout level ms ++ (layout.newline level ++ '\x7d' :: rest))))) =
      some ((k, j) :: ms, rest) := by
  have hj : ReadsBack layout j := h (k, j) List.mem_cons_self
  induction ms generalizing k j fuel with
  | nil =>
      obtain _ | fuel := fuel
      · cases hfuel
      simp only [printMembers, List.length_nil, List.nil_append] at hfuel ⊢
      refine readMember_print hj (stops_newline layout level rfl) (by omega) (.inl ⟨?_, rfl⟩)
      rw [skipSpace_append (blank_newline layout level), skipSpace_cons rfl]
  | cons m ms ih =>
      obtain ⟨k', j'⟩ := m
      obtain _ | fuel := fuel
      · cases hfuel
      obtain ⟨ws, hws, hcomma⟩ := comma_eq layout (level + 1)
      simp only [printMembers, hcomma, List.cons_append, List.append_assoc, List.length_cons,
        List.length_append, List.nil_append] at hfuel ⊢
      have hms := @ih k' j' fuel (fun m hm => h m (List.mem_cons_of_mem _ hm)) (by omega)
        (h (k', j') (List.mem_cons_of_mem _ List.mem_cons_self))
      refine readMember_print hj (stops_cons rfl) (by omega) (.inr ⟨_, skipSpace_cons rfl, ?_⟩)
      rw [readMembers_blanks hws, hms]

theorem readsBack_int (layout : Layout) (n : Int) : ReadsBack layout (int n) := by
  rintro level (_ | fuel) rest hrest hfuel
  · obtain ⟨c, cs, heq, -⟩ := print_cons layout level (int n)
    rw [heq] at hfuel
    cases hfuel
  cases n with
  | ofNat n =>
      obtain ⟨c, cs, heq, hc⟩ := toString_cons n
      have hform : print layout level (int (Int.ofNat n)) ++ rest = c :: (cs ++ rest) := by
        rw [← List.cons_append, ← heq]
        rfl
      rw [hform, readValue_digit hc, ← List.cons_append, ← heq, readNatural_toString n hrest]
      rfl
  | negSucc n =>
      have hform : print layout level (int (Int.negSucc n)) ++ rest =
          '-' :: ((toString (n + 1)).toList ++ rest) := by
        rw [print, toList_toString_negSucc, List.cons_append]
      rw [hform, readValue, skipSpace_cons rfl]
      simp only [readNatural_toString (n + 1) hrest, Option.map_some]
      rfl

theorem readsBack_arr {layout : Layout} {items : List Json} (h : ∀ j ∈ items, ReadsBack layout j) :
    ReadsBack layout (arr items) := by
  rintro level (_ | fuel) rest - hfuel
  · obtain ⟨c, cs, heq, -⟩ := print_cons layout level (arr items)
    rw [heq] at hfuel
    cases hfuel
  cases items with
  | nil => rfl
  | cons j js =>
      obtain ⟨c, cs, heq, hspace, hend⟩ := print_cons layout (level + 1) j
      simp only [print, List.cons_append, List.append_assoc, List.length_cons, List.length_append,
        List.nil_append] at hfuel ⊢
      have hitems : readItems fuel (j.print layout (level + 1) ++ (printItems layout level js ++
          (layout.newline level ++ ']' :: rest))) = some (j :: js, rest) :=
        readItems_print h (by omega)
      rw [heq] at hitems ⊢
      rw [readValue, skipSpace_cons rfl]
      simp only [skipSpace_append (blank_newline layout (level + 1)), List.cons_append,
        skipSpace_cons hspace] at hitems ⊢
      split
      · next hcs => exact absurd (List.cons.inj hcs).1 hend
      · rw [hitems]
        rfl

theorem readsBack_obj {layout : Layout} {members : List (String × Json)}
    (h : ∀ m ∈ members, ReadsBack layout m.2) : ReadsBack layout (obj members) := by
  rintro level (_ | fuel) rest - hfuel
  · obtain ⟨c, cs, heq, -⟩ := print_cons layout level (obj members)
    rw [heq] at hfuel
    cases hfuel
  cases members with
  | nil => rfl
  | cons m ms =>
      obtain ⟨k, j⟩ := m
      simp only [print, List.cons_append, List.append_assoc, List.length_cons, List.length_append,
        List.nil_append] at hfuel ⊢
      have hmembers : readMembers fuel (printString k ++ (':' :: ' ' ::
          (j.print layout (level + 1) ++ (printMembers layout level ms ++
            (layout.newline level ++ '\x7d' :: rest))))) = some ((k, j) :: ms, rest) :=
        readMembers_print h (by omega)
      rw [readValue, skipSpace_cons rfl]
      simp only [skipSpace_append (blank_newline layout (level + 1)), printString,
        List.cons_append] at hmembers ⊢
      rw [skipSpace_cons rfl]
      split
      · next hcs => exact absurd (List.cons.inj hcs).1 (by decide)
      · rw [hmembers]
        rfl

/-- Every value is read back. -/
theorem readsBack (layout : Layout) (j : Json) : ReadsBack layout j := by
  induction j using inductionOn with
  | null =>
      rintro level (_ | fuel) rest - hfuel
      · cases hfuel
      · rfl
  | bool b =>
      rintro level (_ | fuel) rest - hfuel
      · cases b <;> cases hfuel
      · cases b <;> rfl
  | int n => exact readsBack_int layout n
  | str s =>
      rintro level (_ | fuel) rest - hfuel
      · cases hfuel
      have hform : printString s ++ rest = '"' :: (s.toList.flatMap escapeChar ++ '"' :: rest) := by
        simp [printString]
      rw [print, hform, readValue, skipSpace_cons rfl]
      simp only [readString_flatMap, Option.map_some, String.ofList_toList]
  | arr items ih => exact readsBack_arr ih
  | obj members ih => exact readsBack_obj ih

/-- Reading inverts printing. -/
theorem ofText?_text (layout : Layout) (j : Json) : ofText? (j.text layout) = some j := by
  have h := readsBack layout j 0 ((j.print layout 0).length + 1) [] stops_nil (Nat.le_succ _)
  rw [List.append_nil] at h
  rw [ofText?, text, String.toList_ofList, h]
  rfl

/-- A text is the text of one value only. -/
theorem text_inj {layout : Layout} {j j' : Json} :
    j.text layout = j'.text layout ↔ j = j' := by
  refine ⟨fun h => ?_, fun h => h ▸ rfl⟩
  have hread := ofText?_text layout j
  rw [h, ofText?_text] at hread
  exact (Option.some.inj hread).symm

/-! ## ASCII -/

/-- Whether a text is in ASCII. -/
def Ascii (cs : List Char) : Prop :=
  ∀ c ∈ cs, c.toNat < 0x80

@[simp] theorem ascii_nil : Ascii [] := nofun

@[simp] theorem ascii_cons : Ascii (c :: cs) ↔ c.toNat < 0x80 ∧ Ascii cs :=
  List.forall_mem_cons

@[simp] theorem ascii_append : Ascii (cs ++ rest) ↔ Ascii cs ∧ Ascii rest :=
  List.forall_mem_append

theorem ascii_hex (width n : Nat) : Ascii (hex width n) := by
  have hall : ∀ n : Fin 16, (hexDigit n).toNat < 0x80 := by decide
  induction width generalizing n with
  | zero => exact ascii_nil
  | succ width ih =>
      exact ascii_append.2 ⟨ih _, ascii_cons.2 ⟨hall ⟨n % 16, Nat.mod_lt _ (by decide)⟩, ascii_nil⟩⟩

theorem ascii_unitEscape (n : Nat) : Ascii (unitEscape n) :=
  ascii_cons.2 ⟨by decide, ascii_cons.2 ⟨by decide, ascii_hex 4 n⟩⟩

theorem ascii_escapeChar (x : Char) : Ascii (escapeChar x) := by
  obtain ⟨e, heq, he⟩ | ⟨heq, -, -, -, hhigh⟩ | ⟨heq, -⟩ | ⟨heq, -⟩ := escapeChar_cases x
  · have hletter : e.toNat < 0x80 := by
      unfold plainEscape? at he
      split at he <;> first | decide | cases he
    simp [heq, hletter]
  · have hx : x.toNat ≤ '~'.toNat := hhigh
    rw [heq]
    exact ascii_cons.2 ⟨Nat.lt_of_le_of_lt hx (by decide), ascii_nil⟩
  · exact heq ▸ ascii_unitEscape _
  · exact heq ▸ ascii_append.2 ⟨ascii_unitEscape _, ascii_unitEscape _⟩

theorem ascii_printString (s : String) : Ascii (printString s) := by
  have hchars : Ascii (s.toList.flatMap escapeChar) := by
    intro c hc
    obtain ⟨x, -, hx⟩ := List.mem_flatMap.1 hc
    exact ascii_escapeChar x c hx
  simp [printString, hchars]

theorem ascii_toString (n : Nat) : Ascii (toString n).toList := by
  intro c hc
  have hdigit := Html.isDigit_of_mem hc
  simp only [Char.isDigit, Bool.and_eq_true, decide_eq_true_eq] at hdigit
  exact Nat.lt_of_le_of_lt hdigit.2 (by decide)

theorem ascii_of_blank (h : Blank ws) : Ascii ws := by
  intro c hc
  have hspace := h c hc
  simp only [isSpace, Bool.or_eq_true, decide_eq_true_eq] at hspace
  obtain ((rfl | rfl) | rfl) | rfl := hspace <;> decide

theorem ascii_comma (layout : Layout) (level : Nat) : Ascii (layout.comma level) := by
  obtain ⟨ws, hws, heq⟩ := comma_eq layout level
  exact heq ▸ ascii_cons.2 ⟨by decide, ascii_of_blank hws⟩

theorem ascii_newline (layout : Layout) (level : Nat) : Ascii (layout.newline level) :=
  ascii_of_blank (blank_newline layout level)

theorem ascii_printItems {layout : Layout} {items : List Json}
    (h : ∀ j ∈ items, ∀ level, Ascii (j.print layout level)) (level : Nat) :
    Ascii (printItems layout level items) := by
  induction items with
  | nil => exact ascii_nil
  | cons j js ih =>
      rw [printItems, ascii_append, ascii_append]
      exact ⟨⟨ascii_comma layout _, h j List.mem_cons_self _⟩,
        ih fun i hi => h i (List.mem_cons_of_mem _ hi)⟩

theorem ascii_printMembers {layout : Layout} {members : List (String × Json)}
    (h : ∀ m ∈ members, ∀ level, Ascii (m.2.print layout level)) (level : Nat) :
    Ascii (printMembers layout level members) := by
  induction members with
  | nil => exact ascii_nil
  | cons m ms ih =>
      obtain ⟨k, j⟩ := m
      have hms := ih fun m hm => h m (List.mem_cons_of_mem _ hm)
      have hj := h (k, j) List.mem_cons_self (level + 1)
      simp only [printMembers, ascii_append, ascii_cons]
      exact ⟨⟨⟨⟨ascii_comma layout _, ascii_printString k⟩, by decide, by decide, ascii_nil⟩, hj⟩,
        hms⟩

/-- A value is printed in ASCII, whatever characters it holds. -/
theorem ascii_print (layout : Layout) (level : Nat) (j : Json) : Ascii (j.print layout level) := by
  induction j using inductionOn generalizing level with
  | null => simp [print]
  | bool b => cases b <;> simp [print]
  | int n =>
      cases n with
      | ofNat n => exact ascii_toString n
      | negSucc n =>
          rw [print, toList_toString_negSucc]
          exact ascii_cons.2 ⟨by decide, ascii_toString (n + 1)⟩
  | str s => exact ascii_printString s
  | arr items ih =>
      cases items with
      | nil => simp [print]
      | cons j js =>
          have hj := ih j List.mem_cons_self (level + 1)
          have hjs := ascii_printItems (fun i hi => ih i (List.mem_cons_of_mem _ hi)) level
          simp [print, ascii_newline, hj, hjs]
  | obj members ih =>
      cases members with
      | nil => simp [print]
      | cons m ms =>
          obtain ⟨k, j⟩ := m
          have hj := ih (k, j) List.mem_cons_self (level + 1)
          have hms := ascii_printMembers (fun m hm => ih m (List.mem_cons_of_mem _ hm)) level
          simp [print, ascii_newline, ascii_printString, hj, hms]

theorem ascii_text (layout : Layout) (j : Json) : Ascii (j.text layout).toList := by
  rw [text, String.toList_ofList]
  exact ascii_print layout 0 j

end DocComment.Json
