import DocComment.Proofs.WellFormed

/-!
# Texts in memory and in files

A text is parsed as it stands in memory or from a file that holds its bytes, and the two
ways cut it into lines by different rules: in memory at every line break there is, in a
file at line feeds and carriage returns alone. Everything after the cutting is the same
for both. So the two agree on a text as soon as its bytes decode to its characters and
none of these is a line break to one way only. The cutting itself is one function of the
characters that count as breaks, which is why mixed line ends, empty last lines and a
missing final line end need no cases of their own.
-/

namespace DocComment

open Text

namespace Text

/-- Lines depend on what counts as a break only for the characters of the text. -/
theorem breakLines_congr {p q : Char → Bool} {cs : List Char} (h : ∀ c ∈ cs, p c = q c) :
    breakLines p cs = breakLines q cs := by
  fun_induction breakLines p cs with
  | case1 => rfl
  | case2 cs ih =>
      simp only [breakLines]
      rw [ih fun c hc => h c (by simp [hc])]
  | case3 c cs hcrlf hc ih =>
      have hq : q c = true := h c (by simp) ▸ hc
      rw [breakLines.eq_3 _ _ _ hcrlf, if_pos hq, ih fun c hc => h c (by simp [hc])]
  | case4 c cs hcrlf hc hnil ih =>
      have hq : ¬ q c = true := h c (by simp) ▸ hc
      rw [breakLines.eq_3 _ _ _ hcrlf, if_neg hq, ← ih fun c hc => h c (by simp [hc]), hnil]
  | case5 c cs hcrlf hc line lines hcons ih =>
      have hq : ¬ q c = true := h c (by simp) ▸ hc
      rw [breakLines.eq_3 _ _ _ hcrlf, if_neg hq, ← ih fun c hc => h c (by simp [hc]), hcons]

/-- The characters that end a line of a text in memory but not one of a file. -/
def separators : List Char :=
  ['\x0b', '\x0c', '\x1c', '\x1d', '\x1e', '\x85', '\u2028', '\u2029']

theorem isLineBreak_eq {c : Char} (h : c ∉ separators) : isLineBreak c = isNewline c := by
  simp only [separators, List.mem_cons, List.not_mem_nil, or_false, not_or] at h
  obtain ⟨h₁, h₂, h₃, h₄, h₅, h₆, h₇, h₈⟩ := h
  simp [isLineBreak, h₁, h₂, h₃, h₄, h₅, h₆, h₇, h₈]

/-- Without separators a text has the same lines in memory and in a file. -/
theorem lines_eq_fileLines {s : String} (h : ∀ c ∈ s.toList, c ∉ separators) :
    lines s = fileLines s.toList := by
  rw [lines, fileLines, breakLines_congr fun c hc => isLineBreak_eq (h c hc)]

end Text

namespace Source

/-! ## Decoding what was encoded -/

variable {place : Nat} {b : UInt8} {bs : List UInt8} {p p' : Partial} {c : Char}

theorem decodeUtf8_single (h : firstByte b.toNat = some (.inl c)) :
    decodeUtf8 place none (b :: bs) =
      ((c, place) :: (decodeUtf8 (place + 1) none bs).1, (decodeUtf8 (place + 1) none bs).2) := by
  simp only [decodeUtf8, h]

theorem decodeUtf8_first (h : firstByte b.toNat = some (.inr p)) :
    decodeUtf8 place none (b :: bs) = decodeUtf8 (place + 1) (some p) bs := by
  simp only [decodeUtf8, h]

theorem decodeUtf8_inner (h : nextByte p b.toNat = some (.inr p')) :
    decodeUtf8 place (some p) (b :: bs) = decodeUtf8 (place + 1) (some p') bs := by
  simp only [decodeUtf8, h]

theorem decodeUtf8_last (h : nextByte p b.toNat = some (.inl c)) :
    decodeUtf8 place (some p) (b :: bs) =
      ((c, place) :: (decodeUtf8 (place + 1) none bs).1, (decodeUtf8 (place + 1) none bs).2) := by
  simp only [decodeUtf8, h]

/-- The last byte of a character brings the six bits that are still missing. -/
theorem nextByte_last {x low high : Nat} (hlow : low ≤ x % 64 + 128) (hhigh : x % 64 + 128 ≤ high) :
    nextByte ⟨1, low, high, x / 64⟩ (x % 64 + 128) = some (.inl (Char.ofNat x)) := by
  have hx : x / 64 * 64 + (x % 64 + 128) % 64 = x := by omega
  simp only [nextByte, hlow, hhigh, hx, decide_true, Bool.and_self, if_true,
    Nat.le_refl]

/-- A byte within a character brings six bits. Half of a surrogate pair does not come
up. -/
theorem nextByte_inner {x low high m : Nat} (hlow : low ≤ x % 64 + 128)
    (hhigh : x % 64 + 128 ≤ high) (hhalf : isHalfPair x = false) :
    nextByte ⟨m + 2, low, high, x / 64⟩ (x % 64 + 128) =
      some (.inr ⟨m + 1, 0x80, 0xbf, x⟩) := by
  have hx : x / 64 * 64 + (x % 64 + 128) % 64 = x := by omega
  have hm : ¬ m + 2 ≤ 1 := by omega
  simp only [nextByte, hlow, hhigh, hx, hm, hhalf, decide_true, Bool.and_self, if_true, if_false,
    Bool.false_eq_true]
  rfl

theorem firstByte_one {v : Nat} (h : v ≤ 127) : firstByte v = some (.inl (Char.ofNat v)) :=
  if_pos (by omega)

theorem firstByte_two {v : Nat} (h : 127 < v) (h' : v ≤ 2047) :
    firstByte (v / 64 % 32 + 192) = some (.inr ⟨1, 0x80, 0xbf, v / 64⟩) := by
  have hcode : (v / 64 % 32 + 192) % 0x20 = v / 64 := by omega
  rw [firstByte, if_neg (by omega), if_neg (by omega), if_pos (by omega), hcode]

theorem firstByte_three {v : Nat} (h : v ≤ 65535) :
    firstByte (v / 64 / 64 % 16 + 224) =
      some (.inr ⟨2, if v / 64 / 64 = 0 then 0xa0 else 0x80, 0xbf, v / 64 / 64⟩) := by
  have hcode : (v / 64 / 64 % 16 + 224) % 0x10 = v / 64 / 64 := by omega
  have hlow : v / 64 / 64 % 16 + 224 = 0xe0 ↔ v / 64 / 64 = 0 := by omega
  rw [firstByte, if_neg (by omega), if_neg (by omega), if_neg (by omega), if_pos (by omega), hcode]
  simp only [hlow]

theorem firstByte_four {v : Nat} (h : v < 0x110000) :
    firstByte (v / 64 / 64 / 64 % 8 + 240) =
      some (.inr ⟨3, if v / 64 / 64 / 64 = 0 then 0x90 else 0x80,
        if v / 64 / 64 / 64 = 4 then 0x8f else 0xbf, v / 64 / 64 / 64⟩) := by
  have hcode : (v / 64 / 64 / 64 % 8 + 240) % 0x08 = v / 64 / 64 / 64 := by omega
  have hlow : v / 64 / 64 / 64 % 8 + 240 = 0xf0 ↔ v / 64 / 64 / 64 = 0 := by omega
  have hhigh : v / 64 / 64 / 64 % 8 + 240 = 0xf4 ↔ v / 64 / 64 / 64 = 4 := by omega
  rw [firstByte, if_neg (by omega), if_neg (by omega), if_neg (by omega), if_neg (by omega),
    if_pos (by omega), hcode]
  simp only [hlow, hhigh]

theorem isHalfPair_of_valid {v : Nat} (h : v < 0xd800 ∨ 0xdfff < v) :
    isHalfPair (v / 64) = false := by
  simp only [isHalfPair, Bool.and_eq_false_iff, decide_eq_false_iff_not]
  omega

theorem isHalfPair_of_lt {x : Nat} (h : x < 864) : isHalfPair x = false := by
  simp only [isHalfPair, Bool.and_eq_false_iff, decide_eq_false_iff_not]
  omega

/-- The bytes of one character are read as that character, whatever follows. -/
theorem decodeUtf8_char (c : Char) (place : Nat) (bs : List UInt8) :
    ∃ last next, decodeUtf8 place none (String.utf8EncodeChar c ++ bs) =
      ((c, last) :: (decodeUtf8 next none bs).1, (decodeUtf8 next none bs).2) := by
  have hvalid : c.val.toNat < 0xd800 ∨ 0xdfff < c.val.toNat ∧ c.val.toNat < 0x110000 := c.valid
  have hc : Char.ofNat c.val.toNat = c := Char.ofNat_toNat c
  generalize hv : c.val.toNat = v at hvalid hc
  subst hc
  have byte {α : Type} {f : Nat → α} {n : Nat} {x : α} (hn : n < 256) (h : f n = x) :
      f (UInt8.ofNat n).toNat = x := by
    rw [UInt8.toNat_ofNat', Nat.mod_eq_of_lt hn, h]
  have h₂ : v / 4096 = v / 64 / 64 := by omega
  have h₃ : v / 262144 = v / 64 / 64 / 64 := by omega
  have least (x : Nat) : 0x80 ≤ x % 64 + 128 := by omega
  have most (x : Nat) : x % 64 + 128 ≤ 0xbf := by omega
  unfold String.utf8EncodeChar
  simp only [hv, h₂, h₃]
  split
  · next hone => exact ⟨_, _, decodeUtf8_single (byte (by omega) (firstByte_one hone))⟩
  have hlast := byte (by omega) (nextByte_last (least v) (most v))
  split
  · next hone htwo =>
      have hfirst := byte (by omega) (firstByte_two (by omega) htwo)
      exact ⟨_, _, (decodeUtf8_first hfirst).trans (decodeUtf8_last hlast)⟩
  have hhalf : isHalfPair (v / 64) = false := isHalfPair_of_valid (by omega)
  split
  · next hone htwo hthree =>
      have hlow : (if v / 64 / 64 = 0 then 0xa0 else 0x80) ≤ v / 64 % 64 + 128 := by split <;> omega
      have hfirst := byte (by omega) (firstByte_three hthree)
      have hinner := byte (by omega) (nextByte_inner (m := 0) hlow (most _) hhalf)
      exact ⟨_, _, (decodeUtf8_first hfirst).trans
        ((decodeUtf8_inner hinner).trans (decodeUtf8_last hlast))⟩
  · next hone htwo hthree =>
      have hlow : (if v / 64 / 64 / 64 = 0 then 0x90 else 0x80) ≤ v / 64 / 64 % 64 + 128 := by
        split <;> omega
      have hhigh : v / 64 / 64 % 64 + 128 ≤ if v / 64 / 64 / 64 = 4 then 0x8f else 0xbf := by
        split <;> omega
      have hfirst := byte (by omega) (firstByte_four (v := v) (by omega))
      have hinner := byte (by omega)
        (nextByte_inner (m := 1) hlow hhigh (isHalfPair_of_lt (by omega)))
      have hinner' := byte (by omega) (nextByte_inner (m := 0) (least _) (most _) hhalf)
      exact ⟨_, _, (decodeUtf8_first hfirst).trans ((decodeUtf8_inner hinner).trans
        ((decodeUtf8_inner hinner').trans (decodeUtf8_last hlast)))⟩

/-- The bytes of a text are read as its characters, to the end. -/
theorem decodeUtf8_encode (cs : List Char) (place : Nat) :
    ((decodeUtf8 place none (cs.flatMap String.utf8EncodeChar)).1.map (·.1)) = cs ∧
      (decodeUtf8 place none (cs.flatMap String.utf8EncodeChar)).2 = .complete := by
  induction cs generalizing place with
  | nil => exact ⟨rfl, rfl⟩
  | cons c cs ih =>
      obtain ⟨last, next, heq⟩ := decodeUtf8_char c place (cs.flatMap String.utf8EncodeChar)
      obtain ⟨hchars, hending⟩ := ih next
      rw [List.flatMap_cons, heq]
      exact ⟨by rw [List.map_cons, hchars], hending⟩

/-- A file that holds the bytes of a text has the lines of that text, and all of them are
read. -/
theorem readFile_toUTF8 (s : String) :
    readFile .utf8 s.toUTF8.data.toList = ⟨fileLines s.toList, true⟩ := by
  have hbytes : s.toUTF8.data.toList = s.toList.flatMap String.utf8EncodeChar := by
    rw [String.toUTF8, ← String.utf8Encode_toList, List.utf8Encode, List.data_toByteArray]
  obtain ⟨hchars, hending⟩ := decodeUtf8_encode s.toList 0
  simp only [readFile, Encoding.decode, hbytes, hending, hchars]

end Source

/-! ## The two ways to parse -/

/-- A file that can be read to its end is parsed like the list of its lines, as a source
of which nothing but the path is told. -/
theorem parseFile_of_complete {settings : Settings} {path : String} {encoding : Source.Encoding}
    {bytes : List UInt8} (h : (Source.readFile encoding bytes).complete = true) :
    parseFile settings path encoding (some bytes) =
      parseLines settings { file := some path } (Source.readFile encoding bytes).lines := by
  unfold parseFile parseLines
  show _ = (Source.names path >>= _) >>= _
  cases Source.names path with
  | error fault => rfl
  | ok names =>
      simp only [bind, Except.bind, h]
      rfl

/-- The mode that a caller asks for holds for the parsing alone. -/
theorem Settings.Scope.parse_fst (s : Settings.Scope) (q : Request) (loose : Option Bool)
    (text : String) :
    (s.parse q loose text).1 = DocComment.parse (s.current.withLoose loose) q text := by
  cases loose <;> rfl

/-- A text without separators gives the same document, the same fault and the same records
whether it is parsed as it stands or from a file that holds its bytes. -/
theorem parseFile_eq_parse (s : Settings.Scope) (path : String) (loose : Option Bool)
    (content : String) (h : ∀ c ∈ content.toList, c ∉ separators) :
    parseFile (s.current.withLoose loose) path .utf8 (some content.toUTF8.data.toList) =
      (s.parse { file := some path } loose content).1 := by
  have hfile := Source.readFile_toUTF8 content
  rw [parseFile_of_complete (by rw [hfile]), hfile, s.parse_fst, DocComment.parse,
    lines_eq_fileLines h]

/-- The names of a file in the directory at hand. -/
theorem names_here : Source.names "d.js" = .ok ⟨"d", none, "d"⟩ := by
  have hsplit : "d.js".splitOn "/" = ["d.js"] := by
    rw [String.splitOn, if_neg (by decide)]
    iterate 4 rw [String.splitOnAux, if_neg (by decide), if_neg (by decide)]
    rw [String.splitOnAux, if_pos (by decide)]
    decide
  rw [Source.names, Source.steps, hsplit]
  rfl

/-- A carriage return before another line end is a line of its own, so the directive that
is not known stands on the fourth line, in memory and in the file. -/
theorem parseFile_eq_parse_directive :
    (∀ c ∈ "// # Té\r\n\r\r\n// doc:bad".toList, c ∉ separators) ∧
      ∃ fault, parseFile (Settings.withLoose {} (some true)) "d.js" .utf8
          (some "// # Té\r\n\r\r\n// doc:bad".toUTF8.data.toList) = .error fault ∧
        (Settings.Scope.parse {} { file := some "d.js" } (some true)
          "// # Té\r\n\r\r\n// doc:bad").1 = .error fault ∧
        fault.message = "d.js:4 Invalid option 'bad' in doc directive" := by
  have hseps : ∀ c ∈ "// # Té\r\n\r\r\n// doc:bad".toList, c ∉ separators := by simp [separators]
  have heq := parseFile_eq_parse {} "d.js" (some true) _ hseps
  have hnamed : ({ file := some "d.js" } : Request).named =
      .ok ("d", { fullname := some "d", file := some "d.js" }) := by
    show (Source.names "d.js" >>= _) = _
    rw [names_here]
    rfl
  have hfault : (Settings.Scope.parse {} { file := some "d.js" } (some true)
      "// # Té\r\n\r\r\n// doc:bad").1 =
      .error (.source (.badOption "bad") ⟨some 4, some "d.js"⟩) := by
    rw [Settings.Scope.parse_fst, DocComment.parse, parseLines, hnamed]
    rfl
  exact ⟨hseps, _, heq.trans hfault, hfault, by decide +kernel⟩

end DocComment
