import DocComment.Proofs.Placeholders
import DocComment.Proofs.UnbrokenMarkup

/-!
# The attributes of images

An image has two attributes, and the quotes around their values are to be closed by the
renderer only (`AttributesClosed`). The quotes of a value are replaced when the image is
put in place. At that time emphasis has become tags, and formulas and code are not there
yet: they are brought back into the attribute as they are. So the attributes of a text are
closed just if the two texts of each of its images have no emphasis, and nothing is
brought back into them that has a tag or a quote (`attributesClosed_iff`).

The harder half is that an attribute that does not close is seen in the page. The first
closing bracket after the start of an image ends the image or the tag of an element. An
attribute that closes has no tags in it, so it ends the image; and then the quotes can be
counted.
-/

namespace DocComment.Html

open Text

/-- A text that can stand between the quotes of an attribute. -/
def Quotable (cs : List Char) : Prop :=
  '\x27' ∉ cs ∧ '<' ∉ cs ∧ '>' ∉ cs

instance : DecidablePred Quotable :=
  fun _ => inferInstanceAs (Decidable (_ ∧ _ ∧ _))

/-- Wherever an image starts, its two attributes and the image itself are closed, with no
quote and no angle bracket before that. -/
def AttributesClosed (out : List Char) : Prop :=
  ∀ u v, out = u ++ ("<img alt='".toList ++ v) → ∃ alt source rest,
    v = alt ++ ("' src='".toList ++ (source ++ ("'/>".toList ++ rest))) ∧
      Quotable alt ∧ Quotable source

/-! ## Images in a page -/

/-- Two texts cut at the first place where a character stands. -/
theorem eq_of_first {c : Char} {x y r r' : List Char} (hx : c ∉ x) (hy : c ∉ y)
    (h : x ++ c :: r = y ++ c :: r') : x = y ∧ r = r' := by
  rcases List.append_eq_append_iff.1 h with ⟨w, rfl, hw⟩ | ⟨w, rfl, hw⟩
  · cases w with
    | nil => simpa using hw
    | cons d w =>
        obtain ⟨rfl, -⟩ := List.cons.inj hw
        exact absurd (List.mem_append_right x List.mem_cons_self) hy
  · cases w with
    | nil => simpa [eq_comm] using hw
    | cons d w =>
        obtain ⟨rfl, -⟩ := List.cons.inj hw
        exact absurd (List.mem_append_right y List.mem_cons_self) hx

/-- A closing bracket ends a tag, which is opened before. -/
theorem mem_open_of_close {u v : List Char} (h : Composed (u ++ '>' :: v)) : '<' ∈ u := by
  obtain ⟨b, ⟨t, ht, rfl⟩, hsuffix⟩ := composed_closes h u v rfl
  have hopen : '<' ∈ u ++ ['>'] :=
    hsuffix.subset ((by decide : ∀ t ∈ elementTags, '<' ∈ t.toList) t ht)
  exact (List.mem_append.1 hopen).resolve_right (by decide)

theorem not_mem_close {cs : List Char} (h : Composed cs) (ho : '<' ∉ cs) : '>' ∉ cs := by
  intro hmem
  obtain ⟨u, v, rfl⟩ := List.append_of_mem hmem
  exact ho (List.mem_append_left _ (mem_open_of_close h))

/-- The first closing bracket after a text without opening brackets ends no tag of an
element. -/
theorem eq_of_composed {a x r r' : List Char} (ha : Composed a) (hxo : '<' ∉ x) (hxc : '>' ∉ x)
    (h : a ++ '>' :: r = x ++ '>' :: r') : a = x ∧ r = r' := by
  by_cases hac : '>' ∈ a
  · obtain ⟨u, v, rfl, hu⟩ := List.eq_append_cons_of_mem hac
    rw [List.append_assoc, List.cons_append] at h
    obtain ⟨rfl, -⟩ := eq_of_first hu hxc h
    exact absurd (mem_open_of_close ha) hxo
  · exact eq_of_first hac hxc h

/-- No tag of an element starts as an image does. -/
theorem not_prefix_image {t : String} (ht : t ∈ elementTags) (w : List Char) :
    ¬ t.toList <+: '<' :: 'i' :: w := by
  intro h
  have hsecond : ∀ t ∈ elementTags, 2 ≤ t.toList.length ∧ t.toList.take 2 ≠ ['<', 'i'] := by decide
  obtain ⟨hlength, hne⟩ := hsecond t ht
  refine hne ?_
  rw [List.prefix_iff_eq_take.1 h, List.take_take, Nat.min_eq_left hlength]
  rfl

/-- A place where a tag of an element starts, or an image whose attributes are closed. -/
def StartsClosed (_ v : List Char) : Prop :=
  (∃ t ∈ elementTags, t.toList <+: '<' :: v) ∨
    ∃ alt source rest, '<' :: v = imageElement (alt, source) ++ rest ∧ Quotable alt ∧
      Quotable source

theorem lasting_startsClosed : Lasting StartsClosed := by
  rintro w w' u v (⟨t, ht, hprefix⟩ | ⟨alt, source, rest, hv, halt, hsource⟩)
  · exact .inl ⟨t, ht, hprefix.trans ⟨w', rfl⟩⟩
  · refine .inr ⟨alt, source, rest ++ w', ?_, halt, hsource⟩
    rw [← List.cons_append, hv, List.append_assoc]

theorem everywhere_imageElement {image : List Char × List Char} (halt : Quotable image.1)
    (hsource : Quotable image.2) : Everywhere '<' StartsClosed (imageElement image) := by
  obtain ⟨alt, source⟩ := image
  have hstart : imageElement (alt, source) = '<' :: ("img alt='".toList ++
      (alt ++ ("' src='".toList ++ (source ++ "'/>".toList)))) := rfl
  rw [hstart]
  refine .of_start ?_ (.inr ⟨alt, source, [], ?_, halt, hsource⟩)
  · simp only [List.mem_append, not_or]
    exact ⟨by decide, halt.2.1, by decide, hsource.2.1, by decide⟩
  · rw [List.append_nil, hstart]

theorem attributesClosed_of_everywhere {out : List Char} (h : Everywhere '<' StartsClosed out) :
    AttributesClosed out := by
  intro u v huv
  rcases h u ("img alt='".toList ++ v) huv with ⟨t, ht, hprefix⟩ | ⟨alt, source, rest, hv, hq⟩
  · exact absurd hprefix (not_prefix_image ht _)
  · have hassoc (a b c d e r v : List Char) (h : a ++ v = (a ++ (b ++ (c ++ (d ++ e)))) ++ r) :
        v = b ++ (c ++ (d ++ (e ++ r))) := by
      simpa only [List.append_assoc, List.append_cancel_left_eq] using h
    exact ⟨alt, source, rest, hassoc "<img alt='".toList _ _ _ _ _ _ hv, hq⟩

theorem AttributesClosed.of_append {u v : List Char} (h : AttributesClosed (u ++ v)) :
    AttributesClosed v := by
  rintro w x rfl
  exact h (u ++ w) x (List.append_assoc u w _).symm

theorem not_mem_attributes {c : Char} (hb : c ∉ "' src='".toList) (he : c ∉ "'/".toList)
    {alt source : List Char} :
    c ∉ alt ++ ("' src='".toList ++ (source ++ "'/".toList)) ↔ c ∉ alt ∧ c ∉ source := by
  simp only [List.mem_append, not_or, hb, he, not_false_eq_true, true_and, and_true]

/-- The values of an image whose attributes are seen to be closed. The bracket that closes
the image is the first one, and all quotes before it are those of the attributes. -/
theorem AttributesClosed.quotable {u alt source v : List Char} (halt : Composed alt)
    (hsource : Composed source)
    (h : AttributesClosed (u ++ (imageElement (alt, source) ++ v))) :
    Quotable alt ∧ Quotable source := by
  have hassoc (a b c d e r : List Char) : (a ++ (b ++ (c ++ (d ++ e)))) ++ r =
      a ++ (b ++ (c ++ (d ++ (e ++ r)))) := by
    simp only [List.append_assoc]
  have hclose (a b c r : List Char) : a ++ (b ++ (c ++ ("'/>".toList ++ r))) =
      (a ++ (b ++ (c ++ "'/".toList))) ++ '>' :: r := by
    have hend : "'/>".toList ++ r = "'/".toList ++ '>' :: r := rfl
    simp only [List.append_assoc, hend]
  obtain ⟨A, S, rest, hv, hA, hS⟩ := h u _ (congrArg (u ++ ·) (hassoc _ _ _ _ _ v))
  rw [hclose, hclose] at hv
  have hcomposed : Composed (alt ++ ("' src='".toList ++ (source ++ "'/".toList))) :=
    halt.append ((Blocks.of_plain (by decide)).append (hsource.append (.of_plain (by decide))))
  have hopen := (not_mem_attributes (c := '<') (by decide) (by decide)).2 ⟨hA.2.1, hS.2.1⟩
  have hclosing := (not_mem_attributes (c := '>') (by decide) (by decide)).2 ⟨hA.2.2, hS.2.2⟩
  obtain ⟨heq, -⟩ := eq_of_composed hcomposed hopen hclosing hv
  rw [← heq, not_mem_attributes (by decide) (by decide)] at hopen hclosing
  have hcount := congrArg (List.count '\x27') heq
  simp only [List.count_append, List.count_eq_zero.2 hA.1, List.count_eq_zero.2 hS.1] at hcount
  have hquotes : alt.count '\x27' = 0 ∧ source.count '\x27' = 0 := by omega
  rw [List.count_eq_zero, List.count_eq_zero] at hquotes
  exact ⟨⟨hquotes.1, hopen.1, hclosing.1⟩, hquotes.2, hopen.2, hclosing.2⟩

/-- The attributes in a text are closed just if the values of all its images can stand in
quotes. -/
theorem Illustrated.quotable_images_iff {images : List (List Char × List Char)} {out : List Char}
    (h : Illustrated images out) :
    AttributesClosed out ↔ ∀ image ∈ images, Quotable image.1 ∧ Quotable image.2 := by
  constructor
  · intro hclosed
    induction h with
    | text => exact fun _ hi => absurd hi List.not_mem_nil
    | image _ halt hsource _ ih =>
        refine List.forall_mem_cons.2 ⟨hclosed.quotable halt hsource, ih ?_⟩
        exact hclosed.of_append.of_append
  · intro hquotable
    refine attributesClosed_of_everywhere (.illustrated lasting_startsClosed
      (fun hu => (composed_opens hu).mono fun _ _ => Or.inl) (fun image hi _ _ => ?_) h)
    exact everywhere_imageElement (hquotable image hi).1 (hquotable image hi).2

/-! ## The texts of images -/

/-- A text of an image that can stand in quotes once it is shown: it has no emphasis in
it, and nothing is brought back into it that has a tag or a quote. -/
structure StaysQuoted (shelf : Shelf) (value : List Char) : Prop where
  plain : '<' ∉ value
  brought : ∀ digits ∈ numbers value, '<' ∉ fetched shelf digits ∧ '\x27' ∉ fetched shelf digits

theorem staysQuoted_iff {shelf : Shelf} {value : List Char} : StaysQuoted shelf value ↔
    '<' ∉ value ∧ ∀ digits ∈ numbers value,
      '<' ∉ fetched shelf digits ∧ '\x27' ∉ fetched shelf digits :=
  ⟨fun h => ⟨h.plain, h.brought⟩, fun h => ⟨h.1, h.2⟩⟩

instance (shelf : Shelf) (value : List Char) : Decidable (StaysQuoted shelf value) :=
  decidable_of_iff _ staysQuoted_iff.symm

/-- A character that stands in no placeholder is shown where it stood, or is brought
back. -/
theorem mem_broughtBack {c : Char} (hc : separates c) (shelf : Shelf) (cs : List Char) :
    c ∈ broughtBack shelf cs ↔ c ∈ cs ∨ ∃ digits ∈ numbers cs, c ∈ fetched shelf digits := by
  rw [broughtBack]
  split
  · next hempty =>
      refine (or_iff_left ?_).symm
      rintro ⟨digits, -, hmem⟩
      rw [List.isEmpty_iff] at hempty
      subst hempty
      rcases fetched_cases [] digits with hnil | hitem
      · exact absurd (hnil ▸ hmem) List.not_mem_nil
      · exact absurd hitem List.not_mem_nil
  · refine pieces_induction (P := fun cs ps => c ∈ replaceMarked (fetched shelf) ps ↔
      c ∈ cs ∨ ∃ digits ∈ marksOf ps, c ∈ fetched shelf digits) movesOn_readPlaceholder ?_ ?_ ?_ cs
    · simp [replaceMarked, marksOf]
    · intro x cs _ ih
      rw [replaceMarked_plain, List.mem_cons, List.mem_cons, ih, or_assoc]
      rfl
    · intro cs digits rest hr ih
      obtain ⟨hcs, hdecimal⟩ := readPlaceholder_eq_some hr
      obtain ⟨hnul, hdigit⟩ : c ≠ '\x00' ∧ isDecimal c = false := by simpa [separates] using hc
      have hdigits : c ∉ digits := fun hmem => by simp [hdecimal c hmem] at hdigit
      have hmarks : marksOf (.marked digits :: pieces readPlaceholder rest) =
          digits :: marksOf (pieces readPlaceholder rest) := rfl
      rw [replaceMarked_marked, List.mem_append, ih, hcs, hmarks]
      simp only [List.mem_cons, List.mem_append, hnul, hdigits, false_or, exists_eq_or_imp]
      exact or_left_comm

theorem not_mem_quoteChars (cs : List Char) : '\x27' ∉ quoteChars cs := by
  rw [quoteChars, List.mem_flatMap]
  rintro ⟨c, -, hmem⟩
  split at hmem
  · exact absurd hmem (by decide)
  · next hc => exact hc (List.mem_singleton.1 hmem).symm

theorem mem_quoteChars {c : Char} (hc : c ∉ "&#x27;".toList) (hquote : c ≠ '\x27')
    {cs : List Char} : c ∈ quoteChars cs ↔ c ∈ cs := by
  rw [quoteChars, List.mem_flatMap]
  constructor
  · rintro ⟨d, hd, hmem⟩
    split at hmem
    · exact absurd hmem hc
    · exact List.mem_singleton.1 hmem ▸ hd
  · intro hmem
    exact ⟨c, hmem, by rw [if_neg hquote]; exact List.mem_singleton_self c⟩

/-- The value that is shown can stand in quotes just if the text stays quoted. -/
theorem quotable_iff {shelf : Shelf} (hshelf : ∀ item ∈ shelf, Composed item) {n : Nat}
    {value : List Char} (hcomposed : Composed value) (hnumbered : Numbered n value) :
    Quotable (broughtBack shelf (quoteChars value)) ↔ StaysQuoted shelf value := by
  have hnumbers := (SameNumbers.quoteChars hnumbered).eq
  have hquote : '\x27' ∈ broughtBack shelf (quoteChars value) ↔
      ∃ digits ∈ numbers value, '\x27' ∈ fetched shelf digits := by
    rw [mem_broughtBack (by decide +kernel), hnumbers, or_iff_right (not_mem_quoteChars value)]
  have hopen : '<' ∈ broughtBack shelf (quoteChars value) ↔
      '<' ∈ value ∨ ∃ digits ∈ numbers value, '<' ∈ fetched shelf digits := by
    rw [mem_broughtBack (by decide +kernel), hnumbers, mem_quoteChars (by decide) (by decide)]
  constructor
  · rintro ⟨hq, ho, -⟩
    rw [hquote] at hq
    rw [hopen, not_or] at ho
    exact ⟨ho.1, fun digits hd => ⟨fun hmem => ho.2 ⟨digits, hd, hmem⟩,
      fun hmem => hq ⟨digits, hd, hmem⟩⟩⟩
  · intro h
    have ho : '<' ∉ broughtBack shelf (quoteChars value) := by
      rw [hopen]
      rintro (hmem | ⟨digits, hd, hmem⟩)
      · exact h.plain hmem
      · exact (h.brought digits hd).1 hmem
    refine ⟨?_, ho, not_mem_close (composed_broughtBack hshelf (composed_quoteChars hcomposed)) ho⟩
    rw [hquote]
    rintro ⟨digits, hd, hmem⟩
    exact (h.brought digits hd).2 hmem

/-- The texts of the images that are found in a text without NUL characters. -/
theorem imagesIn_values {cs : List Char} (h : '\x00' ∉ cs) {image : List Char × List Char}
    (hi : image ∈ imagesIn cs) : (Composed image.1 ∧ Composed image.2) ∧
      Numbered (shelved cs).2.length image.1 ∧ Numbered (shelved cs).2.length image.2 := by
  have hcomposed := firm_proseTokens.pieced_readImage
    (firm_proseTokens.emphasized (composed_shelved cs).1)
  have hnumbered := (firm_placeholder _).pieced_readImage
    ((firm_placeholder _).emphasized (numbered_shelved h))
  exact ⟨hcomposed.of_mem_marksOf image hi, hnumbered.of_mem_marksOf image hi⟩

theorem attributesClosed_chars_iff {cs out : List Char} (hnul : '\x00' ∉ cs)
    (h : proseChars cs = .ok out) : AttributesClosed out ↔ ∀ image ∈ imagesIn cs,
      StaysQuoted (shelved cs).2 image.1 ∧ StaysQuoted (shelved cs).2 image.2 := by
  rw [(illustrated_prose h).quotable_images_iff, List.forall_mem_map]
  refine forall₂_congr fun image hi => ?_
  obtain ⟨⟨halt, hsource⟩, haltn, hsourcen⟩ := imagesIn_values hnul hi
  have hshelf := (composed_shelved cs).2
  exact and_congr (quotable_iff hshelf halt haltn) (quotable_iff hshelf hsource hsourcen)

/-- The attributes of images in the prose of a text without NUL characters are closed by
the renderer only, with no quote or angle bracket before, just if no text of an image in
it has emphasis, code, or a formula with a quote. -/
theorem attributesClosed_iff {s out : String} (hnul : '\x00' ∉ s.toList) (h : prose s = .ok out) :
    AttributesClosed out.toList ↔ ∀ image ∈ imagesIn s.toList,
      StaysQuoted (shelved s.toList).2 image.1 ∧ StaysQuoted (shelved s.toList).2 image.2 := by
  obtain ⟨cs, hcs, hout⟩ := ok_of_bind h
  obtain rfl : String.ofList cs = out := Except.ok.inj hout
  rw [String.toList_ofList]
  exact attributesClosed_chars_iff hnul hcs

/-- An image with a quote and a formula in its text, and with emphasis around it. -/
theorem attributesClosed_iff_formula :
    '\x00' ∉ "*![it's [math]x[/math]](b)*".toList ∧
      prose "*![it's [math]x[/math]](b)*" =
        .ok "<strong><img alt='it&#x27;s \\(x\\)' src='b'/></strong>" ∧
      AttributesClosed "<strong><img alt='it&#x27;s \\(x\\)' src='b'/></strong>".toList := by
  have hnul : '\x00' ∉ "*![it's [math]x[/math]](b)*".toList := by decide
  have hprose : prose "*![it's [math]x[/math]](b)*" =
      .ok "<strong><img alt='it&#x27;s \\(x\\)' src='b'/></strong>" := by
    decide +kernel
  exact ⟨hnul, hprose, (attributesClosed_iff hnul hprose).2 (by decide +kernel)⟩

/-- The quote of a formula ends the attribute. -/
theorem attribute_ended_by_formula :
    '\x00' ∉ "![a [math]f'[/math]](b)".toList ∧
      prose "![a [math]f'[/math]](b)" = .ok "<img alt='a \\(f'\\)' src='b'/>" ∧
      ¬ AttributesClosed "<img alt='a \\(f'\\)' src='b'/>".toList := by
  have hnul : '\x00' ∉ "![a [math]f'[/math]](b)".toList := by decide
  have hprose : proseChars "![a [math]f'[/math]](b)".toList =
      .ok "<img alt='a \\(f'\\)' src='b'/>".toList := by
    decide +kernel
  refine ⟨hnul, by decide +kernel, ?_⟩
  rw [attributesClosed_chars_iff hnul hprose]
  decide +kernel

end DocComment.Html
