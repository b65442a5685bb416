import DocComment.Proofs.ProseGrammar

/-!
# The tags of prose

Prose is escaped before it is marked up, so an opening bracket in what comes out is one
that the markup has put there. `Tagged` says so of a text: it is made of given tags, each
in one piece, and of characters that open none. Of the tokens that prose is made of, the
entities open no tag and the others are tags themselves; and an image is one tag, of which
only the start is told here (`Illustrated.tagged`).
-/

namespace DocComment.Html

open Text

/-- Texts of the given tags and of characters that open no tag. -/
inductive Tagged (tags : List String) : List Char → Prop where
  | nil : Tagged tags []
  | char {c : Char} {cs : List Char} (hc : c ≠ '<') (h : Tagged tags cs) : Tagged tags (c :: cs)
  | tag {t : String} {cs : List Char} (ht : t ∈ tags) (h : Tagged tags cs) :
      Tagged tags (t.toList ++ cs)

namespace Tagged

variable {tags : List String}

theorem append {u v : List Char} (hu : Tagged tags u) (hv : Tagged tags v) :
    Tagged tags (u ++ v) := by
  induction hu with
  | nil => exact hv
  | char hc _ ih => exact .char hc ih
  | tag ht _ ih =>
      rw [List.append_assoc]
      exact .tag ht ih

theorem mono {tags' : List String} (hsub : ∀ t ∈ tags, t ∈ tags') {cs : List Char}
    (h : Tagged tags cs) : Tagged tags' cs := by
  induction h with
  | nil => exact .nil
  | char hc _ ih => exact .char hc ih
  | tag ht _ ih => exact .tag (hsub _ ht) ih

theorem of_not_mem {cs : List Char} (h : '<' ∉ cs) : Tagged tags cs := by
  induction cs with
  | nil => exact .nil
  | cons c cs ih =>
      rw [List.mem_cons, not_or] at h
      exact .char (Ne.symm h.1) (ih h.2)

theorem single {t : String} (ht : t ∈ tags) : Tagged tags t.toList := by
  rw [← List.append_nil t.toList]
  exact .tag ht .nil

end Tagged

theorem not_mem_escapeChars (cs : List Char) : '<' ∉ escapeChars cs := by
  intro h
  obtain ⟨c, -, hc⟩ := List.mem_flatMap.1 h
  unfold escapeContent at hc
  split at hc
  · exact absurd hc (by decide)
  · split at hc
    · exact absurd hc (by decide)
    · next hlt =>
        split at hc
        · exact absurd hc (by decide)
        · exact hlt (List.mem_singleton.1 hc).symm

/-- The tags of prose. An image is one tag, of which this is the start. -/
def proseTags : List String :=
  emphasisTags ++ ["<img alt='", "<code>", "</code>"]

theorem tagged_composed {cs : List Char} (h : Composed cs) : Tagged proseTags cs := by
  have htoken : ∀ t ∈ proseTokens, t ∈ proseTags ∨ '<' ∉ t.toList := by decide
  induction h with
  | nil => exact .nil
  | char hc _ ih => exact .char hc.1 ih
  | block hb _ ih =>
      obtain ⟨t, ht, rfl⟩ := hb
      rcases htoken t ht with htag | hplain
      · exact .tag htag ih
      · exact (Tagged.of_not_mem hplain).append ih

theorem Illustrated.tagged {images : List (List Char × List Char)} {cs : List Char}
    (h : Illustrated images cs) : Tagged proseTags cs := by
  induction h with
  | text hu => exact tagged_composed hu
  | image hu halt hsource _ ih =>
      refine (tagged_composed hu).append (Tagged.append ?_ ih)
      refine (Tagged.single (t := "<img alt='") (by decide)).append ?_
      refine (tagged_composed halt).append ((Tagged.of_not_mem (by decide)).append ?_)
      exact (tagged_composed hsource).append (.of_not_mem (by decide))

/-- Prose is made of the tags of prose and of characters that open none. -/
theorem tagged_prose {cs out : List Char} (h : proseChars cs = .ok out) : Tagged proseTags out :=
  (illustrated_prose h).tagged

end DocComment.Html
