/-!
# Sets of characters given by ranges

A character property of a standard is a table of inclusive code point ranges. `inRanges`
reads such a table; the modules beside this one hold the tables, each named for its
property.
-/

namespace DocComment.Text

/-- Whether a code point lies in one of the inclusive ranges. -/
def inRanges (ranges : List (Nat × Nat)) (n : Nat) : Bool :=
  ranges.any fun r => r.1 ≤ n && n ≤ r.2

end DocComment.Text
