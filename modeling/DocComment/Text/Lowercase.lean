import DocComment.Text.CaseTable
import DocComment.Text.Ranges

/-!
# Lower case

A capital letter becomes the small letter of its script. Two letters need more than a
table: the capital I with a dot becomes an i and a combining dot, and a capital sigma at
the end of a word becomes the final form of the small one.
-/

namespace DocComment.Text

/-- The small letter of a character, where that is one character and depends on nothing
else. -/
def lowerChar (c : Char) : Char :=
  if c.toNat < 128 then c.toLower
  else
    match caseRuns.find? fun r =>
        r.first ≤ c.toNat && c.toNat ≤ r.last && (c.toNat - r.first) % r.step = 0 with
    | some r => Char.ofNat (c.toNat + r.offset).toNat
    | none => c

/-- Whether the first character that is not skipped is a letter with case. -/
def meetsCased : List Char → Bool
  | [] => false
  | c :: cs =>
    if inRanges ignorableRanges c.toNat then meetsCased cs else inRanges casedRanges c.toNat

/-- Lower case of the rest of a text; `before` holds what was passed, nearest first. -/
def lowerAfter (before : List Char) : List Char → List Char
  | [] => []
  | c :: cs =>
    let small :=
      if c = 'Σ' then [if meetsCased before && !meetsCased cs then 'ς' else 'σ']
      else if c = 'İ' then ['i', '\u0307']
      else [lowerChar c]
    small ++ lowerAfter (c :: before) cs

/-- A text in lower case. -/
def lowercase (s : String) : String :=
  String.ofList (lowerAfter [] s.toList)

end DocComment.Text
