import DocComment.Draft.Basic

/-!
# Transitions

Where the reading goes on after a rule acted: in the same state, in a given one, or in one
that depends on what the comment was part of. In a new state the same line may be
evaluated again.
-/

namespace DocComment

/-- Transitions whose target depends on the draft. -/
inductive Resolver where
  | afterBlockComment
  | afterLineComment
  | afterBlankLine
  deriving DecidableEq, Repr

inductive Transition where
  | stay
  /-- Go on in a state; the flag says whether the same line is evaluated again there. -/
  | goTo (state : String) (again : Bool)
  | resolve (resolver : Resolver)
  deriving DecidableEq, Repr

namespace Resolver

def name : Resolver → String
  | afterBlockComment => "after_block_comment"
  | afterLineComment => "after_line_comment"
  | afterBlankLine => "after_blank_line"

def all : List Resolver :=
  [afterBlockComment, afterLineComment, afterBlankLine]

def ofName? (s : String) : Option Resolver :=
  all.find? (·.name = s)

/-- The state to go to, and whether the line is evaluated again there. A comment inside a
table leads back to the table. -/
def target (r : Resolver) (d : Draft) : String × Bool :=
  match r, filled d.back with
  | afterBlockComment, some back => (back, false)
  | afterBlockComment, none => ("end_comment", false)
  | afterLineComment, some back => (back, true)
  | afterLineComment, none => ("end_comment", true)
  | afterBlankLine, some back => (back, true)
  | afterBlankLine, none => ("lua", false)

end Resolver

end DocComment
