/-!
# JSON values

Values whose numbers are whole and whose objects keep the order of their members, and the
form in which the members of every object are in the order of their names.
-/

namespace DocComment

inductive Json where
  | null
  | bool (b : Bool)
  | int (n : Int)
  | str (s : String)
  | arr (items : List Json)
  | obj (members : List (String × Json))

namespace Json

/-- An optional text. -/
def ofString? : Option String → Json
  | some s => str s
  | none => null

/-- An optional value. -/
def ofOption {α : Type} (f : α → Json) : Option α → Json
  | some a => f a
  | none => null

/-- A list of texts. -/
def ofStrings (ss : List String) : Json :=
  arr (ss.map str)

/-- The value of a member of an object. -/
def find? (j : Json) (name : String) : Option Json :=
  match j with
  | obj members => members.lookup name
  | _ => none

/-- Puts a member before the first one with a greater name. -/
def insertMember (m : String × Json) : List (String × Json) → List (String × Json)
  | [] => [m]
  | n :: ns => if n.1 < m.1 then n :: insertMember m ns else m :: n :: ns

mutual

/-- The value with the members of all its objects in the order of their names. -/
def sorted : Json → Json
  | arr items => arr (sortedItems items)
  | obj members => obj (sortedMembers members)
  | j => j

/-- The items of an array, each sorted. -/
def sortedItems : List Json → List Json
  | [] => []
  | j :: js => j.sorted :: sortedItems js

/-- The members of an object, in order and each sorted. -/
def sortedMembers : List (String × Json) → List (String × Json)
  | [] => []
  | (k, j) :: ms => insertMember (k, j.sorted) (sortedMembers ms)

end

end Json

end DocComment
