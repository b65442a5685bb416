import DocComment.Document.Group
import DocComment.Text.Quoted

/-!
# Parameter tables

The groups of the parameters of a table in the order of their declaration. A key may be
declared more than once: every declaration keeps its place, and the key finds the last of
them.
-/

namespace DocComment

/-- The declarations of a table: under which key, and in which group. -/
structure ParamTable where
  entries : List (String × GroupId) := []
  deriving DecidableEq, Repr

namespace ParamTable

/-- Adds a declaration at the end. -/
def insert (t : ParamTable) (key : String) (group : GroupId) : ParamTable :=
  ⟨t.entries ++ [(key, group)]⟩

/-- The groups in the order of declaration. -/
def groups (t : ParamTable) : List GroupId :=
  t.entries.map (·.2)

/-- The parameters that the groups document, in the order of declaration. -/
def keys (t : ParamTable) (store : GroupStore) : List String :=
  t.groups.map fun i => (store.get i).param.getD ""

/-- The last declaration of a key. -/
def find? (t : ParamTable) (key : String) : Option GroupId :=
  (t.entries.reverse.find? (·.1 = key)).map (·.2)

def contains (t : ParamTable) (key : String) : Bool :=
  (t.find? key).isSome

/-- The declaration at a place, counted from the end if the place is negative. -/
def at? (t : ParamTable) (place : Int) : Option GroupId :=
  let fromStart := if place < 0 then place + t.entries.length else place
  if fromStart < 0 then none else t.groups[fromStart.toNat]?

def size (t : ParamTable) : Nat :=
  t.entries.length

/-- The table as messages show it: its keys in quotes. -/
def shown (t : ParamTable) (store : GroupStore) : String :=
  "ParamTable([" ++ ", ".intercalate ((t.keys store).map Text.quoted) ++ "])"

theorem groups_insert (t : ParamTable) (key : String) (group : GroupId) :
    (t.insert key group).groups = t.groups ++ [group] := by
  simp [insert, groups]

theorem find?_insert_self (t : ParamTable) (key : String) (group : GroupId) :
    (t.insert key group).find? key = some group := by
  simp [insert, find?]

theorem find?_insert_of_ne (t : ParamTable) {key other : String} (h : key ≠ other)
    (group : GroupId) : (t.insert key group).find? other = t.find? other := by
  simp [insert, find?, h]

end ParamTable

end DocComment
