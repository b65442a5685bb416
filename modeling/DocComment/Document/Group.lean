import DocComment.Document.Entry

/-!
# Groups and the store that holds them

A group is the documentation of one item. Sections, parameter tables and spans refer to
groups, and a group keeps growing after the first of them does so; therefore groups live
in a store, which hands out a name for each, and everything else holds names. The lemmas
say what each operation of the store does to what the store shows.
-/

namespace DocComment

/-- How a documented function is called. -/
inductive Binding where
  | method
  | classFunction
  | globalFunction
  deriving DecidableEq, Repr

def Binding.name : Binding → String
  | .method => "method"
  | .classFunction => "class_function"
  | .globalFunction => "global_function"

/-- How a parameter was declared. -/
inductive ParamKind where
  /-- By an assignment to the library. -/
  | plain
  /-- As a key of a table. -/
  | table
  /-- As a member of a list. -/
  | list
  deriving DecidableEq, Repr

def ParamKind.name : ParamKind → String
  | .plain => "param"
  | .table => "tparam"
  | .list => "lparam"

/-- The documentation of one function, constant or parameter, or a block of text of its
own. -/
structure Group where
  entries : List Entry := []
  function : Option String := none
  binding : Option Binding := none
  constant : Option String := none
  param : Option String := none
  paramKind : Option ParamKind := none
  params : Option String := none
  deriving DecidableEq, Repr

/-- The name of the documented item: its function, else its constant, else its
parameter. -/
def Group.anchor (g : Group) : Option String :=
  filled g.function <|> filled g.constant <|> g.param

/-- All groups of a document, by name. -/
structure GroupStore where
  groups : Array Group := #[]

namespace GroupStore

/-- The group of a name; a name that was never handed out shows an empty group. -/
def get (s : GroupStore) (i : GroupId) : Group :=
  s.groups[i.index]?.getD {}

/-- Whether a name was handed out by the store. -/
def Holds (s : GroupStore) (i : GroupId) : Prop :=
  i.index < s.groups.size

/-- The name that the store hands out next. -/
def nextId (s : GroupStore) : GroupId :=
  ⟨s.groups.size⟩

/-- Takes in a group under the next name. -/
def insert (s : GroupStore) (g : Group) : GroupStore :=
  ⟨s.groups.push g⟩

/-- Changes the group of one name. -/
def update (s : GroupStore) (i : GroupId) (f : Group → Group) : GroupStore :=
  ⟨s.groups.modify i.index f⟩

theorem get_insert_nextId (s : GroupStore) (g : Group) : (s.insert g).get s.nextId = g := by
  simp [get, insert, nextId]

theorem get_insert_of_holds {s : GroupStore} {i : GroupId} (h : s.Holds i) (g : Group) :
    (s.insert g).get i = s.get i := by
  simp only [Holds] at h
  simp [get, insert, Array.getElem?_push, Nat.ne_of_lt h]

theorem get_update_self {s : GroupStore} {i : GroupId} (h : s.Holds i) (f : Group → Group) :
    (s.update i f).get i = f (s.get i) := by
  simp only [Holds] at h
  simp [get, update, h, Array.getElem_modify]

theorem get_update_of_ne {s : GroupStore} {i j : GroupId} (h : j ≠ i) (f : Group → Group) :
    (s.update i f).get j = s.get j := by
  have h' : i.index ≠ j.index := fun e => h (by cases i; cases j; simp_all)
  simp [get, update, Array.getElem?_modify, h']

@[simp] theorem holds_insert {s : GroupStore} {i : GroupId} {g : Group} :
    (s.insert g).Holds i ↔ s.Holds i ∨ i = s.nextId := by
  cases i
  simp only [Holds, insert, nextId, Array.size_push, GroupId.mk.injEq]
  omega

@[simp] theorem holds_update {s : GroupStore} {i j : GroupId} {f : Group → Group} :
    (s.update i f).Holds j ↔ s.Holds j := by
  simp [Holds, update]

@[simp] theorem nextId_update {s : GroupStore} {i : GroupId} {f : Group → Group} :
    (s.update i f).nextId = s.nextId := by
  simp [nextId, update]

theorem not_holds_nextId (s : GroupStore) : ¬ s.Holds s.nextId := by
  simp [Holds, nextId]

end GroupStore

end DocComment
