import DocComment.Fault

/-!
# Document names from paths

A source is named for its file without the extension, in the module named for the
directory that holds it. Empty steps and steps to the same directory do not count.
-/

namespace DocComment.Source

/-- The names that a path goes through. -/
def steps (path : String) : List String :=
  ((path.splitOn "/").filter fun s => s != "" && s != ".")

/-- A file name cut before its last dot. There is nothing to cut if the dot comes first or
last. -/
def cutExtension (name : String) : Option (String × String) :=
  let back := name.toList.reverse
  let extension := back.takeWhile (· != '.')
  let stem := (back.dropWhile (· != '.')).drop 1
  if extension.isEmpty || stem.isEmpty || !back.contains '.' then none
  else some (String.ofList stem.reverse, String.ofList ('.' :: extension.reverse))

/-- What a document is called: its name, its module and both with a dot between. -/
structure Names where
  name : String
  parent : Option String
  fullname : String
  deriving DecidableEq, Repr

/-- The names of the document that a path leads to. -/
def names (path : String) : Except Fault Names :=
  match (steps path).reverse with
  | [] => .error (.namelessPath path)
  | last :: before =>
    match cutExtension last with
    | none => .error (.namelessPath path)
    | some (name, _) =>
      let parent := before.head?
      .ok { name, parent, fullname := match parent with
        | some p => p ++ "." ++ name
        | none => name }

end DocComment.Source
