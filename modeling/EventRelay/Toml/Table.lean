import EventRelay.Toml.Value

/-!
# Building tables

Entries are added to tables along paths of keys.  What a path may pass through
depends on how each table on the way came to be: a dotted key may not add to a
table that has a header, and nothing may add to a table between braces or to a
closed list.  A path through an open list goes on in its last table.
-/

namespace EventRelay
namespace Toml

/-- What a path is made by. -/
inductive PathKind where
  /-- A header. -/
  | header
  /-- A dotted key. -/
  | dotted
deriving DecidableEq, Repr

/-- How a table comes to be when a path passes where there is none. -/
def PathKind.form : PathKind → TableForm
  | .header => .implied
  | .dotted => .dotted

/-- Whether a path may pass through a table. -/
def PathKind.admits : PathKind → TableForm → Bool
  | _, .sealed => false
  | .dotted, .header => false
  | _, _ => true

namespace Table

/-- Change the table that a value is or, if it is an open list, its last table. -/
def changeValue (kind : PathKind) (change : Table → Option Table) : Value → Option Value
  | .table form entries =>
      if kind.admits form then (change ⟨form, entries⟩).map toValue else none
  | .array true items =>
      match items.getLast? with
      | some (.table form entries) =>
          (change ⟨form, entries⟩).map fun table =>
            .array true (items.dropLast ++ [table.toValue])
      | _ => none
  | _ => none

/-- Change the table at the end of a path.  Tables missing on the way are made. -/
def changeAt (kind : PathKind) (change : Table → Option Table) :
    (path : List String) → Table → Option Table
  | [], table => change table
  | key :: path, table =>
      match table.get? key with
      | none =>
          (changeAt kind change path (.empty kind.form)).map fun child =>
            table.push key child.toValue
      | some value =>
          (changeValue kind (changeAt kind change path) value).map (table.replace key)

/-- Add an entry, unless its key is there or the path has left the tables of
dotted keys. -/
def addEntry (path : Path) (value : Value) (table : Table) : Option Table :=
  if (table.form == .dotted) = path.parents.isEmpty then none
  else if (table.get? path.last).isSome then none
  else some (table.push path.last value)

/-- Give a value to a key, which may be dotted. -/
def assign (table : Table) (path : Path) (value : Value) : Option Table :=
  table.changeAt .dotted (addEntry path value) path.parents

/-- The table between braces that has the given entries. -/
def ofAssignments (assignments : List (Path × Value)) : Option Table :=
  assignments.foldlM (fun table assignment => table.assign assignment.1 assignment.2)
    (.empty .sealed)

/-! ## Headers -/

/-- Start the table of a header.  It goes to the end of its parent; only a
table that is implied by others may be there already, and is taken over. -/
def openTable (key : String) (parent : Table) : Option Table :=
  match parent.get? key with
  | none => some (parent.push key (.table .header []))
  | some (.table .implied entries) =>
      some ((parent.erase key).push key (.table .header entries))
  | some _ => none

/-- Start a further table at the end of an open list. -/
def openItem (key : String) (parent : Table) : Option Table :=
  match parent.get? key with
  | none => some (parent.push key (.array true [.table .header []]))
  | some (.array true items) =>
      some (parent.replace key (.array true (items ++ [.table .header []])))
  | some _ => none

end Table
end Toml
end EventRelay
