import EventRelay.Binary64.Basic

/-!
# Values of a TOML document

A document is a table, and a table keeps its entries in the order in which they
appear.  Every table remembers how it came to be, because that decides what may
still be added to it.
-/

namespace EventRelay
namespace Toml

/-- How a table comes to be. -/
inductive TableForm where
  /-- By a header of its own. -/
  | header
  /-- By the header of a table inside it. -/
  | implied
  /-- By a dotted key. -/
  | dotted
  /-- Between braces, which leaves nothing to be added. -/
  | sealed
deriving BEq, ReflBEq, LawfulBEq, Repr

/-- A value. -/
inductive Value where
  /-- A text. -/
  | text (value : String)
  /-- A whole number. -/
  | integer (value : Int)
  /-- A binary number. -/
  | floating (value : Binary64)
  /-- A truth value. -/
  | boolean (value : Bool)
  /-- A date, a time, or both. -/
  | moment
  /-- A list of values.  An open one is made by headers and may grow. -/
  | array (isOpen : Bool) (items : List Value)
  /-- A table. -/
  | table (form : TableForm) (entries : List (String × Value))
deriving Repr

/-- A key of one or more parts. -/
structure Path where
  /-- The parts before the last one. -/
  parents : List String
  /-- The last part. -/
  last : String
deriving DecidableEq, Repr

/-- A table by itself. -/
structure Table where
  /-- How it comes to be. -/
  form : TableForm
  /-- Its entries, in the order in which they appear. -/
  entries : List (String × Value)
deriving Repr

namespace Table

/-- A table without entries. -/
def empty (form : TableForm) : Table where
  form := form
  entries := []

/-- The table as a value. -/
def toValue (table : Table) : Value :=
  .table table.form table.entries

/-- The value of a key. -/
def get? (table : Table) (key : String) : Option Value :=
  table.entries.lookup key

/-- Give a key a new value in its place. -/
def replace (table : Table) (key : String) (value : Value) : Table :=
  { table with
    entries := table.entries.map fun entry => if entry.1 = key then (key, value) else entry }

/-- Add an entry at the end. -/
def push (table : Table) (key : String) (value : Value) : Table :=
  { table with entries := table.entries ++ [(key, value)] }

/-- Take an entry out. -/
def erase (table : Table) (key : String) : Table :=
  { table with entries := table.entries.filter fun entry => entry.1 ≠ key }

end Table
end Toml
end EventRelay
