import EventRelay.Bytes
import EventRelay.Disk.Fault

/-!
# Files of one directory

A directory maps names to numbered files, and each numbered file has its bytes.
Names and files are kept apart because an open file outlives its name: removing
a name leaves the bytes to whoever holds the number, and a new file of the same
name has another number.
-/

namespace EventRelay

/-- What stands in the place of the directory. -/
inductive Place where
  /-- Nothing. -/
  | vacant
  /-- The directory. -/
  | directory
  /-- A file. -/
  | file
deriving DecidableEq, Repr

/-- A directory with its files, and the files that are open without a name. -/
structure Disk where
  /-- What stands in the directory's place. -/
  place : Place
  /-- The names in the directory, each with the number of its file. -/
  names : List (String × Nat)
  /-- The bytes of the numbered files. -/
  contents : Array Bytes
deriving Repr

namespace Disk

/-- Nothing stands in the directory's place. -/
def vacant : Disk where
  place := .vacant
  names := []
  contents := #[]

/-- The number of the file of a name. -/
def number? (disk : Disk) (name : String) : Option Nat :=
  (disk.names.find? fun named => named.1 == name).map Prod.snd

/-- The bytes of a numbered file. -/
def content (disk : Disk) (number : Nat) : Bytes :=
  disk.contents.getD number []

/-- The size of a numbered file. -/
def size (disk : Disk) (number : Nat) : Nat :=
  (disk.content number).length

/-- The bytes of the file of a name. -/
def read (disk : Disk) (name : String) : Except DiskFault Bytes :=
  match disk.number? name with
  | some number => .ok (disk.content number)
  | none => .error .notFound

/-- Make the directory, unless it is there. -/
def makeDirectory (disk : Disk) : Except DiskFault Disk :=
  match disk.place with
  | .vacant => .ok { disk with place := .directory }
  | .directory => .ok disk
  | .file => .error .alreadyExists

/-- Change the bytes of a numbered file. -/
def change (disk : Disk) (number : Nat) (change : Bytes → Bytes) : Disk :=
  { disk with contents := disk.contents.modify number change }

/-- Add bytes at the end of a numbered file. -/
def append (disk : Disk) (number : Nat) (bytes : Bytes) : Disk :=
  if bytes.isEmpty then disk else disk.change number (· ++ bytes)

/-- Give a numbered file a size: cut it, or fill it up with zeros. -/
def resize (disk : Disk) (number size : Nat) : Disk :=
  disk.change number fun bytes =>
    bytes.take size ++ List.replicate (size - bytes.length) 0

/-- The number of the file of a name, which is made empty if it is not there. -/
def openOrCreate (disk : Disk) (name : String) : Disk × Nat :=
  match disk.number? name with
  | some number => (disk, number)
  | none =>
      let number := disk.contents.size
      ({ disk with
          names := disk.names ++ [(name, number)]
          contents := disk.contents.push [] }, number)

/-- Store bytes under a name.  A file of that name keeps its number. -/
def write (disk : Disk) (name : String) (bytes : Bytes) : Disk :=
  let (disk, number) := disk.openOrCreate name
  disk.change number fun _ => bytes

/-- Take a name out of the directory. -/
def remove (disk : Disk) (name : String) : Disk :=
  { disk with names := disk.names.filter fun named => named.1 != name }

/-- The names in the directory. -/
def listing (disk : Disk) : List String :=
  disk.names.map Prod.fst

/-- The names in the directory with the sizes of their files. -/
def sizes (disk : Disk) : List (String × Nat) :=
  disk.names.map fun named => (named.1, disk.size named.2)

end Disk
end EventRelay
