import EventRelay.Bytes

/-!
# Levels of compression

A level is a number that tells how much work a writer puts into a frame.  It
settles how far back repetitions may lie, how they are searched for, and how
carefully codes are chosen.  Zero stands for the third level.  Below zero the
search leaves out more and more places.
-/

namespace EventRelay
namespace Zstandard

/-- How repetitions are searched for. -/
inductive Search where
  /-- With one table of the last place of as many bytes.  The table has a power
  of two of keys; as many places as the stride says are taken at a time. -/
  | single (logarithm width stride : Nat)
  /-- With one table for eight bytes and one for five. -/
  | double (long short : Nat)
  /-- With the last places of as many bytes, of which a number is tried.  The
  depth tells how many places ahead may hold a better repetition.  A thorough
  search notes also the places that it leaves out. -/
  | chained (depth attempts width : Nat) (thorough : Bool)
deriving DecidableEq, Repr

/-- What a level asks of a writer. -/
structure Level where
  /-- The binary logarithm of the size of the window. -/
  window : Nat
  /-- How much care is taken, from one to nine. -/
  effort : Nat
  /-- How repetitions are searched for. -/
  search : Search
  /-- Whether literals are coded. -/
  codesLiterals : Bool
deriving DecidableEq, Repr

namespace Level

/-- The lowest level. -/
def lowest : Int := -131072

/-- The level whose number is that far below zero. -/
def belowZero (distance : Nat) : Level where
  window := 19
  effort := 1
  search := .single 13 6 (distance + 1)
  codesLiterals := false

/-- The levels above zero, in order. -/
def aboveZero : Array Level := #[
  ⟨19, 1, .single 14 7 2, true⟩,
  ⟨20, 1, .single 16 6 2, true⟩,
  ⟨21, 2, .double 17 16, true⟩,
  ⟨21, 2, .double 18 18, true⟩,
  ⟨21, 3, .chained 0 8 5 false, true⟩,
  ⟨21, 4, .chained 1 8 5 false, true⟩,
  ⟨21, 4, .chained 1 16 5 false, true⟩,
  ⟨21, 5, .chained 2 16 5 false, true⟩,
  ⟨22, 5, .chained 2 16 5 false, true⟩,
  ⟨22, 5, .chained 2 32 5 false, true⟩,
  ⟨22, 5, .chained 2 64 5 false, true⟩,
  ⟨22, 5, .chained 2 64 5 false, true⟩,
  ⟨22, 6, .chained 2 16 5 true, true⟩,
  ⟨22, 6, .chained 2 32 5 true, true⟩,
  ⟨22, 6, .chained 2 64 5 true, true⟩,
  ⟨22, 7, .chained 2 32 5 true, true⟩,
  ⟨23, 7, .chained 2 32 4 true, true⟩,
  ⟨23, 8, .chained 2 64 4 true, true⟩,
  ⟨23, 9, .chained 2 128 4 true, true⟩,
  ⟨25, 9, .chained 2 128 4 true, true⟩,
  ⟨26, 9, .chained 2 128 4 true, true⟩,
  ⟨27, 9, .chained 2 512 4 true, true⟩]

/-- The level that is taken for zero. -/
def standard : Level := ⟨21, 2, .double 17 16, true⟩

/-- The level of a number.  Numbers beyond the lowest and the highest level
stand for these. -/
def ofInt (number : Int) : Level :=
  if number < 0 then belowZero (max number lowest).natAbs
  else if number = 0 then standard
  else aboveZero.getD (min number.toNat aboveZero.size - 1) standard

end Level
end Zstandard
end EventRelay
