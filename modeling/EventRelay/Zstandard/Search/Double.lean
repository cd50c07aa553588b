import EventRelay.Zstandard.Search.Basic

/-!
# Searching with two tables

One table tells where eight bytes with a given key occurred last, and the other
where five bytes did.  Eight bytes are preferred, and at the next place they are
preferred if more bytes are repeated there.  The longer nothing is found, the
larger are the strides.
-/

namespace EventRelay
namespace Zstandard
namespace Search
namespace Double

/-- The repetition that starts after the latest distance has been tried at the
place after a given one. -/
def repeated (part : Part) (latest place : Nat) : Finding where
  start := place + 1
  size := part.extent latest (place + 1)
  distance := none
  place := place

/-- The repetition from an earlier place, or the one at the following place from
a later one if that is longer. -/
def longer
    (part : Part)
    (covered place earlier following : Nat)
    (later : Option Nat) :
    Finding :=
  match later.filter fun later =>
      part.extent (place - earlier) place < part.extent (following - later) following with
  | some later => { part.around covered later following with place := place }
  | none => part.around covered earlier place

/-- Look for a repetition from a place on.  `skipped` places are left out
between two that are looked at, and one more from the place `turn` on. -/
def find
    (part : Part)
    (latest covered : Nat)
    (place skipped turn : Nat)
    (tables : Tables) :
    Option Finding × Tables :=
  let following := place + skipped + 1
  if following + 8 ≤ part.stop then
    let content := part.content
    let far := part.latest? tables.long 8 place
    let near := part.latest? tables.short 4 place
    let tables : Tables := {
      long := tables.long.note content place
      short := tables.short.note content place }
    let noteNext (tables : Tables) : Tables :=
      if skipped < 3 then { tables with long := tables.long.note content following }
      else tables
    if part.repeats latest (place + 1) then (some (repeated part latest place), tables)
    else
      match far, near with
      | some earlier, _ => (some (part.around covered earlier place), noteNext tables)
      | none, some earlier =>
          let later := part.latest? tables.long 8 following
          (some (longer part covered place earlier following later), noteNext tables)
      | none, none =>
          if turn ≤ following then
            find part latest covered following (skipped + 1) (turn + 256) tables
          else find part latest covered following skipped turn tables
  else (none, tables)
  termination_by part.stop - place

/-- Note bytes near the ends of a repetition. -/
def noteEnds (part : Part) (found stop : Nat) (tables : Tables) : Tables where
  long := (tables.long.note part.content (found + 2)).note part.content (stop - 2)
  short := (tables.short.note part.content (found + 2)).note part.content (stop - 1)

end Double
end Search
end Zstandard
end EventRelay
