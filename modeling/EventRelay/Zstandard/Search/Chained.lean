import EventRelay.Zstandard.Search.Basic

/-!
# Searching many earlier places

The search tries several of the last places of the same bytes and takes the one
that repeats most.  Before a repetition is taken, the next places are looked at
as well; a longer repetition at a nearer distance is worth more.  The longer
nothing is found, the larger are the strides.
-/

namespace EventRelay
namespace Zstandard
namespace Search
namespace Chained

/-- How much a search does. -/
structure Bounds where
  /-- The number of earlier places that are tried. -/
  attempts : Nat
  /-- The number of places ahead that are looked at. -/
  depth : Nat
  /-- Whether the places left out are noted also when the strides are large. -/
  thorough : Bool

/-- The number of bytes at the end of a part at which no search starts. -/
def margin : Nat := 16

/-- The least size of a repetition. -/
def leastSize : Nat := 4

/-- What a repetition is worth: its size times a weight, less the size of its
distance. -/
def worth (weight : Nat) (finding : Finding) : Int :=
  (finding.size * weight : Nat) - (Nat.log2 finding.number : Int)

/-- The longest repetition from one of some places before, of which the first
wins among equals.  A place is tried only if the byte agrees that would make its
repetition the longest. -/
def longest (part : Part) (earlier : List Nat) (place : Nat) : Finding :=
  let content := part.content
  earlier.foldl
    (fun best earlier =>
      let following := place + best.size
      if part.lowest ≤ earlier ∧ earlier < place ∧ following < part.stop ∧
          content.getD (earlier + best.size) 0 = content.getD following 0 then
        let size := part.extent (place - earlier) place
        if best.size < size then
          { best with size := size, distance := some (place - earlier) }
        else best
      else best)
    { start := place, size := 0, distance := none, place := place }

/-- The longest repetition at a place, which is noted after the search. -/
def search (part : Part) (bounds : Bounds) (place : Nat) (memory : Memory) :
    Finding × Memory :=
  let earlier := (memory.placesOf part.content place).take bounds.attempts
  (longest part earlier place, memory.note part.content place)

/-- The repetition of the latest distance at a place. -/
def repeated? (part : Part) (latest place : Nat) : Option Finding :=
  if part.repeats latest place then
    some { start := place, size := part.extent latest place, distance := none, place := place }
  else none

/-- Compare the best repetition so far with those at a place.  The result tells
also whether the search found a better one.  The latest distance counts with a
weight of its own, and a search has to win by a margin. -/
def challenge
    (part : Part)
    (bounds : Bounds)
    (latest weight lead place : Nat)
    (best : Finding)
    (memory : Memory) :
    Finding × Bool × Memory :=
  let best := match repeated? part latest place with
    | some again => if worth weight best + 1 < again.size * weight then again else best
    | none => best
  let (found, memory) := search part bounds place memory
  if leastSize ≤ found.size ∧ worth 4 best + lead < worth 4 found then (found, true, memory)
  else (best, false, memory)

/-- Improve on the best repetition so far by looking at the next places.  A
better one starts the look ahead anew.  The fuel is the number of places. -/
def improve (part : Part) (bounds : Bounds) (latest : Nat) :
    (fuel place : Nat) → Finding → Memory → Finding × Memory
  | 0, _, best, memory => (best, memory)
  | fuel + 1, place, best, memory =>
      if bounds.depth = 0 ∨ part.stop ≤ place + margin then ({ best with place := place }, memory)
      else
        let (best, better, memory) := challenge part bounds latest 3 4 (place + 1) best memory
        if better then improve part bounds latest fuel (place + 1) best memory
        else if bounds.depth = 1 ∨ part.stop ≤ place + 1 + margin then
          ({ best with place := place + 1 }, memory)
        else
          let (best, better, memory) := challenge part bounds latest 4 7 (place + 2) best memory
          if better then improve part bounds latest fuel (place + 2) best memory
          else ({ best with place := place + 2 }, memory)

/-- A repetition with the bytes in front of it that are repeated too.  It
starts after the bytes that are covered already. -/
def widen (part : Part) (covered : Nat) (finding : Finding) : Finding :=
  match finding.distance with
  | none => finding
  | some distance =>
      let earlier := finding.start - distance
      let behind := countBehind part.content
        (min (finding.start - covered) (earlier - part.lowest)) earlier finding.start 0
      { finding with start := finding.start - behind, size := finding.size + behind }

/-- Look for a repetition from a place on. -/
def find
    (part : Part)
    (bounds : Bounds)
    (latest covered place : Nat)
    (memory : Memory) :
    Option Finding × Memory :=
  if place + margin < part.stop then
    match repeated? part latest (place + 1), bounds.depth with
    | some again, 0 => (some { again with place := place - 1 }, memory)
    | again?, _ =>
        let (found, memory) := search part bounds place memory
        let best := match again? with
          | some again => if again.size < found.size then found else again
          | none => found
        if best.size < leastSize then
          let skipped := (place - covered) / 256
          let noted := if bounds.thorough || skipped < 8 then skipped else 0
          find part bounds latest covered (place + skipped + 1)
            (memory.noteFrom part.content noted (place + 1))
        else
          let (best, memory) := improve part bounds latest part.stop place best memory
          (some (widen part covered best), memory)
  else (none, memory)
  termination_by part.stop - place

/-- Note the places from one to another.  Of many, those in the middle are left
out. -/
def noteBetween (part : Part) (start stop : Nat) (memory : Memory) : Memory :=
  let count := stop - start
  if count ≤ 384 then memory.noteFrom part.content count start
  else (memory.noteFrom part.content 96 start).noteFrom part.content 32 (stop - 32)

end Chained
end Search
end Zstandard
end EventRelay
