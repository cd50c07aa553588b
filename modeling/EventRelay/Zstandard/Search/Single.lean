import EventRelay.Zstandard.Search.Basic

/-!
# Searching with one table

The search looks at two neighbouring places at a time and at the latest
distance a stride ahead.  The longer nothing is found, the larger are the
strides.
-/

namespace EventRelay
namespace Zstandard
namespace Search
namespace Single

/-- The repetition of the latest distance at a place, with the byte before it
if that is repeated too. -/
def repeated (part : Part) (latest found place : Nat) : Finding :=
  let behind := countBehind part.content 1 (place - latest) place 0
  { start := place - behind
    size := behind + part.extent latest place
    distance := none
    place := found }

/-- Look for a repetition from a place on.  The next two places to look at
start at `ahead`, one place after those left out, and one more is left out
from the place `turn` on. -/
def find
    (part : Part)
    (latest covered : Nat)
    (place ahead skipped turn : Nat)
    (memory : Memory) :
    Option Finding × Memory :=
  if ahead + 9 < part.stop then
    let content := part.content
    let here := part.latest? memory 4 place
    let memory := memory.note content place
    if part.repeats latest ahead then
      (some (repeated part latest place ahead), memory.note content (place + 1))
    else
      match here with
      | some earlier =>
          (some (part.around covered earlier place), memory.note content (place + 1))
      | none =>
          let next := part.latest? memory 4 (place + 1)
          let memory := memory.note content (place + 1)
          match next with
          | some earlier =>
              (some (part.around covered earlier (place + 1)),
                if skipped < 4 then memory.note content ahead else memory)
          | none =>
              let following := ahead + skipped + 1
              if turn ≤ following then
                find part latest covered ahead following (skipped + 1) (turn + 128) memory
              else find part latest covered ahead following skipped turn memory
  else (none, memory)
  termination_by part.stop - ahead

/-- Note bytes near the ends of a repetition. -/
def noteEnds (part : Part) (found stop : Nat) (memory : Memory) : Memory :=
  (memory.note part.content (found + 2)).note part.content (stop - 2)

end Single
end Search
end Zstandard
end EventRelay
