import EventRelay.Zstandard.CodeLengths
import EventRelay.Zstandard.Level
import EventRelay.Zstandard.Literals

/-!
# Writing literals

A writer stores literals in a prefix code if that makes them smaller by enough,
as one repeated byte if they are all equal, and as they are otherwise.  Few
literals, and literals without a frequent byte, are not worth a code.  The code
of an earlier block is taken again if its description saves more than it costs.
-/

namespace EventRelay
namespace Zstandard

/-- How much smaller than its content coded data has to be. -/
def leastGain (effort size : Nat) : Nat :=
  (size >>> if effort < 8 then 6 else effort - 1) + 2

namespace Literals

/-- The number of a storage. -/
def Storage.bits : Storage → Nat
  | .plain => 0
  | .repeated => 1
  | .coded => 2
  | .recoded => 3

/-- What precedes literals that are not coded. -/
def plainHeader (storage : Storage) (count : Nat) : Bytes :=
  if count < 32 then Bytes.ofNatLE 1 (storage.bits + 8 * count)
  else if count < 4096 then Bytes.ofNatLE 2 (storage.bits + 4 + 16 * count)
  else Bytes.ofNatLE 3 (storage.bits + 12 + 16 * count)

/-- What precedes coded literals. -/
def codedHeader (storage : Storage) (parted : Bool) (count stored : Nat) : Bytes :=
  let fields := storage.bits + 16 * count
  if count < 1024 then Bytes.ofNatLE 3 (fields + 4 * parted.toNat + stored <<< 14)
  else if count < 16384 then Bytes.ofNatLE 4 (fields + 8 + stored <<< 18)
  else Bytes.ofNatLE 5 (fields + 12 + stored <<< 22)

/-- The least number of literals that are coded. -/
def leastCoded (effort : Nat) : Nat := 8 <<< min (9 - effort) 3

/-- The least number of literals that are coded in four parts. -/
def leastParted : Nat := 256

/-- Whether so few of the bytes at both ends of many literals are equal that a
code is not worth trying. -/
def looksRandom (literals : Bytes) : Bool :=
  let sample := 4096
  let frequent (bytes : Bytes) : Nat := mostFrequent (tally (bytes.map UInt8.toNat))
  10 * sample ≤ literals.length &&
    frequent (literals.take sample) + frequent (literals.drop (literals.length - sample)) ≤ 68

/-- Write literals in four texts, with the sizes of the first three in front. -/
def writeParts (plan : PrefixCode.Plan) (literals : Bytes) : Bytes :=
  let share := (literals.length + 3) / 4
  let first := plan.encode (literals.take share)
  let second := plan.encode ((literals.drop share).take share)
  let third := plan.encode ((literals.drop (2 * share)).take share)
  let fourth := plan.encode (literals.drop (3 * share))
  Bytes.ofNatLE 2 first.length ++ Bytes.ofNatLE 2 second.length ++
    Bytes.ofNatLE 2 third.length ++ first ++ second ++ third ++ fourth

/-- A prefix code for literals, with its description unless it is an earlier
one. -/
structure Choice where
  /-- How the literals are stored. -/
  storage : Storage
  /-- The code. -/
  plan : PrefixCode.Plan
  /-- The description of the code. -/
  description : Bytes

/-- Choose a code for literals whose bytes have given counts: a new one, or the
earlier one if it has all bytes and is preferred or makes less of them. -/
def Choice.of?
    (effort count : Nat)
    (earlier : Option PrefixCode.Plan)
    (counts : Array Nat) :
    Option Choice := do
  let earlier := (earlier.filter (·.covers counts)).map fun plan => Choice.mk .recoded plan []
  if effort < 4 ∧ count ≤ 1024 ∧ earlier.isSome then earlier
  else
    let plan := PrefixCode.Plan.ofCounts (8 ≤ effort) counts
    let description ← plan.describe?
    let tooSmall := count ≤ description.length + 12
    let keeps (choice : Choice) : Bool :=
      tooSmall || choice.plan.cost counts ≤ description.length + plan.cost counts
    match earlier.filter keeps with
    | some choice => some choice
    | none => if tooSmall then none else some ⟨.coded, plan, description⟩

/-- Write literals in a prefix code, if that makes them smaller by enough.  The
result also holds the code for later blocks. -/
def writeCoded?
    (effort : Nat)
    (suspect : Bool)
    (earlier : Option PrefixCode.Plan)
    (literals : Bytes) :
    Option (Bytes × PrefixCode.Plan) := do
  let count := literals.length
  if suspect && looksRandom literals then none
  let counts := tally (literals.map UInt8.toNat)
  if mostFrequent counts ≤ count / 128 + 4 then none
  let choice ← Choice.of? effort count earlier counts
  let parted := leastParted ≤ count
  let text := if parted then writeParts choice.plan literals else choice.plan.encode literals
  let stored := choice.description ++ text
  if count ≤ stored.length + leastGain effort count then none
  return (codedHeader choice.storage parted count stored.length ++ stored, choice.plan)

/-- Write literals.  The result also holds the code for later blocks. -/
def write
    (level : Level)
    (suspect : Bool)
    (earlier : Option PrefixCode.Plan)
    (literals : Bytes) :
    Bytes × Option PrefixCode.Plan :=
  let count := literals.length
  let plain := (plainHeader .plain count ++ literals, earlier)
  match literals with
  | [] => plain
  | first :: rest =>
      if !level.codesLiterals || count < leastCoded level.effort then plain
      else if rest.all (· == first) then (plainHeader .repeated count ++ [first], earlier)
      else
        match writeCoded? level.effort suspect earlier literals with
        | some (bytes, plan) => (bytes, some plan)
        | none => plain

end Literals
end Zstandard
end EventRelay
