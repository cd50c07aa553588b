import EventRelay.Zstandard.Level

/-!
# Searching for repetitions

A writer looks for bytes that occurred before.  It goes through the content and
keeps tables of the places at which bytes with a given key occurred.  The last
two distances are tried as well.  A repetition that is found goes on for as
long as the bytes agree, and starts as early as they do.  What is found decides
only how small a frame becomes, not what is read from it.
-/

namespace EventRelay
namespace Zstandard

/-- How a writer covers a part of the content. -/
structure Step where
  /-- The number of literals to take. -/
  literals : Nat
  /-- The number that names the distance to copy from. -/
  number : Nat
  /-- The number of bytes to copy. -/
  size : Nat
deriving DecidableEq, Repr

namespace Search

/-! ## Bytes at a place -/

/-- Bytes of the content as a word, the first byte lowest. -/
def word (content : Array UInt8) (place : Nat) : (width : Nat) → UInt64
  | 0 => 0
  | width + 1 =>
      (content.getD place 0).toUInt64 ||| (word content (place + 1) width <<< 8)

/-- Count bytes that agree at two places, up to a number. -/
def countAhead (content : Array UInt8) :
    (most earlier place counted : Nat) → Nat
  | 0, _, _, counted => counted
  | most + 1, earlier, place, counted =>
      if content.getD earlier 0 = content.getD place 0 then
        countAhead content most (earlier + 1) (place + 1) (counted + 1)
      else counted

/-- Count bytes that agree in front of two places, up to a number. -/
def countBehind (content : Array UInt8) :
    (most earlier place counted : Nat) → Nat
  | 0, _, _, counted => counted
  | most + 1, earlier, place, counted =>
      if content.getD (earlier - 1) 0 = content.getD (place - 1) 0 then
        countBehind content most (earlier - 1) (place - 1) (counted + 1)
      else counted

/-! ## Tables of places -/

/-- The factor that spreads words of a width over the keys. -/
def factor : (width : Nat) → UInt64
  | 4 => 2654435761
  | 5 => 889523592379
  | 6 => 227718039650203
  | 7 => 58295818150454627
  | _ => 0xCF1BBCDCB7A56463

/-- The places at which bytes with each key were noted, the latest first. -/
structure Memory where
  /-- The number of bytes that make up a key. -/
  width : Nat
  /-- The binary logarithm of the number of keys. -/
  logarithm : Nat
  /-- The places of each key. -/
  places : Array (List Nat)

namespace Memory

/-- A table without places. -/
def initial (width logarithm : Nat) : Memory where
  width := width
  logarithm := logarithm
  places := Array.replicate (1 <<< logarithm) []

/-- The table that is not used. -/
def unused : Memory := initial 8 0

/-- The key of the bytes at a place. -/
def key (memory : Memory) (content : Array UInt8) (place : Nat) : Nat :=
  let word := word content place memory.width <<< UInt64.ofNat (64 - 8 * memory.width)
  ((word * factor memory.width) >>> UInt64.ofNat (64 - memory.logarithm)).toNat

/-- Note a place. -/
def note (memory : Memory) (content : Array UInt8) (place : Nat) : Memory :=
  let key := memory.key content place
  { memory with places := memory.places.modify key (place :: ·) }

/-- Note a number of places from one on. -/
def noteFrom (content : Array UInt8) : (count place : Nat) → Memory → Memory
  | 0, _, memory => memory
  | count + 1, place, memory => noteFrom content count (place + 1) (memory.note content place)

/-- The noted places of the bytes at a place, the latest first. -/
def placesOf (memory : Memory) (content : Array UInt8) (place : Nat) : List Nat :=
  memory.places.getD (memory.key content place) []

end Memory

/-- The tables of a search. -/
structure Tables where
  /-- The places of eight bytes, for a search with two tables. -/
  long : Memory
  /-- The places of fewer bytes. -/
  short : Memory

/-! ## Repetitions -/

/-- The part of the content in which repetitions are looked for. -/
structure Part where
  /-- The bytes, with those before the part. -/
  content : Array UInt8
  /-- The place at which earlier bytes start. -/
  lowest : Nat
  /-- The end of the part. -/
  stop : Nat

/-- A repetition. -/
structure Finding where
  /-- Its first byte. -/
  start : Nat
  /-- Its size. -/
  size : Nat
  /-- Its distance, unless it is the latest one. -/
  distance : Option Nat
  /-- The place at which it was found. -/
  place : Nat

/-- The number that names the distance of a repetition. -/
def Finding.number (finding : Finding) : Nat :=
  match finding.distance with
  | none => 1
  | some distance => distance + 3

namespace Part

/-- Whether four bytes agree with those at the latest distance before them.  No
distance is zero. -/
def repeats (part : Part) (latest place : Nat) : Bool :=
  0 < latest && word part.content (place - latest) 4 == word part.content place 4

/-- The last noted place of the bytes at a place, if as many of them agree and
the place is not too low. -/
def latest? (part : Part) (memory : Memory) (width place : Nat) : Option Nat :=
  (memory.placesOf part.content place).head?.filter fun earlier =>
    part.lowest ≤ earlier && word part.content earlier width == word part.content place width

/-- The number of bytes from a place on that are repeated at a distance. -/
def extent (part : Part) (distance place : Nat) : Nat :=
  countAhead part.content (part.stop - place) (place - distance) place 0

/-- The whole repetition that an agreement at two places belongs to.  It starts
after the bytes that are covered already. -/
def around (part : Part) (covered earlier place : Nat) : Finding :=
  let behind := countBehind part.content (min (place - covered) (earlier - part.lowest))
    earlier place 0
  { start := place - behind
    size := behind + part.extent (place - earlier) place
    distance := some (place - earlier)
    place := place }

end Part

/-- The distances that are tried first.  Zero stands for none. -/
structure Recent where
  /-- The latest distance. -/
  first : Nat
  /-- The one before. -/
  second : Nat
deriving DecidableEq, Repr

/-- The distances at the start. -/
def Recent.initial : Recent := ⟨1, 4⟩

/-- The distances after a repetition. -/
def Recent.after (recent : Recent) (finding : Finding) : Recent :=
  match finding.distance with
  | none => recent
  | some distance => ⟨distance, recent.first⟩

end Search
end Zstandard
end EventRelay
