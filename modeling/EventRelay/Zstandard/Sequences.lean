import EventRelay.Zstandard.Literals

/-!
# Sequences of a block

The second part of a compressed block is a list of sequences.  A sequence says
how many literals to take, and how many bytes to copy after them from which
distance.  Each of the three numbers is a code symbol, which names a range, and
further bits, which name a number in it.  A distance is either given anew or one
of the last three distances used.
-/

namespace EventRelay
namespace Zstandard

/-- One step of building a block. -/
structure Sequence where
  /-- The number of literals to take. -/
  literals : Nat
  /-- The number of bytes to copy. -/
  size : Nat
  /-- How far back the first of these bytes stands. -/
  distance : Nat
deriving DecidableEq, Repr

/-- The last three distances used, the latest first. -/
structure Distances where
  /-- The latest. -/
  first : Nat
  /-- The one before. -/
  second : Nat
  /-- The one before that. -/
  third : Nat
deriving DecidableEq, Repr

/-- The distances at the start of a frame. -/
def Distances.initial : Distances := ⟨1, 4, 8⟩

/-- The distance that a number names, with the distances that are the last
three afterwards.  Numbers above three name the distance three less; the others
name one of the last three, counted from the second on when no literals were
taken, and one less than the latest as the last.  A distance of zero is not one
that can be used. -/
def Distances.use (distances : Distances) (literals number : Nat) : Nat × Distances :=
  let place := if literals = 0 then number + 1 else number
  if 3 < number then
    (number - 3, ⟨number - 3, distances.first, distances.second⟩)
  else if place ≤ 1 then
    (distances.first, distances)
  else if place = 2 then
    (distances.second, ⟨distances.second, distances.first, distances.third⟩)
  else if place = 3 then
    (distances.third, ⟨distances.third, distances.first, distances.second⟩)
  else
    let distance := distances.first - 1
    (distance, ⟨distance, distances.first, distances.second⟩)

/-- The ranges that the symbols of a code name: the least number of each and
the number of further bits. -/
abbrev Ranges := Array (Nat × Nat)

/-- Consecutive ranges of given numbers of further bits. -/
def rangesFrom : (least : Nat) → (widths : List Nat) → List (Nat × Nat)
  | _, [] => []
  | least, width :: rest => (least, width) :: rangesFrom (least + 1 <<< width) rest

/-- The ranges of numbers of literals. -/
def literalRanges : Ranges :=
  (rangesFrom 0 (List.replicate 16 0 ++
    [1, 1, 1, 1, 2, 2, 3, 3, 4, 6, 7, 8, 9, 10, 11, 12, 13, 14, 15, 16])).toArray

/-- The ranges of numbers of copied bytes. -/
def sizeRanges : Ranges :=
  (rangesFrom 3 (List.replicate 32 0 ++
    [1, 1, 1, 1, 2, 2, 3, 3, 4, 4, 5, 7, 8, 9, 10, 11, 12, 13, 14, 15, 16])).toArray

/-- The ranges of distances. -/
def distanceRanges : Ranges :=
  ((List.range 32).map fun width => (1 <<< width, width)).toArray

/-- Frequencies from numbers, of which zero stands for a rare symbol. -/
def frequencies (numbers : List Nat) : List Frequency :=
  numbers.map fun number => if number = 0 then .rare else .times number

/-- The frequencies of the predefined code of numbers of literals. -/
def literalFrequencies : List Frequency :=
  frequencies
    [4, 3, 2, 2, 2, 2, 2, 2, 2, 2, 2, 2, 2, 1, 1, 1, 2, 2, 2, 2, 2, 2, 2, 2, 2, 3, 2, 1, 1, 1,
      1, 1, 0, 0, 0, 0]

/-- The predefined code of numbers of literals. -/
def literalCode : StateCode :=
  .ofFrequencies 6 literalFrequencies

/-- The frequencies of the predefined code of distances. -/
def distanceFrequencies : List Frequency :=
  frequencies
    [1, 1, 1, 1, 1, 1, 2, 2, 2, 1, 1, 1, 1, 1, 1, 1, 1, 1, 1, 1, 1, 1, 1, 1, 0, 0, 0, 0, 0]

/-- The predefined code of distances. -/
def distanceCode : StateCode :=
  .ofFrequencies 5 distanceFrequencies

/-- The frequencies of the predefined code of numbers of copied bytes. -/
def sizeFrequencies : List Frequency :=
  frequencies
    [1, 4, 3, 2, 2, 2, 2, 2, 2, 1, 1, 1, 1, 1, 1, 1, 1, 1, 1, 1, 1, 1, 1, 1, 1, 1, 1, 1, 1, 1,
      1, 1, 1, 1, 1, 1, 1, 1, 1, 1, 1, 1, 1, 1, 1, 1, 0, 0, 0, 0, 0, 0, 0]

/-- The predefined code of numbers of copied bytes. -/
def sizeCode : StateCode :=
  .ofFrequencies 6 sizeFrequencies

/-- The codes of the three numbers, kept from block to block. -/
structure SequenceCodes where
  /-- The code of numbers of literals. -/
  literals : Option StateCode
  /-- The code of distances. -/
  distances : Option StateCode
  /-- The code of numbers of copied bytes. -/
  sizes : Option StateCode

/-- No codes. -/
def SequenceCodes.none : SequenceCodes := ⟨.none, .none, .none⟩

namespace Sequences

/-- The value of an option, and a wrong size where there is none. -/
def orWrongSize {α : Type} : Option α → Except Fault α
  | some value => .ok value
  | none => .error .wrongSize

/-- Read the number of sequences, in one, two or three bytes. -/
def readCount? : Bytes → Option (Nat × Bytes)
  | [] => none
  | first :: rest =>
      let low := first.toNat
      if low < 128 then some (low, rest)
      else if low < 255 then do
        let (field, rest) ← Bytes.split? 1 rest
        return ((low - 128) * 256 + Bytes.toNatLE field, rest)
      else do
        let (field, rest) ← Bytes.split? 2 rest
        return (Bytes.toNatLE field + 0x7F00, rest)

/-- Read which code one of the numbers has: the predefined one, one of a single
symbol, one that is described, or the one of an earlier block. -/
def readCode?
    (mode : Nat)
    (predefined : StateCode)
    (earlier : Option StateCode)
    (symbols greatest : Nat)
    (bytes : Bytes) :
    Option (StateCode × Bytes) :=
  match mode with
  | 0 => some (predefined, bytes)
  | 1 =>
      match bytes with
      | [] => none
      | byte :: rest =>
          if byte.toNat < symbols then some (.constant byte.toNat, rest) else none
  | 2 => StateCode.read? symbols greatest bytes
  | _ => earlier.map fun code => (code, bytes)

/-- The number in the range of a symbol that the next bits name. -/
def readNumber? (ranges : Ranges) (state : State) (bits : BitString) :
    Option (Nat × BitString) := do
  let (least, width) ← ranges[state.symbol]?
  let (offset, rest) ← BitString.readHigh? width bits
  return (least + offset, rest)

/-- The three states of a reader of sequences. -/
structure States where
  /-- The state of numbers of literals. -/
  literals : State
  /-- The state of distances. -/
  distance : State
  /-- The state of numbers of copied bytes. -/
  size : State

/-- The three codes in use. -/
structure Codes where
  /-- The code of numbers of literals. -/
  literals : StateCode
  /-- The code of distances. -/
  distances : StateCode
  /-- The code of numbers of copied bytes. -/
  sizes : StateCode

/-- Read the first states. -/
def start? (codes : Codes) (bits : BitString) : Option (States × BitString) := do
  let (literals, rest) ← codes.literals.start? bits
  let (distance, rest) ← codes.distances.start? rest
  let (size, rest) ← codes.sizes.start? rest
  return (⟨literals, distance, size⟩, rest)

/-- Read the states after given ones. -/
def next? (codes : Codes) (states : States) (bits : BitString) :
    Option (States × BitString) := do
  let (literals, rest) ← codes.literals.next? states.literals bits
  let (size, rest) ← codes.sizes.next? states.size rest
  let (distance, rest) ← codes.distances.next? states.distance rest
  return (⟨literals, distance, size⟩, rest)

/-- Read one sequence. -/
def readOne? (states : States) (distances : Distances) (bits : BitString) :
    Option (Sequence × Distances × BitString) := do
  let (number, rest) ← readNumber? distanceRanges states.distance bits
  let (size, rest) ← readNumber? sizeRanges states.size rest
  let (literals, rest) ← readNumber? literalRanges states.literals rest
  let (distance, distances) := distances.use literals number
  return (⟨literals, size, distance⟩, distances, rest)

/-- Read a number of sequences, which must use up all bits.  The result holds
the sequences that can be read, and the last distances unless the text breaks
off or goes on.  The sequences already read stand in front, last first. -/
def readMany (codes : Codes) :
    (count : Nat) → List Sequence → States → Distances → BitString →
      List Sequence × Option Distances
  | 0, read, _, distances, bits =>
      (read.reverse, if bits.isEmpty then some distances else none)
  | count + 1, read, states, distances, bits =>
      match readOne? states distances bits with
      | none => (read.reverse, none)
      | some (sequence, distances, rest) =>
          if count = 0 then readMany codes 0 (sequence :: read) states distances rest
          else
            match next? codes states rest with
            | none => ((sequence :: read).reverse, none)
            | some (states, rest) =>
                readMany codes count (sequence :: read) states distances rest

/-- The sequences of a block, with what is kept for later blocks. -/
structure Reading where
  /-- The sequences that can be read. -/
  sequences : List Sequence
  /-- The codes. -/
  codes : SequenceCodes
  /-- The last distances, unless the text of the sequences is broken. -/
  distances : Option Distances

/-- Read the codes of sequences. -/
def readCodes? (earlier : SequenceCodes) (modes : Nat) (bytes : Bytes) :
    Option (Codes × Bytes) := do
  if modes % 4 ≠ 0 then none
  let (literals, rest) ←
    readCode? (modes / 64) literalCode earlier.literals 36 9 bytes
  let (distances, rest) ←
    readCode? (modes / 16 % 4) distanceCode earlier.distances 32 8 rest
  let (sizes, rest) ←
    readCode? (modes / 4 % 4) sizeCode earlier.sizes 53 9 rest
  return (⟨literals, distances, sizes⟩, rest)

/-- Read the sequences of a block, which end it. -/
def read (room : Room) (earlier : SequenceCodes) (distances : Distances) (bytes : Bytes) :
    Except Fault Reading := do
  let (count, rest) ← orWrongSize (readCount? bytes)
  if count = 0 then
    require rest.isEmpty
    return ⟨[], earlier, some distances⟩
  else
    let (modes, rest) ← orWrongSize (Bytes.split? 1 rest)
    let (codes, rest) ← orCorrupt (readCodes? earlier (Bytes.toNatLE modes) rest)
    if room.free = 0 then .error .outOfRoom
    let bits ← orCorrupt (BitString.backward? rest)
    let (sequences, distances) :=
      match start? codes bits with
      | none => ([], none)
      | some (states, bits) => readMany codes count [] states distances bits
    return ⟨sequences, ⟨some codes.literals, some codes.distances, some codes.sizes⟩, distances⟩

end Sequences
end Zstandard
end EventRelay
