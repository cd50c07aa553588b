import EventRelay.Bytes

/-!
# Strings of bits

Two readings of bytes as bits.  In the forward reading each byte gives its
lowest bit first, and the first bit read is the lowest of a number.  In the
backward reading the bytes are taken from the last to the first, each gives its
highest bit first, and the first bit read is the highest of a number; the
highest bit that is set in the last byte marks the start.
-/

namespace EventRelay
namespace Zstandard

/-- A finite string of bits, in reading order. -/
abbrev BitString := List Bool

namespace BitString

/-- A bit of a byte. -/
def bitOf (byte : UInt8) (place : UInt8) : Bool :=
  byte >>> place &&& 1 == 1

/-- The bits of a byte, lowest first, in front of others. -/
def consLow (byte : UInt8) (bits : BitString) : BitString :=
  bitOf byte 0 :: bitOf byte 1 :: bitOf byte 2 :: bitOf byte 3 ::
    bitOf byte 4 :: bitOf byte 5 :: bitOf byte 6 :: bitOf byte 7 :: bits

/-- The bits of a byte, highest first, in front of others. -/
def consHigh (byte : UInt8) (bits : BitString) : BitString :=
  bitOf byte 7 :: bitOf byte 6 :: bitOf byte 5 :: bitOf byte 4 ::
    bitOf byte 3 :: bitOf byte 2 :: bitOf byte 1 :: bitOf byte 0 :: bits

/-- The bits of bytes in the forward reading. -/
def forward (bytes : Bytes) : BitString :=
  bytes.foldr consLow []

/-- The bits of bytes in the backward reading, after the mark.  There is none
when the last byte holds no mark. -/
def backward? (bytes : Bytes) : Option BitString :=
  match bytes.reverse with
  | [] => none
  | last :: rest =>
      match (consHigh last []).dropWhile (fun bit => !bit) with
      | [] => none
      | _ :: bits => some (bits ++ rest.foldr consHigh [])

/-- The number of bits, the first of which is the lowest. -/
def toNatLow : BitString → Nat
  | [] => 0
  | bit :: rest => bit.toNat + 2 * toNatLow rest

/-- The number of bits, the first of which is the highest. -/
def toNatHigh (bits : BitString) : Nat :=
  bits.foldl (fun number bit => 2 * number + bit.toNat) 0

/-- The lowest bits of a number, highest first. -/
def ofNatHigh : (width number : Nat) → BitString
  | 0, _ => []
  | width + 1, number => number.testBit width :: ofNatHigh width number

/-- The lowest bits of a number, lowest first. -/
def ofNatLow : (width number : Nat) → BitString
  | 0, _ => []
  | width + 1, number => number.testBit 0 :: ofNatLow width (number / 2)

/-- The bytes whose forward reading gives the bits, and zeros after their end. -/
def toForward (bits : BitString) : Bytes :=
  if bits.isEmpty then []
  else UInt8.ofNat (toNatLow (bits.take 8)) :: toForward (bits.drop 8)
  termination_by bits.length
  decreasing_by
    rename_i filled
    simp only [List.isEmpty_iff] at filled
    have positive := List.length_pos_iff.mpr filled
    simp only [List.length_drop]
    omega

/-- The bytes that bits make up, each of which gives its highest bit first. -/
def bytesHigh (bits : BitString) : Bytes :=
  if bits.isEmpty then []
  else UInt8.ofNat (toNatHigh (bits.take 8)) :: bytesHigh (bits.drop 8)
  termination_by bits.length
  decreasing_by
    rename_i filled
    simp only [List.isEmpty_iff] at filled
    have positive := List.length_pos_iff.mpr filled
    simp only [List.length_drop]
    omega

/-- The bytes whose backward reading gives the bits after the mark. -/
def toBackward (bits : BitString) : Bytes :=
  let padding := List.replicate (7 - bits.length % 8) false
  (bytesHigh (padding ++ true :: bits)).reverse

/-- Leave out a number of bits, if there are that many. -/
def skip? : (count : Nat) → BitString → Option BitString
  | 0, bits => some bits
  | _ + 1, [] => none
  | count + 1, _ :: rest => skip? count rest

/-- Read a number in the forward reading. -/
def readLow? : (count : Nat) → BitString → Option (Nat × BitString)
  | 0, bits => some (0, bits)
  | _ + 1, [] => none
  | count + 1, bit :: rest =>
      (readLow? count rest).map fun (number, rest) => (bit.toNat + 2 * number, rest)

/-- Read a number in the backward reading, after its higher bits. -/
def readHighAfter? (number : Nat) : (count : Nat) → BitString → Option (Nat × BitString)
  | 0, bits => some (number, bits)
  | _ + 1, [] => none
  | count + 1, bit :: rest => readHighAfter? (2 * number + bit.toNat) count rest

/-- Read a number in the backward reading. -/
def readHigh? (count : Nat) (bits : BitString) : Option (Nat × BitString) :=
  readHighAfter? 0 count bits

/-- The number of the next bits in the backward reading, which go on with
zeros after their end. -/
def peekHigh : (count : Nat) → BitString → Nat
  | 0, _ => 0
  | _ + 1, [] => 0
  | count + 1, bit :: rest => bit.toNat <<< count + peekHigh count rest

end BitString
end Zstandard
end EventRelay
