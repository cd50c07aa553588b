import EventRelay.Bytes

/-!
# The hash of a frame's content

A 64-bit hash of a byte string.  Blocks of 32 bytes feed four lanes, one word
each; the lanes are joined, and what is left of the string is mixed in by words,
half words and bytes.
-/

namespace EventRelay
namespace Zstandard
namespace ContentHash

/-- The first of the five multipliers. -/
def prime1 : UInt64 := 0x9E3779B185EBCA87

/-- The second of the five multipliers. -/
def prime2 : UInt64 := 0xC2B2AE3D27D4EB4F

/-- The third of the five multipliers. -/
def prime3 : UInt64 := 0x165667B19E3779F9

/-- The fourth of the five multipliers. -/
def prime4 : UInt64 := 0x85EBCA77C2B2AE63

/-- The fifth of the five multipliers. -/
def prime5 : UInt64 := 0x27D4EB2F165667C5

/-- Turn a word to the left. -/
def rotate (word : UInt64) (count : UInt64) : UInt64 :=
  (word <<< count) ||| (word >>> (64 - count))

/-- The word of the next bytes. -/
def word (size : Nat) (bytes : Bytes) : UInt64 :=
  UInt64.ofNat (Bytes.toNatLE (bytes.take size))

/-- Take a word into a lane. -/
def round (lane input : UInt64) : UInt64 :=
  rotate (lane + input * prime2) 31 * prime1

/-- The four lanes. -/
structure Lanes where
  /-- The first lane. -/
  first : UInt64
  /-- The second lane. -/
  second : UInt64
  /-- The third lane. -/
  third : UInt64
  /-- The fourth lane. -/
  fourth : UInt64

/-- The lanes before any input. -/
def Lanes.initial : Lanes :=
  ⟨prime1 + prime2, prime2, 0, 0 - prime1⟩

/-- Take a block of 32 bytes into the lanes. -/
def Lanes.absorb (lanes : Lanes) (block : Bytes) : Lanes where
  first := round lanes.first (word 8 block)
  second := round lanes.second (word 8 (block.drop 8))
  third := round lanes.third (word 8 (block.drop 16))
  fourth := round lanes.fourth (word 8 (block.drop 24))

/-- Take whole blocks into the lanes; what is left has fewer than 32 bytes. -/
def absorbBlocks (lanes : Lanes) (bytes : Bytes) : Lanes × Bytes :=
  match _dropped : bytes.drop 31 with
  | [] => (lanes, bytes)
  | _ :: rest => absorbBlocks (lanes.absorb (bytes.take 32)) rest
  termination_by bytes.length
  decreasing_by
    have sizes := congrArg List.length _dropped
    simp only [List.length_drop, List.length_cons] at sizes
    omega

/-- Mix a lane into the joined hash. -/
def merge (hash lane : UInt64) : UInt64 :=
  (hash ^^^ round 0 lane) * prime1 + prime4

/-- Join the lanes. -/
def Lanes.join (lanes : Lanes) : UInt64 :=
  let sum := rotate lanes.first 1 + rotate lanes.second 7 + rotate lanes.third 12 +
    rotate lanes.fourth 18
  merge (merge (merge (merge sum lanes.first) lanes.second) lanes.third) lanes.fourth

/-- Mix in single bytes. -/
def mixBytes (hash : UInt64) (bytes : Bytes) : UInt64 :=
  bytes.foldl (fun hash byte => rotate (hash ^^^ (byte.toUInt64 * prime5)) 11 * prime1) hash

/-- Mix in a half word, where there is one, and then bytes. -/
def mixHalf (hash : UInt64) (bytes : Bytes) : UInt64 :=
  if bytes.length < 4 then mixBytes hash bytes
  else mixBytes (rotate (hash ^^^ (word 4 bytes * prime1)) 23 * prime2 + prime3) (bytes.drop 4)

/-- Mix in fewer than 32 bytes: words first. -/
def mixRest (hash : UInt64) (bytes : Bytes) : UInt64 :=
  if bytes.length < 8 then mixHalf hash bytes
  else mixRest (rotate (hash ^^^ round 0 (word 8 bytes)) 27 * prime1 + prime4) (bytes.drop 8)
  termination_by bytes.length
  decreasing_by simp; omega

/-- Spread the bits of the hash. -/
def avalanche (hash : UInt64) : UInt64 :=
  let hash := (hash ^^^ (hash >>> 33)) * prime2
  let hash := (hash ^^^ (hash >>> 29)) * prime3
  hash ^^^ (hash >>> 32)

/-- The hash of a byte string. -/
def hash (bytes : Bytes) : UInt64 :=
  let (lanes, rest) := absorbBlocks .initial bytes
  let start := if bytes.length < 32 then prime5 else lanes.join
  avalanche (mixRest (start + UInt64.ofNat bytes.length) rest)

end ContentHash
end Zstandard
end EventRelay
