import EventRelay.Zstandard.StateCode

/-!
# Prefix codes

A prefix code is laid down by the weight of each symbol: a symbol of weight
`w` takes `2 ^ (w - 1)` of the places of a table whose size is a power of two,
and a symbol of weight zero takes none.  The next bits, as many as the table's
size has, name a place, and the symbol there tells how many of them it uses.
-/

namespace EventRelay
namespace Zstandard

/-- A symbol of a prefix code. -/
structure CodeWord where
  /-- The symbol. -/
  symbol : UInt8
  /-- The number of bits that it uses. -/
  bits : Nat
deriving DecidableEq, Repr, Inhabited

/-- A prefix code. -/
structure PrefixCode where
  /-- The greatest number of bits that a symbol uses. -/
  width : Nat
  /-- The code word at each place. -/
  table : Array CodeWord

namespace PrefixCode

/-- The number of places that a weight takes. -/
def share (weight : Nat) : Nat :=
  if weight = 0 then 0 else 1 <<< (weight - 1)

/-- The number of places that weights take. -/
def total : (weights : List Nat) → Nat
  | [] => 0
  | weight :: rest => share weight + total rest

/-- Complete the weights by the weight of the last symbol, which takes the
places left in the smallest table that is larger than the weights need.  The
result holds the width of the table. -/
def complete? (weights : List Nat) : Option (Nat × List Nat) :=
  let sum := total weights
  let width := Nat.log2 sum + 1
  let left := 1 <<< width - sum
  let last := Nat.log2 left + 1
  let all := weights ++ [last]
  if sum = 0 ∨ 12 < width ∨ 1 <<< (last - 1) ≠ left ∨
      all.count 1 < 2 ∨ all.count 1 % 2 = 1 ∨ all.any (12 < ·) then none
  else some (width, all)

/-- The code of completed weights.  Places go to lower weights first, and among
equal weights to lower symbols first. -/
def ofWeights (width : Nat) (weights : List Nat) : PrefixCode where
  width := width
  table :=
    ((List.range (width + 1)).flatMap fun weight =>
      ((List.range weights.length).zip weights).flatMap fun (symbol, own) =>
        if own = weight then
          List.replicate (share weight)
            { symbol := UInt8.ofNat symbol, bits := width + 1 - weight }
        else []).toArray

/-- The weights of half bytes, high half first. -/
def halves (bytes : Bytes) : List Nat :=
  bytes.flatMap fun byte => [byte.toNat / 16, byte.toNat % 16]

/-- Read the weights of a description.  A first byte below 128 is the size of
weights in a state code; a greater one is 127 more than the number of weights in
half bytes. -/
def readWeights? : Bytes → Option (List Nat × Bytes)
  | [] => none
  | first :: rest => do
      let number := first.toNat
      if number < 128 then
        let (description, rest) ← Bytes.split? number rest
        let (code, text) ← StateCode.read? 256 6 description
        return (← code.symbols? 254 text, rest)
      else
        let count := number - 127
        let (description, rest) ← Bytes.split? ((count + 1) / 2) rest
        return ((halves description).take count, rest)

/-- Read the description of a code from the front of a byte string. -/
def read? (bytes : Bytes) : Option (PrefixCode × Bytes) := do
  let (weights, rest) ← readWeights? bytes
  let (width, weights) ← complete? weights
  return (ofWeights width weights, rest)

/-- Read a number of symbols, which must use up all bits.  The symbols already
read stand in front, last first. -/
def readSymbols? (code : PrefixCode) : (count : Nat) → (read : Bytes) → BitString → Option Bytes
  | 0, read, bits => if bits.isEmpty then some read.reverse else none
  | count + 1, read, bits =>
      match code.table[BitString.peekHigh code.width bits]? with
      | none => none
      | some word =>
          match BitString.skip? word.bits bits with
          | none => none
          | some rest => readSymbols? code count (word.symbol :: read) rest

/-- The symbols of a byte string that is read backwards. -/
def symbols? (code : PrefixCode) (count : Nat) (bytes : Bytes) : Option Bytes := do
  readSymbols? code count [] (← BitString.backward? bytes)

end PrefixCode
end Zstandard
end EventRelay
