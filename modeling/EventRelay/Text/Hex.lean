import EventRelay.Bytes

/-!
# Hexadecimal text

Lower-case hexadecimal digits of a number, padded with zeros on the left, and
byte strings with two digits for every byte.
-/

namespace EventRelay
namespace Hex

/-- The lower-case digit of a number below sixteen. -/
def digit (value : Nat) : Char :=
  if value < 10 then Char.ofNat (48 + value) else Char.ofNat (87 + value)

/-- The last `width` hexadecimal digits of a number, most significant first. -/
def digits : (width : Nat) → (value : Nat) → List Char
  | 0, _ => []
  | width + 1, value => digits width (value / 16) ++ [digit (value % 16)]

/-- A number in exactly `width` hexadecimal digits, marked by `0x`. -/
def marked (width value : Nat) : String :=
  "0x" ++ String.ofList (digits width value)

/-- The number of hexadecimal digits that a number needs; zero needs one. -/
def size (value : Nat) : Nat :=
  Nat.log2 value / 4 + 1

/-- A number in as few hexadecimal digits as it needs. -/
def plain (value : Nat) : String :=
  String.ofList (digits (size value) value)

/-- The number that a hexadecimal digit of either case stands for. -/
def value? (character : Char) : Option Nat :=
  let code := character.toNat
  if 48 ≤ code ∧ code ≤ 57 then some (code - 48)
  else if 97 ≤ code ∧ code ≤ 102 then some (code - 87)
  else if 65 ≤ code ∧ code ≤ 70 then some (code - 55)
  else none

/-- A byte string with two digits for every byte. -/
def ofBytes (bytes : Bytes) : String :=
  String.ofList (bytes.flatMap fun byte => digits 2 byte.toNat)

/-- The bytes that pairs of digits stand for. -/
def bytesOfDigits? : List Char → Option Bytes
  | [] => some []
  | high :: low :: rest => do
      let byte := UInt8.ofNat ((← value? high) * 16 + (← value? low))
      return byte :: (← bytesOfDigits? rest)
  | _ => none

/-- The byte string that a text of digits stands for. -/
def toBytes? (text : String) : Option Bytes :=
  bytesOfDigits? text.toList

@[simp] theorem length_digits (width value : Nat) :
    (digits width value).length = width := by
  induction width generalizing value with
  | zero => rfl
  | succ width inductionHypothesis => simp [digits, inductionHypothesis]

end Hex
end EventRelay
