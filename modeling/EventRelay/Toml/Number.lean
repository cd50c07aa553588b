import EventRelay.Text.Hex
import EventRelay.Toml.Scanner
import EventRelay.Toml.Value

/-!
# Numbers, dates and times of a TOML document

Digits may be grouped by underscores, each of which stands between two digits.
A whole number must fit a signed 64-bit word.  A number with a fraction or an
exponent is read as the nearest binary one, which must not be infinite above.
Dates and times are only checked, since nothing looks at them.
-/

namespace EventRelay
namespace Toml
namespace Reader

/-- Digits, perhaps grouped, each with the number that it stands for. -/
def digits (digit? : Char → Option Nat) : Reader (List Nat) := do
  let first ← digit
  let others ← sequence do
    match ← peek? with
    | none => return none
    | some next =>
        if next = '_' then
          word ['_']
          return some (← digit)
        else if (digit? next).isSome then return some (← digit)
        else return none
  return first :: others
where
  /-- One digit. -/
  digit : Reader Nat := fun text =>
    match text with
    | first :: rest => (digit? first).map fun value => (value, rest)
    | [] => none

/-- The number that a digit below a base stands for. -/
def digitBelow? (base : Nat) (character : Char) : Option Nat :=
  match Hex.value? character with
  | some value => if value < base then some value else none
  | none => none

/-- The number of digits in a base. -/
def ofDigits (base : Nat) (digits : List Nat) : Nat :=
  digits.foldl (fun number digit => number * base + digit) 0

/-- Whether a minus sign stands here; a plus sign may also stand. -/
def negativeSign : Reader Bool := do
  if ← word? ['-'] then return true
  else
    let _ ← word? ['+']
    return false

/-- The digits of a decimal number, which start with zero only if that is the
only one. -/
def leadingDigits : Reader (List Nat) := do
  if ← word? ['0'] then return [0]
  else digits (digitBelow? 10)

/-- A whole number that fits a signed 64-bit word. -/
def fitting (value : Int) : Reader Int :=
  if -0x8000000000000000 ≤ value ∧ value < 0x8000000000000000 then return value else failure

/-- A whole number. -/
def integer : Reader Int := do
  if ← word? ['0', 'x'] then inBase 16
  else if ← word? ['0', 'o'] then inBase 8
  else if ← word? ['0', 'b'] then inBase 2
  else
    let isNegative ← negativeSign
    let magnitude : Int := ofDigits 10 (← leadingDigits)
    fitting (if isNegative then -magnitude else magnitude)
where
  /-- The digits of a number in a base other than ten. -/
  inBase (base : Nat) : Reader Int := do
    fitting (ofDigits base (← digits (digitBelow? base)))

/-- The exponent of a number, if there is one. -/
def exponent? : Reader (Option Int) := do
  if ← (do if ← word? ['e'] then return true else word? ['E']) then
    let isNegative ← negativeSign
    let magnitude : Int := ofDigits 10 (← digits (digitBelow? 10))
    return some (if isNegative then -magnitude else magnitude)
  else return none

/-- The digits after the point of a number, if there is one. -/
def fraction? : Reader (Option (List Nat)) := do
  if ← word? ['.'] then return some (← digits (digitBelow? 10))
  else return none

/-- A number with a fraction or an exponent. -/
def decimalFraction : Reader Binary64 := do
  let isNegative ← negativeSign
  let whole ← leadingDigits
  let fraction ← fraction?
  let exponent ← exponent?
  if fraction.isNone && exponent.isNone then failure
  let places := fraction.getD []
  let value := Binary64.ofDecimal isNegative (ofDigits 10 (whole ++ places))
    (exponent.getD 0 - places.length)
  match value with
  | .infinite false => failure
  | value => return value

/-- The words for infinity and for no number. -/
def specialNumber : Reader Binary64 := do
  let isNegative ← negativeSign
  if ← word? ['i', 'n', 'f'] then return .infinite isNegative
  else
    word ['n', 'a', 'n']
    return .undefined

/-! ## Dates and times -/

/-- A number of a fixed number of decimal digits within bounds. -/
def numeral (width least greatest : Nat) : Reader Nat := fun text =>
  match (text.take width).mapM (digitBelow? 10) with
  | some digits =>
      let value := ofDigits 10 digits
      if digits.length = width ∧ least ≤ value ∧ value ≤ greatest then
        some (value, text.drop width)
      else none
  | none => none

/-- The number of days of a month. -/
def daysOfMonth (year month : Nat) : Nat :=
  if month = 2 then
    if year % 4 = 0 ∧ (year % 100 ≠ 0 ∨ year % 400 = 0) then 29 else 28
  else if month = 4 || month = 6 || month = 9 || month = 11 then 30
  else 31

/-- A date. -/
def date : Reader Unit := do
  let year ← numeral 4 0 9999
  word ['-']
  let month ← numeral 2 1 12
  word ['-']
  let _ ← numeral 2 1 (daysOfMonth year month)

/-- A time of day. -/
def timeOfDay : Reader Unit := do
  let _ ← numeral 2 0 23
  word [':']
  let _ ← numeral 2 0 59
  word [':']
  let _ ← numeral 2 0 60
  let _ ← optional do
    word ['.']
    let places ← run isDigit
    if places.isEmpty then failure

/-- The distance of a time from universal time. -/
def zone : Reader Unit := do
  let mark ← character fun shown => shown = 'Z' || shown = 'z' || shown = '+' || shown = '-'
  if mark = '+' || mark = '-' then
    let _ ← numeral 2 0 23
    word [':']
    let _ ← numeral 2 0 59

/-- A date, a time of day, or a date with a time of day. -/
def moment : Reader Unit := do
  match ← optional date with
  | none => timeOfDay
  | some () =>
      let _ ← optional do
        let _ ← character fun shown => shown = 'T' || shown = 't' || shown = ' '
        timeOfDay
        let _ ← optional zone

end Reader
end Toml
end EventRelay
