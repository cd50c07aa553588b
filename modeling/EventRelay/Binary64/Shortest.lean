import EventRelay.Binary64.Basic

/-!
# Shortest decimal text of a binary number

The shortest string of decimal digits that lies between a number and the
midpoints to its two neighbours, and the two spellings made of it: one that
always writes out the places, and one that goes over to an exponent for very
small and very large numbers.  The two spellings also differ in which of two
shortest strings they take when both are equally near.
-/

namespace EventRelay
namespace Binary64

/-- Decimal digits with a point: the value is `0.digits * 10 ^ point`. -/
structure DecimalDigits where
  /-- The digits as a number. -/
  digits : Nat
  /-- How many digits there are. -/
  count : Nat
  /-- Where the point stands, counted from the left of the digits. -/
  point : Int

/-- The interval of ratios that round to a number, with common denominator. -/
structure Neighbourhood where
  /-- The number itself. -/
  middle : Nat
  /-- The midpoint to the number below. -/
  lower : Nat
  /-- The midpoint to the number above. -/
  upper : Nat
  /-- The denominator of all three. -/
  denominator : Nat
  /-- Whether the two midpoints round to the number. -/
  closed : Bool

/-- The neighbourhood of a positive number. -/
def neighbourhood (significand : Nat) (exponent : Int) : Neighbourhood :=
  let narrow := significand = leastNormal ∧ exponent ≠ leastExponent
  let unit := ratio 1 (exponent - 2)
  { middle := 4 * significand * unit.1
    lower := (4 * significand - if narrow then 1 else 2) * unit.1
    upper := (4 * significand + 2) * unit.1
    denominator := unit.2
    closed := significand % 2 = 0 }

/-- Whether a ratio lies in the neighbourhood. -/
def Neighbourhood.contains (near : Neighbourhood) (numerator denominator : Nat) : Bool :=
  let low := near.lower * denominator
  let high := near.upper * denominator
  let value := numerator * near.denominator
  if near.closed then decide (low ≤ value ∧ value ≤ high) else decide (low < value ∧ value < high)

/-- `10 ^ exponent` as a ratio. -/
def powerOfTen (exponent : Int) : Nat × Nat :=
  if exponent < 0 then (1, Nat.pow 10 (-exponent).toNat)
  else (Nat.pow 10 exponent.toNat, 1)

/-- The number of decimal digits before the point of a ratio at least one, or
minus the number of zeros after the point of a smaller one, found from a guess
that is at most `fuel` too small. -/
def pointFrom : (fuel : Nat) → (guess : Int) → (numerator denominator : Nat) → Int
  | 0, guess, _, _ => guess
  | fuel + 1, guess, numerator, denominator =>
      let power := powerOfTen guess
      if numerator * power.2 < power.1 * denominator then guess
      else pointFrom fuel (guess + 1) numerator denominator

/-- The position of the decimal point of a positive ratio.  A binary logarithm
gives a guess that is too small by at most a few places. -/
def pointOf (numerator denominator : Nat) : Int :=
  let logarithm : Int := (Nat.log2 numerator : Int) - (Nat.log2 denominator : Int)
  pointFrom 8 (logarithm * 30103 / 100000 - 2) numerator denominator

/-- Which of two points that are equally near is taken. -/
inductive Tie where
  /-- The one above. -/
  | above
  /-- The even one. -/
  | even
deriving DecidableEq, Repr

/-- Whether the lower of two points that are equally near is taken. -/
def Tie.takesBelow (tie : Tie) (below : Nat) : Bool :=
  match tie with
  | .above => false
  | .even => below % 2 = 0

/-- The nearest point of the grid with `count` digits, if a point of that grid
lies in the neighbourhood. -/
def onGrid (tie : Tie) (near : Neighbourhood) (point : Int) (count : Nat) : Option Nat :=
  let unit := powerOfTen (point - count)
  let below := near.middle * unit.2 / (near.denominator * unit.1)
  let above := below + 1
  let belowFits := near.contains (below * unit.1) unit.2
  let aboveFits := near.contains (above * unit.1) unit.2
  let middle := 2 * near.middle * unit.2
  let half := (below + above) * unit.1 * near.denominator
  let belowNearer := decide (middle < half) || (middle == half && tie.takesBelow below)
  if belowFits && (!aboveFits || belowNearer) then some below
  else if aboveFits then some above
  else none

/-- The first grid from `count` digits on that has a point in the
neighbourhood.  Seventeen digits always suffice. -/
def shortestFrom (tie : Tie) :
    (fuel : Nat) → (count : Nat) → Neighbourhood → (point : Int) → DecimalDigits
  | 0, count, near, point => ⟨(onGrid tie near point count).getD 0, count, point⟩
  | fuel + 1, count, near, point =>
      match onGrid tie near point count with
      | some digits =>
          if digits = Nat.pow 10 count then ⟨1, 1, point + 1⟩ else ⟨digits, count, point⟩
      | none => shortestFrom tie fuel (count + 1) near point

/-- The shortest digits of a positive number. -/
def shortest (tie : Tie) (significand : Nat) (exponent : Int) : DecimalDigits :=
  let near := neighbourhood significand exponent
  shortestFrom tie 16 1 near (pointOf near.middle near.denominator)

/-- A run of zeros. -/
def zeros (count : Nat) : String :=
  String.ofList (List.replicate count '0')

/-- Digits with every place written out; `tail` follows a whole number. -/
def DecimalDigits.positional (number : DecimalDigits) (tail : String) : String :=
  let digits := toString number.digits
  if number.point ≤ 0 then
    "0." ++ zeros (-number.point).toNat ++ digits
  else if number.count ≤ number.point.toNat then
    digits ++ zeros (number.point.toNat - number.count) ++ tail
  else
    String.ofList (digits.toList.take number.point.toNat) ++ "." ++
      String.ofList (digits.toList.drop number.point.toNat)

/-- Digits with an exponent of ten, which always has a sign. -/
def DecimalDigits.scientific (number : DecimalDigits) : String :=
  let digits := (toString number.digits).toList
  let sign := if 0 < number.point then "+" else ""
  let exponent := "e" ++ sign ++ toString (number.point - 1)
  if number.count ≤ 1 then String.ofList digits ++ exponent
  else String.ofList (digits.take 1) ++ "." ++ String.ofList (digits.drop 1) ++ exponent

/-- A minus sign where one is due. -/
def signed (negative : Bool) (text : String) : String :=
  if negative then "-" ++ text else text

/-- The text with every place written out and at least one digit after the
point. -/
def positional : Binary64 → String
  | .finite negative significand exponent =>
      signed negative
        (if significand = 0 then "0.0"
        else (shortest .above significand exponent).positional ".0")
  | .infinite negative => signed negative "inf"
  | .undefined => "NaN"

/-- The text that writes out the places of numbers from 0.00001 up to sixteen
digits before the point, and uses an exponent for all others. -/
def compact : Binary64 → String
  | .finite negative significand exponent =>
      if significand = 0 then signed negative "0.0"
      else
        let number := shortest .even significand exponent
        signed negative
          (if -5 < number.point ∧ number.point ≤ 16 then number.positional ".0"
          else number.scientific)
  | .infinite negative => signed negative "inf"
  | .undefined => "NaN"

end Binary64
end EventRelay
