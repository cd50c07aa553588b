/-!
# Numbers in binary floating point

The double-precision format, computed exactly on natural numbers: a finite
value is a sign and an integer significand times a power of two.  Every result
is the ratio that it stands for, rounded once to the nearest value, where a
tie goes to the even significand.
-/

namespace EventRelay

/-- A double-precision number.  A finite one is `significand * 2 ^ exponent`;
its significand has 53 bits, or fewer at the least exponent, which is -1074. -/
inductive Binary64 where
  /-- A finite number. -/
  | finite (negative : Bool) (significand : Nat) (exponent : Int)
  /-- A number too large to be finite. -/
  | infinite (negative : Bool)
  /-- Not a number. -/
  | undefined
deriving DecidableEq, Repr

namespace Binary64

/-- The least exponent of a finite number. -/
def leastExponent : Int := -1074

/-- The greatest exponent of a finite number. -/
def greatestExponent : Int := 971

/-- The least significand of 53 bits. -/
def leastNormal : Nat := 0x10000000000000

/-- The sign bit of the interchange form. -/
def signBit : Nat := 0x8000000000000000

/-- The quotient of two numbers, to the nearest; a tie goes to the even one. -/
def divideToNearest (numerator denominator : Nat) : Nat :=
  let quotient := numerator / denominator
  let twice := 2 * (numerator % denominator)
  if twice < denominator then quotient
  else if denominator < twice then quotient + 1
  else if quotient % 2 = 0 then quotient
  else quotient + 1

/-- The significand of a ratio at a given exponent, rounded. -/
def significandAt (numerator denominator : Nat) (exponent : Int) : Nat :=
  if exponent < 0 then
    divideToNearest (numerator <<< (-exponent).toNat) denominator
  else
    divideToNearest numerator (denominator <<< exponent.toNat)

/-- Whether a ratio is below the least 53-bit significand times a power of
two. -/
def belowScale (numerator denominator : Nat) (exponent : Int) : Bool :=
  if exponent < 0 then
    numerator <<< (-exponent).toNat < denominator * leastNormal
  else
    numerator < denominator <<< exponent.toNat * leastNormal

/-- The exponent at which a positive ratio has a 53-bit significand, or the
least exponent if that is greater. -/
def exponentOf (numerator denominator : Nat) : Int :=
  let estimate : Int :=
    (Nat.log2 numerator : Int) - (Nat.log2 denominator : Int) - 52
  let exponent := if belowScale numerator denominator estimate then estimate - 1 else estimate
  max exponent leastExponent

/-- The number nearest to a ratio of a given sign. -/
def ofRatio (negative : Bool) (numerator denominator : Nat) : Binary64 :=
  if numerator = 0 then
    .finite negative 0 leastExponent
  else
    let exponent := exponentOf numerator denominator
    let significand := significandAt numerator denominator exponent
    let carried := significand = 2 * leastNormal
    let exponent := if carried then exponent + 1 else exponent
    let significand := if carried then leastNormal else significand
    if greatestExponent < exponent then .infinite negative
    else .finite negative significand exponent

/-- The number nearest to a natural number. -/
def ofNat (value : Nat) : Binary64 :=
  ofRatio false value 1

/-- The number nearest to `digits * 10 ^ exponent`.  Decimal exponents far
outside the range of the format are decided without computing the power. -/
def ofDecimal (negative : Bool) (digits : Nat) (exponent : Int) : Binary64 :=
  let size : Int := Nat.log2 digits
  if digits = 0 then
    .finite negative 0 leastExponent
  else if 400 < exponent then
    .infinite negative
  else if exponent + size < -1200 then
    .finite negative 0 leastExponent
  else if exponent < 0 then
    ofRatio negative digits (Nat.pow 10 (-exponent).toNat)
  else
    ofRatio negative (digits * Nat.pow 10 exponent.toNat) 1

/-- The numerator and denominator of a significand times a power of two. -/
def ratio (significand : Nat) (exponent : Int) : Nat × Nat :=
  if exponent < 0 then (significand, 1 <<< (-exponent).toNat)
  else (significand <<< exponent.toNat, 1)

/-- The rounded product. -/
def multiply : Binary64 → Binary64 → Binary64
  | .finite leftSign leftSignificand leftExponent,
    .finite rightSign rightSignificand rightExponent =>
      let left := ratio leftSignificand leftExponent
      let right := ratio rightSignificand rightExponent
      ofRatio (leftSign != rightSign) (left.1 * right.1) (left.2 * right.2)
  | .infinite leftSign, .finite rightSign significand _ =>
      if significand = 0 then .undefined else .infinite (leftSign != rightSign)
  | .finite leftSign significand _, .infinite rightSign =>
      if significand = 0 then .undefined else .infinite (leftSign != rightSign)
  | .infinite leftSign, .infinite rightSign => .infinite (leftSign != rightSign)
  | .undefined, _ => .undefined
  | _, .undefined => .undefined

/-- The rounded quotient. -/
def divide : Binary64 → Binary64 → Binary64
  | .finite leftSign leftSignificand leftExponent,
    .finite rightSign rightSignificand rightExponent =>
      if rightSignificand = 0 then
        if leftSignificand = 0 then .undefined else .infinite (leftSign != rightSign)
      else
        let left := ratio leftSignificand leftExponent
        let right := ratio rightSignificand rightExponent
        ofRatio (leftSign != rightSign) (left.1 * right.2) (left.2 * right.1)
  | .infinite leftSign, .finite rightSign _ _ => .infinite (leftSign != rightSign)
  | .finite leftSign _ _, .infinite rightSign =>
      .finite (leftSign != rightSign) 0 leastExponent
  | .infinite _, .infinite _ => .undefined
  | .undefined, _ => .undefined
  | _, .undefined => .undefined

/-- The whole part of a number as a 64-bit word: numbers below zero give zero
and numbers too large give the greatest word. -/
def toWord : Binary64 → Nat
  | .finite true _ _ => 0
  | .finite false significand exponent =>
      let parts := ratio significand exponent
      min (parts.1 / parts.2) 0xFFFFFFFFFFFFFFFF
  | .infinite negative => if negative then 0 else 0xFFFFFFFFFFFFFFFF
  | .undefined => 0

/-- The interchange form: a sign bit, eleven bits of biased exponent and 52
bits of fraction. -/
def toBits : Binary64 → Nat
  | .finite negative significand exponent =>
      let magnitude :=
        if significand < leastNormal then significand
        else (exponent + 1075).toNat * leastNormal + (significand - leastNormal)
      if negative then signBit + magnitude else magnitude
  | .infinite negative => (if negative then signBit else 0) + 0x7FF * leastNormal
  | .undefined => 0x7FF * leastNormal + leastNormal / 2

end Binary64
end EventRelay
