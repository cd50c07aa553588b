import EventRelay.Bytes

/-!
# Exact decimal numbers

A price is a sign, a coefficient of at most 96 bits and a scale of at most 28
digits after the point.  The scale is part of the value: `1.5` and `1.50` are
different decimals that stand for one number.  This module holds the type, the
number that a decimal stands for, its packed form of sixteen bytes, and its
text.
-/

namespace EventRelay

/-- A signed decimal number with a fixed number of digits after the point. -/
structure Decimal where
  /-- Whether the sign is a minus; a zero may have either sign. -/
  negative : Bool
  /-- How many digits stand after the point. -/
  scale : Nat
  /-- The digits as one number. -/
  coefficient : Nat
  /-- There are at most 28 digits after the point. -/
  scale_le : scale ≤ 28
  /-- The coefficient has at most 96 bits. -/
  coefficient_lt : coefficient < 0x1000000000000000000000000
deriving DecidableEq, Repr

namespace Decimal

/-- The greatest scale. -/
def maxScale : Nat := 28

/-- The number of different coefficients. -/
def coefficientBound : Nat := 0x1000000000000000000000000

/-- The decimal of given parts, if they are in range. -/
def ofParts? (negative : Bool) (scale coefficient : Nat) : Option Decimal :=
  if inRange : scale ≤ 28 ∧ coefficient < 0x1000000000000000000000000 then
    some ⟨negative, scale, coefficient, inRange.1, inRange.2⟩
  else none

/-- The number of units of a scale that make up one. -/
def unit (scale : Nat) : Nat := Nat.pow 10 scale

/-- The number that a decimal stands for, in units of `10 ^ -28`. -/
def units (decimal : Decimal) : Int :=
  let magnitude := decimal.coefficient * unit (28 - decimal.scale)
  if decimal.negative then -(magnitude : Int) else magnitude

/-- Whether two decimals stand for the same number. -/
def sameNumber (left right : Decimal) : Bool :=
  left.units == right.units

/-! ## The packed form -/

/-- The first word of the packed form: the scale in the third byte and the
sign in the top bit. -/
def flags (decimal : Decimal) : Nat :=
  decimal.scale * 0x10000 + if decimal.negative then 0x80000000 else 0

/-- The packed form: the flags in four bytes and the coefficient in twelve,
both least significant byte first. -/
def pack (decimal : Decimal) : Bytes :=
  Bytes.ofNatLE 4 decimal.flags ++ Bytes.ofNatLE 12 decimal.coefficient

/-- Lose the digits past the greatest scale.  A remainder of five or more
raises the last digit that is kept. -/
def lose (coefficient excess : Nat) : Nat :=
  coefficient / unit excess + if 5 ≤ coefficient % unit excess then 1 else 0

theorem lose_lt
    {coefficient excess : Nat}
    (coefficient_lt : coefficient < 0x1000000000000000000000000)
    (excess_pos : 0 < excess) :
    lose coefficient excess < 0x1000000000000000000000000 := by
  have tenfold : 10 ≤ unit excess := by
    calc 10 = unit 1 := rfl
      _ ≤ unit excess := Nat.pow_le_pow_right (by decide) excess_pos
  have quotient_le : coefficient / unit excess ≤ coefficient / 10 :=
    Nat.div_le_div_left tenfold (by decide)
  unfold lose
  split <;> omega

/-- The decimal of a packed form.  Only the sign bit and five bits of scale
are read from the flags; a scale past the greatest one loses its last digits. -/
def ofWords (flags coefficient : Nat) (coefficient_lt : coefficient < 0x1000000000000000000000000) :
    Decimal :=
  let negative := flags / 0x80000000 % 2 = 1
  let scale := flags / 0x10000 % 32
  if inRange : scale ≤ 28 then
    ⟨negative, scale, coefficient, inRange, coefficient_lt⟩
  else
    ⟨negative, 28, lose coefficient (scale - 28), Nat.le_refl _,
      lose_lt coefficient_lt (Nat.sub_pos_of_lt (Nat.lt_of_not_le inRange))⟩

/-- The decimal of sixteen packed bytes. -/
def unpack (bytes : Bytes) : Decimal :=
  ofWords (Bytes.toNatLE (bytes.take 4)) (Bytes.toNatLE ((bytes.drop 4).take 12)) (by
    refine Nat.lt_of_lt_of_le (Bytes.toNatLE_lt _) ?_
    calc Bytes.cardinality ((bytes.drop 4).take 12).length
        ≤ Bytes.cardinality 12 := Bytes.cardinality_le_cardinality (by rw [List.length_take]; omega)
      _ = 0x1000000000000000000000000 := by decide)

@[simp] theorem length_pack (decimal : Decimal) :
    decimal.pack.length = 16 := by
  simp [pack]

/-! ## The text -/

/-- The last `count` decimal digits of a number, most significant first. -/
def lastDigits : (count : Nat) → (value : Nat) → List Char
  | 0, _ => []
  | count + 1, value => lastDigits count (value / 10) ++ [Char.ofNat (48 + value % 10)]

/-- The text of a decimal: exactly as many digits after the point as its scale
says, and a minus sign exactly when its sign is a minus. -/
def text (decimal : Decimal) : String :=
  let unit := unit decimal.scale
  let whole := toString (decimal.coefficient / unit)
  let magnitude :=
    if decimal.scale = 0 then whole
    else whole ++ "." ++ String.ofList (lastDigits decimal.scale (decimal.coefficient % unit))
  if decimal.negative then "-" ++ magnitude else magnitude

end Decimal
end EventRelay
