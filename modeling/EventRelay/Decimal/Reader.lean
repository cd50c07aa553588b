import EventRelay.Decimal.Basic

/-!
# Reading decimal numbers

A number is read from an optional sign, digits with at most one point, and
underscores between digits.  Digits past the greatest scale or past the 96 bits
of the coefficient are rounded away, a half going up.  A text that is no such
number may still be one in scientific notation.
-/

namespace EventRelay
namespace Decimal

/-- Why a text is no decimal number. -/
inductive ReadError where
  /-- The text is empty. -/
  | empty
  /-- The text holds no digit. -/
  | noDigits
  /-- The text holds a second point. -/
  | secondPoint
  /-- An underscore comes before every digit. -/
  | leadingSeparator
  /-- A character has no place in a number. -/
  | unknownCharacter
  /-- The whole part has more than 96 bits. -/
  | tooManyDigits
  /-- Rounding up leaves the range and there is no digit to give up. -/
  | roundingOverflow
  /-- The exponent of a scientific number is malformed. -/
  | badExponent
  /-- The exponent of a scientific number is out of range. -/
  | exponentTooLarge (exponent : Nat)
  /-- A scientific number is out of range. -/
  | numberTooLarge
deriving DecidableEq, Repr

/-- The text of the error. -/
def ReadError.message : ReadError → String
  | .empty => "Invalid decimal: empty"
  | .noDigits => "Invalid decimal: no digits found"
  | .secondPoint => "Invalid decimal: two decimal points"
  | .leadingSeparator => "Invalid decimal: must start lead with a number"
  | .unknownCharacter => "Invalid decimal: unknown character"
  | .tooManyDigits => "Invalid decimal: overflow from too many digits"
  | .roundingOverflow => "Invalid decimal: overflow from mantissa after rounding"
  | .badExponent => "Failed to parse"
  | .exponentTooLarge exponent =>
      "Scale exceeds the maximum precision allowed: " ++ toString exponent ++ " > 28"
  | .numberTooLarge => "Number exceeds maximum value that can be represented."

/-- The number that a decimal digit stands for. -/
def digit? (character : Char) : Option Nat :=
  let code := character.toNat
  if 48 ≤ code ∧ code ≤ 57 then some (code - 48) else none

/-- The error of a character that cannot continue a number. -/
def misplaced (character : Char) : ReadError :=
  if character = '.' then .secondPoint
  else if character = '_' then .leadingSeparator
  else .unknownCharacter

/-- What has been read of a number so far. -/
structure Progress where
  /-- Whether the sign is a minus. -/
  negative : Bool
  /-- Whether a digit was read. -/
  hasDigit : Bool
  /-- Whether the point was read. -/
  hasPoint : Bool
  /-- The digits read, as a number. -/
  coefficient : Nat
  /-- The number of digits read after the point. -/
  scale : Nat

/-- The number that has been read.  A zero has no sign. -/
def Progress.finish (progress : Progress) : Except ReadError Decimal :=
  if progress.hasDigit then
    match ofParts? (progress.negative && progress.coefficient != 0)
        progress.scale progress.coefficient with
    | some decimal => .ok decimal
    | none => .error .tooManyDigits
  else .error .noDigits

/-- Digits and underscores may follow the digit that decided the rounding. -/
def checkIgnored : List Char → Except ReadError Unit
  | [] => .ok ()
  | character :: rest =>
      if (digit? character).isSome || character = '_' then checkIgnored rest
      else .error (misplaced character)

/-- Round by the first digit that finds no place.  When rounding up leaves the
range, the last digit after the point is given up. -/
def Progress.round (progress : Progress) (digit : Nat) : Except ReadError Progress :=
  if digit < 5 then .ok progress
  else
    let raised := progress.coefficient + 1
    if raised < coefficientBound then .ok { progress with coefficient := raised }
    else if progress.scale = 0 then .error .roundingOverflow
    else .ok { progress with coefficient := (raised + 4) / 10, scale := progress.scale - 1 }

/-- Round, then read the characters that follow the digit deciding the
rounding. -/
def Progress.roundBefore
    (progress : Progress)
    (digit : Nat)
    (rest : List Char) : Except ReadError Decimal := do
  let rounded ← progress.round digit
  checkIgnored rest
  rounded.finish

/-- Read the rest of a number. -/
def Progress.read (progress : Progress) : List Char → Except ReadError Decimal
  | [] => progress.finish
  | character :: rest =>
      match digit? character with
      | some digit =>
          let extended := progress.coefficient * 10 + digit
          if progress.hasPoint && decide (maxScale ≤ progress.scale) then
            progress.roundBefore digit rest
          else if extended < coefficientBound then
            Progress.read
              { progress with
                hasDigit := true
                coefficient := extended
                scale := progress.scale + if progress.hasPoint then 1 else 0 }
              rest
          else if progress.hasPoint then progress.roundBefore digit rest
          else .error .tooManyDigits
      | none =>
          if character = '.' && !progress.hasPoint then
            Progress.read { progress with hasPoint := true } rest
          else if character = '_' && progress.hasDigit then
            Progress.read progress rest
          else .error (misplaced character)

/-- Nothing read yet. -/
def Progress.start (negative : Bool) : Progress :=
  ⟨negative, false, false, 0, 0⟩

/-- Read a number in positional notation. -/
def readPositional : List Char → Except ReadError Decimal
  | [] => .error .empty
  | '-' :: rest => (Progress.start true).read rest
  | '+' :: rest => (Progress.start false).read rest
  | characters => (Progress.start false).read characters

/-! ## Scientific notation -/

/-- The digits of a 32-bit number, after a sign that may only be a plus. -/
def readWord? (characters : List Char) : Option Nat :=
  let digits := match characters with
    | '+' :: rest => rest
    | other => other
  if digits.isEmpty then none
  else
    let accumulated := digits.foldl
      (fun total character => match total, digit? character with
        | some number, some digit => some (number * 10 + digit)
        | _, _ => none)
      (some 0)
    accumulated.filter (· < 0x100000000)

/-- Divide by a power of ten, a half going up. -/
def dropDigits (coefficient count : Nat) : Nat :=
  if count = 0 then coefficient
  else (coefficient + 5 * unit (count - 1)) / unit count

/-- The parts given, or the error of a number out of range. -/
def orTooLarge : Option Decimal → Except ReadError Decimal
  | some decimal => .ok decimal
  | none => .error .numberTooLarge

/-- Divide a decimal by `10 ^ exponent`. -/
def shrink (base : Decimal) (exponent : Nat) : Except ReadError Decimal :=
  if maxScale < exponent then .error (.exponentTooLarge exponent)
  else if base.scale + exponent ≤ maxScale then
    orTooLarge (ofParts? base.negative (base.scale + exponent) base.coefficient)
  else
    orTooLarge (ofParts? base.negative maxScale
      (dropDigits base.coefficient (base.scale + exponent - maxScale)))

/-- Multiply a decimal by `10 ^ exponent`. -/
def grow (base : Decimal) (exponent : Nat) : Except ReadError Decimal :=
  if exponent ≤ base.scale then
    orTooLarge (ofParts? base.negative (base.scale - exponent) base.coefficient)
  else if maxScale < exponent then .error (.exponentTooLarge exponent)
  else
    let product := base.coefficient * unit (exponent - base.scale)
    orTooLarge (ofParts? (base.negative && product != 0) 0 product)

/-- Read a number in scientific notation: a number, a letter `e` and an
exponent. -/
def readScientific (characters : List Char) : Except ReadError Decimal :=
  let isMark := fun character : Char => character = 'e' || character = 'E'
  let base := characters.takeWhile (!isMark ·)
  let exponent := (characters.dropWhile (!isMark ·)).drop 1
  match readPositional base with
  | .error error => .error error
  | .ok decimal =>
      match exponent with
      | '-' :: magnitude =>
          match readWord? magnitude with
          | some size => decimal.shrink size
          | none => .error .badExponent
      | _ =>
          match readWord? exponent with
          | some size => decimal.grow size
          | none => .error .badExponent

/-- Read a decimal number.  Scientific notation is tried when the text is no
positional number and holds a letter `e`. -/
def read (source : String) : Except ReadError Decimal :=
  let characters := source.toList
  match readPositional characters with
  | .ok decimal => .ok decimal
  | .error error =>
      if characters.any (fun character => character = 'e' || character = 'E') then
        readScientific characters
      else .error error

end Decimal
end EventRelay
