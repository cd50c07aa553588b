import EventRelay.Decimal.Reader
import EventRelay.Proofs.Text.Digits

/-!
# Decimals are read back from their text

The text of a decimal holds no more digits than a coefficient and a scale have room
for, so nothing is rounded when it is read: the coefficient and the scale come back
as they were.  The sign comes back too, but a zero has none when it is read.
-/

namespace EventRelay
namespace Decimal

/-- A decimal as it is read: a zero has no sign. -/
def withoutZeroSign (decimal : Decimal) : Decimal :=
  { decimal with negative := decimal.negative && decimal.coefficient != 0 }

theorem withoutZeroSign_eq_self
    {decimal : Decimal}
    (notZero : decimal.coefficient ≠ 0) :
    decimal.withoutZeroSign = decimal := by
  have nonzero : (decimal.coefficient != 0) = true := bne_iff_ne.mpr notZero
  rw [withoutZeroSign]
  simp only [nonzero, Bool.and_true]

/-- It stands for the same number. -/
theorem sameNumber_withoutZeroSign (decimal : Decimal) :
    decimal.sameNumber decimal.withoutZeroSign = true := by
  rw [sameNumber, beq_iff_eq]
  by_cases zero : decimal.coefficient = 0
  · simp [units, withoutZeroSign, zero]
  · rw [withoutZeroSign_eq_self zero]

/-! ## The characters of the text -/

/-- The digits of a decimal, with a point before those of its scale. -/
def digits (decimal : Decimal) : List Char :=
  Nat.toDigits 10 (decimal.coefficient / unit decimal.scale) ++
    if decimal.scale = 0 then []
    else '.' :: lastDigits decimal.scale (decimal.coefficient % unit decimal.scale)

theorem toList_text (decimal : Decimal) :
    decimal.text.toList = (if decimal.negative then ['-'] else []) ++ decimal.digits := by
  rw [text, digits]
  by_cases whole : decimal.scale = 0 <;> cases decimal.negative <;>
    simp [whole, String.toList_append]

/-! ## Reading digits -/

theorem digit?_eq_some
    {character : Char}
    (isDigit : character.isDigit = true) :
    digit? character = some (character.toNat - 48) :=
  if_pos ((isDigit_iff_toNat character).mp isDigit)

/-- What has been read after further digits. -/
def Progress.extend (progress : Progress) (digits : List Char) : Progress where
  negative := progress.negative
  hasDigit := progress.hasDigit || !digits.isEmpty
  hasPoint := progress.hasPoint
  coefficient := Nat.ofDigitChars 10 digits progress.coefficient
  scale := progress.scale + if progress.hasPoint then digits.length else 0

@[simp]
theorem Progress.extend_nil (progress : Progress) : progress.extend [] = progress := by
  simp [extend]

/-- Digits for which there is room are read without rounding. -/
theorem Progress.read_append
    {progress : Progress}
    {digits : List Char}
    (areDigits : AreDigits digits)
    (inScale : progress.hasPoint = true → progress.scale + digits.length ≤ maxScale)
    (inRange : Nat.ofDigitChars 10 digits progress.coefficient < coefficientBound)
    (rest : List Char) :
    progress.read (digits ++ rest) = (progress.extend digits).read rest := by
  induction digits generalizing progress with
  | nil => rw [List.nil_append, extend_nil]
  | cons character digits inductionHypothesis =>
      obtain ⟨isDigit, others⟩ := areDigits_cons.mp areDigits
      rw [ofDigitChars_cons] at inRange
      have hasRoom : (progress.hasPoint && decide (maxScale ≤ progress.scale)) = false := by
        cases hasPoint : progress.hasPoint with
        | false => rfl
        | true =>
            have within := inScale hasPoint
            rw [List.length_cons] at within
            exact decide_eq_false (by omega)
      have small : progress.coefficient * 10 + (character.toNat - 48) < coefficientBound :=
        Nat.lt_of_le_of_lt (le_ofDigitChars digits _) inRange
      rw [List.cons_append, read, digit?_eq_some isDigit]
      dsimp only
      rw [hasRoom, if_neg Bool.false_ne_true, if_pos small, inductionHypothesis others _ inRange]
      · congr 1
        simp only [extend, ofDigitChars_cons]
        cases progress.hasPoint <;> simp [Nat.add_comm, Nat.add_left_comm]
      · intro hasPoint
        have within := inScale hasPoint
        rw [List.length_cons] at within
        dsimp only
        rw [if_pos hasPoint]
        omega

/-! ## Reading the text -/

/-- The digits of the whole part and those of the scale are the coefficient. -/
theorem ofDigitChars_parts (decimal : Decimal) :
    Nat.ofDigitChars 10 (lastDigits decimal.scale (decimal.coefficient % unit decimal.scale))
      (decimal.coefficient / unit decimal.scale) = decimal.coefficient := by
  rw [ofDigitChars_lastDigits, Nat.mod_mod, Nat.div_add_mod']

/-- What has been read of a decimal before its point. -/
def beforePoint (decimal : Decimal) : Progress where
  negative := decimal.negative
  hasDigit := true
  hasPoint := false
  coefficient := decimal.coefficient / unit decimal.scale
  scale := 0

theorem Progress.read_point
    {progress : Progress}
    (noPoint : progress.hasPoint = false)
    (rest : List Char) :
    progress.read ('.' :: rest) = Progress.read { progress with hasPoint := true } rest := by
  rw [read, show digit? '.' = none by decide]
  simp only [noPoint, decide_true, Bool.not_false, Bool.and_self, if_true]

/-- With all its parts a decimal has been read. -/
theorem finish_eq (decimal : Decimal) (hasPoint : Bool) :
    Progress.finish ⟨decimal.negative, true, hasPoint, decimal.coefficient, decimal.scale⟩ =
      .ok decimal.withoutZeroSign := by
  have parts : ofParts? (decimal.negative && decimal.coefficient != 0) decimal.scale
      decimal.coefficient = some decimal.withoutZeroSign :=
    dif_pos ⟨decimal.scale_le, decimal.coefficient_lt⟩
  rw [Progress.finish, if_pos rfl, parts]

theorem read_whole (decimal : Decimal) (rest : List Char) :
    (Progress.start decimal.negative).read
        (Nat.toDigits 10 (decimal.coefficient / unit decimal.scale) ++ rest) =
      decimal.beforePoint.read rest := by
  have value_eq : Nat.ofDigitChars 10 (Nat.toDigits 10 (decimal.coefficient / unit decimal.scale))
      (Progress.start decimal.negative).coefficient = decimal.coefficient / unit decimal.scale :=
    Nat.ofDigitChars_ten_toDigits
  have inRange : decimal.coefficient / unit decimal.scale < coefficientBound :=
    Nat.lt_of_le_of_lt (Nat.div_le_self _ _) decimal.coefficient_lt
  have notEmpty : (Nat.toDigits 10 (decimal.coefficient / unit decimal.scale)).isEmpty = false :=
    List.isEmpty_eq_false_iff.mpr Nat.toDigits_ne_nil
  rw [Progress.read_append (areDigits_toDigits _) (by simp [Progress.start])
    (value_eq.symm ▸ inRange), Progress.extend, value_eq, notEmpty]
  rfl

/-- After the point there is room for all digits of the scale. -/
theorem read_fraction (decimal : Decimal) :
    Progress.read { decimal.beforePoint with hasPoint := true }
        (lastDigits decimal.scale (decimal.coefficient % unit decimal.scale)) =
      .ok decimal.withoutZeroSign := by
  have areDigits := areDigits_lastDigits decimal.scale (decimal.coefficient % unit decimal.scale)
  have parts := decimal.ofDigitChars_parts
  have inScale : 0 + (lastDigits decimal.scale (decimal.coefficient % unit decimal.scale)).length ≤
      maxScale := by
    rw [length_lastDigits, Nat.zero_add]
    exact decimal.scale_le
  rw [← List.append_nil (lastDigits _ _), Progress.read_append areDigits (fun _ => inScale)
    (parts.symm ▸ decimal.coefficient_lt), Progress.read, ← decimal.finish_eq true]
  simp [Progress.extend, beforePoint, parts]

/-- The digits of a decimal are read after its sign. -/
theorem read_digits (decimal : Decimal) :
    (Progress.start decimal.negative).read decimal.digits = .ok decimal.withoutZeroSign := by
  rw [digits, read_whole]
  by_cases whole : decimal.scale = 0
  · have all : decimal.coefficient / unit decimal.scale = decimal.coefficient := by
      rw [whole]
      exact Nat.div_one _
    rw [if_pos whole, Progress.read, ← decimal.finish_eq false, beforePoint, all, whole]
  · rw [if_neg whole, Progress.read_point rfl, read_fraction]

/-- Digits without a sign are read as such. -/
theorem readPositional_of_isDigit
    {character : Char}
    (isDigit : character.isDigit = true)
    (rest : List Char) :
    readPositional (character :: rest) = (Progress.start false).read (character :: rest) := by
  unfold readPositional
  split
  · rename_i nothing
    cases nothing
  · rename_i minus
    injection minus with first
    rw [first] at isDigit
    exact absurd isDigit (by decide)
  · rename_i plus
    injection plus with first
    rw [first] at isDigit
    exact absurd isDigit (by decide)
  · rfl

theorem exists_digits_eq_cons (decimal : Decimal) :
    ∃ first others, decimal.digits = first :: others ∧ first.isDigit = true := by
  have wholeDigits := areDigits_toDigits (decimal.coefficient / unit decimal.scale)
  rw [digits]
  cases whole : Nat.toDigits 10 (decimal.coefficient / unit decimal.scale) with
  | nil => exact absurd whole Nat.toDigits_ne_nil
  | cons first others =>
      rw [whole] at wholeDigits
      exact ⟨first, _, List.cons_append, (areDigits_cons.mp wholeDigits).1⟩

/-- The text of a decimal is read back: the coefficient, the scale and the sign, unless
it is that of a zero. -/
theorem read_text (decimal : Decimal) : read decimal.text = .ok decimal.withoutZeroSign := by
  have readBack : readPositional decimal.text.toList = .ok decimal.withoutZeroSign := by
    have digitsRead := read_digits decimal
    rw [toList_text]
    cases sign : decimal.negative with
    | true =>
        rw [sign] at digitsRead
        exact digitsRead
    | false =>
        obtain ⟨first, others, digits_eq, isDigit⟩ := exists_digits_eq_cons decimal
        rw [sign, digits_eq] at digitsRead
        rw [digits_eq, if_neg Bool.false_ne_true, List.nil_append,
          readPositional_of_isDigit isDigit, digitsRead]
  rw [read, readBack]

end Decimal
end EventRelay
