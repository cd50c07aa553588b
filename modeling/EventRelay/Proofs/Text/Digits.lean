import EventRelay.Decimal.Basic

/-!
# Decimal digits

The digits of a number stand for the number, and so do its last digits for what is
left of it by a power of ten.  The number that digits stand for does not get smaller
with further digits.  Only zero is written with a zero first.
-/

namespace EventRelay

/-- All characters are decimal digits. -/
def AreDigits (text : List Char) : Prop :=
  ∀ character ∈ text, character.isDigit = true

theorem areDigits_cons {character : Char} {text : List Char} :
    AreDigits (character :: text) ↔ character.isDigit = true ∧ AreDigits text :=
  List.forall_mem_cons

/-- The digits are those whose codes are from 48 up to 57. -/
theorem isDigit_iff_toNat (character : Char) :
    character.isDigit = true ↔ 48 ≤ character.toNat ∧ character.toNat ≤ 57 := by
  rw [Char.isDigit, Bool.and_eq_true, decide_eq_true_iff, decide_eq_true_iff]
  exact and_congr UInt32.le_iff_toNat_le UInt32.le_iff_toNat_le

theorem areDigits_toDigits (number : Nat) : AreDigits (Nat.toDigits 10 number) :=
  fun _ => Nat.isDigit_of_mem_toDigits (by decide) (by decide)

theorem ofDigitChars_cons (character : Char) (text : List Char) (number : Nat) :
    Nat.ofDigitChars 10 (character :: text) number =
      Nat.ofDigitChars 10 text (number * 10 + (character.toNat - 48)) := by
  rw [Nat.ofDigitChars_cons, Nat.mul_comm]
  rfl

/-- Further digits do not make a number smaller. -/
theorem le_ofDigitChars (text : List Char) (number : Nat) :
    number ≤ Nat.ofDigitChars 10 text number := by
  induction text generalizing number with
  | nil => exact Nat.le_of_eq Nat.ofDigitChars_nil.symm
  | cons character text inductionHypothesis =>
      rw [ofDigitChars_cons]
      exact Nat.le_trans (by omega) (inductionHypothesis _)

/-- A number above zero is not written with a zero first. -/
theorem toDigits_ne_zero_cons
    {number : Nat}
    (positive : 0 < number)
    (rest : List Char) :
    Nat.toDigits 10 number ≠ '0' :: rest := by
  induction number using Nat.strongRecOn generalizing rest with
  | ind number inductionHypothesis =>
      rw [Nat.toDigits_eq_if (by decide)]
      by_cases small : number < 10
      · rw [if_pos small]
        intro same
        injection same with first
        rw [Nat.digitChar_eq_zero] at first
        omega
      · rw [if_neg small]
        intro same
        cases digits : Nat.toDigits 10 (number / 10) with
        | nil => exact Nat.toDigits_ne_nil digits
        | cons first others =>
            rw [digits, List.cons_append] at same
            injection same with isZero
            rw [isZero] at digits
            exact inductionHypothesis (number / 10) (by omega) (by omega) others digits

namespace Decimal

theorem ofNat_eq_digitChar : ∀ digit < 10, Char.ofNat (48 + digit) = Nat.digitChar digit := by
  decide

theorem lastDigits_succ (count number : Nat) :
    lastDigits (count + 1) number =
      lastDigits count (number / 10) ++ [Nat.digitChar (number % 10)] := by
  rw [lastDigits, ofNat_eq_digitChar _ (Nat.mod_lt _ (by decide))]

theorem areDigits_lastDigits (count number : Nat) : AreDigits (lastDigits count number) := by
  induction count generalizing number with
  | zero => exact List.forall_mem_nil _
  | succ count inductionHypothesis =>
      intro character present
      rw [lastDigits_succ] at present
      rcases List.mem_append.mp present with earlier | last
      · exact inductionHypothesis (number / 10) character earlier
      · rw [List.mem_singleton.mp last, Nat.isDigit_digitChar, decide_eq_true_iff]
        exact Nat.mod_lt _ (by decide)

@[simp]
theorem length_lastDigits (count number : Nat) : (lastDigits count number).length = count := by
  induction count generalizing number with
  | zero => rfl
  | succ count inductionHypothesis =>
      rw [lastDigits, List.length_append, inductionHypothesis, List.length_singleton]

theorem unit_succ (scale : Nat) : unit (scale + 1) = 10 * unit scale :=
  Nat.pow_succ'

/-- The last digits after a number add what is left by the power of ten. -/
theorem ofDigitChars_lastDigits (count number before : Nat) :
    Nat.ofDigitChars 10 (lastDigits count number) before =
      before * unit count + number % unit count := by
  induction count generalizing number with
  | zero =>
      have nothingLeft : number % unit 0 = 0 := Nat.mod_one number
      rw [nothingLeft]
      exact (Nat.mul_one before).symm
  | succ count inductionHypothesis =>
      rw [lastDigits_succ, Nat.ofDigitChars_append, inductionHypothesis,
        Nat.ofDigitChars_cons_digitChar_of_lt_ten (Nat.mod_lt _ (by decide)),
        Nat.ofDigitChars_nil, unit_succ, Nat.mod_mul, Nat.mul_left_comm]
      omega

end Decimal
end EventRelay
