import EventRelay.Json.Number
import EventRelay.Proofs.Text.Digits

/-!
# Words are read back

The digits of a 64-bit word are gathered without loss, and read as this word if nothing
follows that goes on with a number.
-/

namespace EventRelay
namespace Json

theorem isDigit_eq (character : Char) : isDigit character = character.isDigit := by
  rw [Bool.eq_iff_iff, isDigit_iff_toNat, isDigit, Bool.and_eq_true, decide_eq_true_iff,
    decide_eq_true_iff]

/-- A text does not go on with a number. -/
def EndsNumber (text : List Char) : Prop :=
  ∀ first ∈ text.head?, isDigit first = false ∧ first ≠ '.' ∧ first ≠ 'e' ∧ first ≠ 'E'

instance (text : List Char) : Decidable (EndsNumber text) :=
  inferInstanceAs (Decidable (∀ first ∈ text.head?, _))

theorem endsNumber_cons {first : Char} (rest : List Char) :
    EndsNumber (first :: rest) ↔
      isDigit first = false ∧ first ≠ '.' ∧ first ≠ 'e' ∧ first ≠ 'E' := by
  simp [EndsNumber]

/-- Digits that fit are gathered. -/
theorem gather_append
    {digits rest : List Char}
    {significand : Nat}
    (areDigits : AreDigits digits)
    (fits : Nat.ofDigitChars 10 digits significand < 0x10000000000000000)
    (ends : EndsNumber rest)
    (count : Nat) :
    gather significand count (digits ++ rest) =
      (Nat.ofDigitChars 10 digits significand, count + digits.length, rest) := by
  induction digits generalizing significand count with
  | nil =>
      cases rest with
      | nil => rfl
      | cons first rest =>
          have notDigit := ((endsNumber_cons rest).mp ends).1
          rw [List.nil_append, gather, notDigit, Bool.false_and, if_neg Bool.false_ne_true]
          rfl
  | cons character digits inductionHypothesis =>
      obtain ⟨isDigit, others⟩ := areDigits_cons.mp areDigits
      rw [ofDigitChars_cons] at fits ⊢
      have small : significand * 10 + digitValue character < 0x10000000000000000 :=
        Nat.lt_of_le_of_lt (le_ofDigitChars digits _) fits
      rw [List.cons_append, gather, isDigit_eq, isDigit, Bool.true_and, decide_eq_true small,
        if_pos rfl, digitValue, inductionHypothesis others fits, List.length_cons,
        Nat.add_right_comm, Nat.add_assoc]

theorem readAfterWhole_of_endsNumber
    {rest : List Char}
    (ends : EndsNumber rest)
    (significand : Nat) :
    readAfterWhole false significand rest = .ok (.word significand, rest) := by
  unfold readAfterWhole
  split
  · exact absurd rfl ((endsNumber_cons _).mp ends).2.1
  · exact absurd rfl ((endsNumber_cons _).mp ends).2.2.1
  · exact absurd rfl ((endsNumber_cons _).mp ends).2.2.2
  · rfl

/-- Digits without a zero first are gathered. -/
theorem readUnsigned_of_gather
    {first : Char}
    {text rest : List Char}
    {significand count : Nat}
    (areDigits : first.isDigit = true)
    (notZero : first ≠ '0')
    (gathered : gather 0 0 (first :: text) = (significand, count, rest))
    (ends : EndsNumber rest) :
    readUnsigned false (first :: text) = readAfterWhole false significand rest := by
  have nothingDropped : rest.takeWhile isDigit = [] ∧ rest.dropWhile isDigit = rest := by
    cases rest with
    | nil => exact ⟨rfl, rfl⟩
    | cons next rest => simp [((endsNumber_cons rest).mp ends).1]
  unfold readUnsigned
  split
  · rename_i nothing
    cases nothing
  · rename_i isZero
    injection isZero with isZero
    exact absurd isZero notZero
  · rename_i same
    injection same with same
    subst same
    rw [isDigit_eq, areDigits, if_pos rfl, gathered]
    simp only [nothingDropped, List.isEmpty_nil, if_true]

/-- The digits of a word are read as the word. -/
theorem readUnsigned_toDigits
    {number : Nat}
    {rest : List Char}
    (word : number < 0x10000000000000000)
    (ends : EndsNumber rest) :
    readUnsigned false (Nat.toDigits 10 number ++ rest) = .ok (.word number, rest) := by
  have read := readAfterWhole_of_endsNumber ends number
  rcases Nat.eq_zero_or_pos number with rfl | positive
  · rw [Nat.toDigits_zero, List.singleton_append, readUnsigned.eq_def]
    cases rest with
    | nil => exact read
    | cons first rest =>
        have notDigit := ((endsNumber_cons rest).mp ends).1
        simp only [notDigit, Bool.false_eq_true, if_false]
        exact read
  · have areDigits := areDigits_toDigits number
    have value_eq : Nat.ofDigitChars 10 (Nat.toDigits 10 number) 0 = number :=
      Nat.ofDigitChars_ten_toDigits
    have gathered := gather_append areDigits (value_eq.symm ▸ word) ends 0
    rw [value_eq] at gathered
    cases digits : Nat.toDigits 10 number with
    | nil => exact absurd digits Nat.toDigits_ne_nil
    | cons first others =>
        have notZero : first ≠ '0' := by
          rintro rfl
          exact toDigits_ne_zero_cons positive others digits
        rw [digits] at areDigits gathered
        exact (readUnsigned_of_gather (areDigits_cons.mp areDigits).1 notZero gathered ends).trans
          read

/-- No digit is a minus sign, so a word is read without one. -/
theorem readNumber_toDigits
    {number : Nat}
    {rest : List Char}
    (word : number < 0x10000000000000000)
    (ends : EndsNumber rest) :
    readNumber (Nat.toDigits 10 number ++ rest) = .ok (.word number, rest) := by
  have areDigits := areDigits_toDigits number
  rw [← readUnsigned_toDigits word ends]
  unfold readNumber
  split
  · rename_i minus
    cases digits : Nat.toDigits 10 number with
    | nil => exact absurd digits Nat.toDigits_ne_nil
    | cons first others =>
        rw [digits] at areDigits minus
        injection minus with isMinus
        exact absurd (isMinus ▸ (areDigits_cons.mp areDigits).1) (by decide)
  · rfl

end Json
end EventRelay
