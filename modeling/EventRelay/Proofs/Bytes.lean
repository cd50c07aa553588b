import EventRelay.Bytes

/-!
# Byte strings as numbers

The big-endian number of a byte string is read part by part, and byte strings of
one length are compared as these numbers, or part by part.  A part of a known size
is split off a byte string exactly when there are enough bytes.
-/

namespace EventRelay
namespace Bytes

/-! ## Byte strings as numbers -/

theorem cardinality_pos (width : Nat) : 0 < cardinality width := by
  induction width with
  | zero => simp [cardinality]
  | succ width inductionHypothesis =>
      simp only [cardinality]
      omega

@[simp] theorem length_ofUInt64LE (word : UInt64) : (ofUInt64LE word).length = 8 :=
  length_ofNatLE 8 word.toNat

@[simp] theorem length_ofUInt32LE (word : UInt32) : (ofUInt32LE word).length = 4 :=
  length_ofNatLE 4 word.toNat

theorem ofNat_toNatLE_ofUInt64LE (word : UInt64) :
    UInt64.ofNat (toNatLE (ofUInt64LE word)) = word := by
  have bound : word.toNat < cardinality 8 := word.toNat_lt
  rw [ofUInt64LE, toNatLE_ofNatLE, Nat.mod_eq_of_lt bound, UInt64.ofNat_toNat]

theorem ofNat_toNatLE_ofUInt32LE (word : UInt32) :
    UInt32.ofNat (toNatLE (ofUInt32LE word)) = word := by
  have bound : word.toNat < cardinality 4 := word.toNat_lt
  rw [ofUInt32LE, toNatLE_ofNatLE, Nat.mod_eq_of_lt bound, UInt32.ofNat_toNat]

/-- Eight bytes are those of the word that they write. -/
theorem ofUInt64LE_ofNat_toNatLE
    {bytes : Bytes}
    (length_eq : bytes.length = 8) :
    ofUInt64LE (UInt64.ofNat (toNatLE bytes)) = bytes := by
  have bound := toNatLE_lt bytes
  rw [length_eq] at bound
  have fits : toNatLE bytes < 2 ^ 64 := bound
  rw [ofUInt64LE, UInt64.toNat_ofNat', Nat.mod_eq_of_lt fits, ← length_eq, ofNatLE_toNatLE]

/-- Four bytes are those of the word that they write. -/
theorem ofUInt32LE_ofNat_toNatLE
    {bytes : Bytes}
    (length_eq : bytes.length = 4) :
    ofUInt32LE (UInt32.ofNat (toNatLE bytes)) = bytes := by
  have bound := toNatLE_lt bytes
  rw [length_eq] at bound
  have fits : toNatLE bytes < 2 ^ 32 := bound
  rw [ofUInt32LE, UInt32.toNat_ofNat', Nat.mod_eq_of_lt fits, ← length_eq, ofNatLE_toNatLE]

/-- Byte strings of one length that write the same number are the same. -/
theorem eq_of_toNatLE_eq
    {left right : Bytes}
    (sameLength : left.length = right.length)
    (sameNumber : toNatLE left = toNatLE right) :
    left = right := by
  rw [← ofNatLE_toNatLE left, ← ofNatLE_toNatLE right, sameLength, sameNumber]

/-- Numbers that fit a width are known from their bytes. -/
theorem eq_of_ofNatLE_eq
    {width left right : Nat}
    (left_lt : left < cardinality width)
    (right_lt : right < cardinality width)
    (same : ofNatLE width left = ofNatLE width right) :
    left = right := by
  have numbers := congrArg toNatLE same
  rwa [toNatLE_ofNatLE, toNatLE_ofNatLE, Nat.mod_eq_of_lt left_lt,
    Nat.mod_eq_of_lt right_lt] at numbers

theorem toNatLE_append (left right : Bytes) :
    toNatLE (left ++ right) = toNatLE left + cardinality left.length * toNatLE right := by
  induction left with
  | nil => simp [toNatLE, cardinality]
  | cons byte rest inductionHypothesis =>
      simp only [List.cons_append, toNatLE, inductionHypothesis, List.length_cons, cardinality,
        Nat.mul_add, Nat.mul_assoc, Nat.add_assoc]

theorem toNatLE_take_le (count : Nat) (bytes : Bytes) :
    toNatLE (bytes.take count) ≤ toNatLE bytes := by
  have parts := toNatLE_append (bytes.take count) (bytes.drop count)
  rw [List.take_append_drop] at parts
  rw [parts]
  exact Nat.le_add_right _ _

theorem toNatBE_append (left right : Bytes) :
    toNatBE (left ++ right) = toNatBE left * cardinality right.length + toNatBE right := by
  rw [toNatBE, List.reverse_append, toNatLE_append, List.length_reverse, Nat.add_comm,
    Nat.mul_comm]
  rfl

theorem toNatBE_cons (byte : UInt8) (rest : Bytes) :
    toNatBE (byte :: rest) = byte.toNat * cardinality rest.length + toNatBE rest := by
  have singleton : toNatBE [byte] = byte.toNat := by simp [toNatBE, toNatLE]
  rw [show byte :: rest = [byte] ++ rest from rfl, toNatBE_append, singleton]

@[simp] theorem toNatBE_replicate_zero (count : Nat) :
    toNatBE (List.replicate count 0) = 0 := by
  induction count with
  | zero => rfl
  | succ count inductionHypothesis =>
      rw [List.replicate_succ, toNatBE_cons, inductionHypothesis]
      simp

/-- The greatest bytes write the greatest number of their width. -/
theorem toNatBE_replicate_greatest (count : Nat) :
    toNatBE (List.replicate count 0xFF) + 1 = cardinality count := by
  induction count with
  | zero => rfl
  | succ count inductionHypothesis =>
      have greatest : (0xFF : UInt8).toNat = 255 := rfl
      rw [List.replicate_succ, toNatBE_cons, List.length_replicate, greatest, cardinality]
      omega

/-- Byte strings of one length that write the same number are the same. -/
theorem eq_of_toNatBE_eq
    {left right : Bytes}
    (sameLength : left.length = right.length)
    (sameNumber : toNatBE left = toNatBE right) :
    left = right := by
  rw [← ofNatBE_toNatBE left, ← ofNatBE_toNatBE right, sameLength, sameNumber]

/-- The greater leading byte makes the greater number. -/
theorem toNatBE_cons_lt_of_lt
    {leftByte rightByte : UInt8}
    {left right : Bytes}
    (sameLength : left.length = right.length)
    (less : leftByte.toNat < rightByte.toNat) :
    toNatBE (leftByte :: left) < toNatBE (rightByte :: right) := by
  have leftBound := toNatBE_lt left
  have step : (leftByte.toNat + 1) * cardinality right.length ≤
      rightByte.toNat * cardinality right.length :=
    Nat.mul_le_mul_right _ less
  rw [Nat.add_mul, Nat.one_mul] at step
  rw [toNatBE_cons, toNatBE_cons, sameLength]
  rw [sameLength] at leftBound
  omega

/-- Bytes are compared as the numbers that they write. -/
theorem compare_byte (left right : UInt8) :
    Ord.compare left right = Ord.compare left.toNat right.toNat := by
  simp only [Ord.compare, compareOfLessAndEq, UInt8.lt_iff_toNat_lt, ← UInt8.toNat_inj]

/-- Words of 64 bits are compared as the numbers that they write. -/
theorem compare_word (left right : UInt64) :
    Ord.compare left right = Ord.compare left.toNat right.toNat := by
  simp only [Ord.compare, compareOfLessAndEq, UInt64.lt_iff_toNat_lt, ← UInt64.toNat_inj]

theorem compare_cons_cons (leftByte rightByte : UInt8) (left right : Bytes) :
    compare (leftByte :: left) (rightByte :: right) =
      (Ord.compare leftByte rightByte).then (compare left right) :=
  List.compareLex_cons_cons

/-- Byte strings of one length are compared as the numbers that they write. -/
theorem compare_eq_compare_toNatBE
    {left right : Bytes}
    (sameLength : left.length = right.length) :
    compare left right = Ord.compare (toNatBE left) (toNatBE right) := by
  induction left generalizing right with
  | nil =>
      cases right with
      | nil => rfl
      | cons byte rest => cases sameLength
  | cons leftByte left inductionHypothesis =>
      cases right with
      | nil => cases sameLength
      | cons rightByte right =>
          have tailLength : left.length = right.length := Nat.succ.inj sameLength
          rw [compare_cons_cons, inductionHypothesis tailLength]
          rcases Nat.lt_trichotomy leftByte.toNat rightByte.toNat with less | same | greater
          · have bytes : Ord.compare leftByte rightByte = .lt := by
              rw [compare_byte]
              exact Nat.compare_eq_lt.mpr less
            rw [bytes, Ordering.lt_then]
            exact (Nat.compare_eq_lt.mpr (toNatBE_cons_lt_of_lt tailLength less)).symm
          · have bytes : leftByte = rightByte := UInt8.toNat_inj.mp same
            rw [bytes, toNatBE_cons, toNatBE_cons, tailLength]
            simp [Nat.compare_eq_ite_lt]
          · have bytes : Ord.compare leftByte rightByte = .gt := by
              rw [compare_byte]
              exact Nat.compare_eq_gt.mpr greater
            rw [bytes, Ordering.gt_then]
            exact (Nat.compare_eq_gt.mpr (toNatBE_cons_lt_of_lt tailLength.symm greater)).symm

/-- Numbers that fit a width are compared as the bytes that write them. -/
theorem compare_ofNatBE
    {width left right : Nat}
    (left_lt : left < cardinality width)
    (right_lt : right < cardinality width) :
    compare (ofNatBE width left) (ofNatBE width right) = Ord.compare left right := by
  have sameLength : (ofNatBE width left).length = (ofNatBE width right).length := by
    rw [length_ofNatBE, length_ofNatBE]
  rw [compare_eq_compare_toNatBE sameLength, toNatBE_ofNatBE, toNatBE_ofNatBE,
    Nat.mod_eq_of_lt left_lt, Nat.mod_eq_of_lt right_lt]

/-- Byte strings with fronts of one length are compared by the fronts first. -/
theorem compare_append
    {left right : Bytes}
    (sameLength : left.length = right.length)
    (leftRest rightRest : Bytes) :
    compare (left ++ leftRest) (right ++ rightRest) =
      (compare left right).then (compare leftRest rightRest) := by
  induction left generalizing right with
  | nil =>
      cases right with
      | nil => rfl
      | cons byte rest => cases sameLength
  | cons leftByte left inductionHypothesis =>
      cases right with
      | nil => cases sameLength
      | cons rightByte right =>
          have tailLength : left.length = right.length := Nat.succ.inj sameLength
          rw [List.cons_append, List.cons_append, compare_cons_cons, compare_cons_cons,
            inductionHypothesis tailLength, Ordering.then_assoc]

/-! ## Parts of byte strings -/

theorem split?_append (front rest : Bytes) :
    split? front.length (front ++ rest) = some (front, rest) :=
  split?_eq_some_iff.mpr ⟨rfl, rfl⟩

/-- A front of a known size is split off. -/
theorem split?_append_of_length
    {front : Bytes}
    {count : Nat}
    (length_front : front.length = count)
    (rest : Bytes) :
    split? count (front ++ rest) = some (front, rest) :=
  split?_eq_some_iff.mpr ⟨length_front, rfl⟩

theorem split?_eq_none_iff
    {count : Nat}
    {bytes : Bytes} :
    split? count bytes = none ↔ bytes.length < count := by
  rw [split?, List.length_take]
  split
  · rename_i enough
    refine iff_of_false (by simp) ?_
    omega
  · rename_i tooFew
    refine iff_of_true rfl ?_
    omega

end Bytes
end EventRelay
