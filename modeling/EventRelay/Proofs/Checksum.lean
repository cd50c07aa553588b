import EventRelay.Checksum
import EventRelay.Proofs.Bytes
import Mathlib.Data.Nat.Bitwise

/-!
# What the checksum notices

The register is shifted by a linear map that loses nothing, and up to four bytes
are taken in by adding them to the register and shifting it past them.  So two
byte strings that differ only within four consecutive bytes never leave the same
register, and a checksum that stands behind its data is checked by running over
both: damage may also cross from the data into the checksum.
-/

namespace EventRelay
namespace Checksum

/-! ## Shifting -/

theorem and_one_eq_zero_iff (register : UInt32) :
    register &&& 1 = 0 ↔ register.toNat % 2 = 0 := by
  rw [← UInt32.toNat_inj, UInt32.toNat_and]
  exact Nat.and_one_is_mod register.toNat ▸ Iff.rfl

theorem toNat_shiftRight_one (register : UInt32) :
    (register >>> 1).toNat = register.toNat / 2 := by
  rw [UInt32.toNat_shiftRight]
  exact Nat.shiftRight_one register.toNat

theorem shift_of_even
    {register : UInt32}
    (even : register.toNat % 2 = 0) :
    shift register = register >>> 1 :=
  if_pos ((and_one_eq_zero_iff register).mpr even)

theorem shift_of_odd
    {register : UInt32}
    (odd : register.toNat % 2 = 1) :
    shift register = (register >>> 1) ^^^ polynomial :=
  if_neg fun isZero => by
    have even := (and_one_eq_zero_iff register).mp isZero
    omega

/-- Shifting is linear. -/
theorem shift_xor (left right : UInt32) :
    shift (left ^^^ right) = shift left ^^^ shift right := by
  have parity : (left ^^^ right).toNat % 2 = (left.toNat + right.toNat) % 2 := by
    rw [UInt32.toNat_xor, Nat.xor_mod_two_eq]
  rcases Nat.mod_two_eq_zero_or_one left.toNat with leftEven | leftOdd <;>
    rcases Nat.mod_two_eq_zero_or_one right.toNat with rightEven | rightOdd
  · rw [shift_of_even leftEven, shift_of_even rightEven, shift_of_even (by omega),
      UInt32.shiftRight_xor]
  · rw [shift_of_even leftEven, shift_of_odd rightOdd, shift_of_odd (by omega),
      UInt32.shiftRight_xor, UInt32.xor_assoc]
  · rw [shift_of_odd leftOdd, shift_of_even rightEven, shift_of_odd (by omega),
      UInt32.shiftRight_xor, UInt32.xor_assoc, UInt32.xor_assoc, UInt32.xor_comm polynomial]
  · rw [shift_of_odd leftOdd, shift_of_odd rightOdd, shift_of_even (by omega),
      UInt32.shiftRight_xor, UInt32.xor_assoc, UInt32.xor_comm polynomial, UInt32.xor_assoc,
      UInt32.xor_self, UInt32.xor_zero]

/-- Only the empty register is shifted to the empty one: the polynomial has a bit
that nothing is shifted onto. -/
theorem eq_zero_of_shift_eq_zero
    {register : UInt32}
    (isZero : shift register = 0) :
    register = 0 := by
  have bound := register.toNat_lt
  rw [← UInt32.toNat_inj]
  rcases Nat.mod_two_eq_zero_or_one register.toNat with even | odd
  · rw [shift_of_even even, ← UInt32.toNat_inj, toNat_shiftRight_one] at isZero
    change register.toNat / 2 = 0 at isZero
    change register.toNat = 0
    omega
  · rw [shift_of_odd odd, UInt32.xor_eq_zero_iff, ← UInt32.toNat_inj, toNat_shiftRight_one]
      at isZero
    change register.toNat / 2 = 0x82F63B78 at isZero
    omega

theorem shifts_xor (count : Nat) (left right : UInt32) :
    shifts count (left ^^^ right) = shifts count left ^^^ shifts count right := by
  induction count generalizing left right with
  | zero => rfl
  | succ count inductionHypothesis => rw [shifts, shift_xor, inductionHypothesis, shifts, shifts]

theorem eq_zero_of_shifts_eq_zero
    {count : Nat}
    {register : UInt32}
    (isZero : shifts count register = 0) :
    register = 0 := by
  induction count generalizing register with
  | zero => exact isZero
  | succ count inductionHypothesis =>
      exact eq_zero_of_shift_eq_zero (inductionHypothesis isZero)

/-- Shifting loses nothing. -/
theorem shifts_injective (count : Nat) : Function.Injective (shifts count) := by
  intro left right same
  have difference : shifts count (left ^^^ right) = 0 := by
    rw [shifts_xor, same, UInt32.xor_self]
  exact UInt32.xor_eq_zero_iff.mp (eq_zero_of_shifts_eq_zero difference)

theorem shifts_add (count more : Nat) (register : UInt32) :
    shifts (count + more) register = shifts more (shifts count register) := by
  induction count generalizing register with
  | zero => rw [Nat.zero_add, shifts]
  | succ count inductionHypothesis =>
      rw [Nat.succ_add, shifts, shifts, inductionHypothesis]

/-- Bits that stand high enough are only moved down. -/
theorem shifts_ofNat_two_pow_mul
    {count value : Nat}
    (fits : 2 ^ count * value < 2 ^ 32) :
    shifts count (UInt32.ofNat (2 ^ count * value)) = UInt32.ofNat value := by
  induction count with
  | zero => rw [Nat.pow_zero, Nat.one_mul, shifts]
  | succ count inductionHypothesis =>
      rw [Nat.pow_succ, Nat.mul_comm (2 ^ count) 2, Nat.mul_assoc] at fits ⊢
      have whole : (UInt32.ofNat (2 * (2 ^ count * value))).toNat = 2 * (2 ^ count * value) := by
        rw [UInt32.toNat_ofNat', Nat.mod_eq_of_lt fits]
      have halved : UInt32.ofNat (2 * (2 ^ count * value)) >>> 1 =
          UInt32.ofNat (2 ^ count * value) := by
        rw [← UInt32.toNat_inj, toNat_shiftRight_one, whole, UInt32.toNat_ofNat',
          Nat.mod_eq_of_lt (by omega), Nat.mul_div_cancel_left _ (by decide)]
      rw [shifts, shift_of_even (by omega), halved, inductionHypothesis (by omega)]

/-! ## Taking bytes in -/

theorem absorb_injective (byte : UInt8) : Function.Injective (absorb · byte) := by
  intro left right same
  exact (UInt32.xor_left_inj _).mp (shifts_injective 8 same)

/-- Different registers stay different, whatever bytes follow. -/
theorem run_injective (bytes : Bytes) : Function.Injective (run · bytes) := by
  induction bytes with
  | nil => exact fun left right same => same
  | cons byte rest inductionHypothesis =>
      intro left right same
      exact absorb_injective byte (inductionHypothesis same)

/-- The first byte of a word is added to the others without carry. -/
theorem ofNat_toNatLE_cons (byte : UInt8) (rest : Bytes) :
    UInt32.ofNat (Bytes.toNatLE (byte :: rest)) =
      byte.toUInt32 ^^^ UInt32.ofNat (2 ^ 8 * Bytes.toNatLE rest) := by
  have bound := byte.toNat_lt
  have parts : byte.toNat ^^^ 2 ^ 8 * Bytes.toNatLE rest =
      byte.toNat + 2 ^ 8 * Bytes.toNatLE rest := by
    have low := Nat.xor_mod_two_pow (a := byte.toNat) (b := 2 ^ 8 * Bytes.toNatLE rest) (n := 8)
    have high := Nat.xor_div_two_pow (a := byte.toNat) (b := 2 ^ 8 * Bytes.toNatLE rest) (n := 8)
    rw [Nat.mul_mod_right, Nat.xor_zero, Nat.mod_eq_of_lt bound] at low
    rw [Nat.mul_div_cancel_left _ (by decide), Nat.div_eq_of_lt bound, Nat.zero_xor] at high
    omega
  rw [Bytes.toNatLE, ← UInt32.toNat_inj, UInt32.toNat_xor, UInt32.toNat_ofNat',
    UInt32.toNat_ofNat', UInt8.toNat_toUInt32, show (256 : Nat) = 2 ^ 8 from rfl, ← parts,
    Nat.xor_mod_two_pow, Nat.mod_eq_of_lt (by omega : byte.toNat < 2 ^ 32)]

/-- Up to four bytes are added to the register, which is then shifted past them. -/
theorem run_eq_shifts
    {bytes : Bytes}
    (short : bytes.length ≤ 4)
    (register : UInt32) :
    run register bytes =
      shifts (8 * bytes.length) (register ^^^ UInt32.ofNat (Bytes.toNatLE bytes)) := by
  induction bytes generalizing register with
  | nil => exact (UInt32.xor_zero (a := register)).symm
  | cons byte rest inductionHypothesis =>
      rw [List.length_cons] at short
      have bound : Bytes.toNatLE rest < 2 ^ 24 :=
        Nat.lt_of_lt_of_le (Bytes.toNatLE_lt rest)
          (Bytes.cardinality_le_cardinality (by omega : rest.length ≤ 3))
      have movedDown : shifts 8 (UInt32.ofNat (2 ^ 8 * Bytes.toNatLE rest)) =
          UInt32.ofNat (Bytes.toNatLE rest) :=
        shifts_ofNat_two_pow_mul (by omega)
      calc run register (byte :: rest)
          = shifts (8 * rest.length)
              (shifts 8 (register ^^^ byte.toUInt32) ^^^
                UInt32.ofNat (Bytes.toNatLE rest)) :=
            inductionHypothesis (by omega) _
        _ = shifts (8 * rest.length)
              (shifts 8 (register ^^^ byte.toUInt32 ^^^
                UInt32.ofNat (2 ^ 8 * Bytes.toNatLE rest))) := by
            rw [shifts_xor 8 (register ^^^ byte.toUInt32), movedDown]
        _ = shifts (8 * (byte :: rest).length)
              (register ^^^ UInt32.ofNat (Bytes.toNatLE (byte :: rest))) := by
            rw [ofNat_toNatLE_cons, ← UInt32.xor_assoc, ← shifts_add, List.length_cons,
              Nat.mul_succ, Nat.add_comm]

/-- Different short strings leave different registers. -/
theorem eq_of_run_eq
    {left right : Bytes}
    (sameLength : left.length = right.length)
    (short : left.length ≤ 4)
    {register : UInt32}
    (same : run register left = run register right) :
    left = right := by
  rw [run_eq_shifts short, run_eq_shifts (sameLength ▸ short), sameLength] at same
  have sameWord := (UInt32.xor_right_inj register).mp (shifts_injective _ same)
  have bound (bytes : Bytes) (small : bytes.length ≤ 4) : Bytes.toNatLE bytes < 2 ^ 32 :=
    Nat.lt_of_lt_of_le (Bytes.toNatLE_lt bytes) (Bytes.cardinality_le_cardinality small)
  rw [← UInt32.toNat_inj, UInt32.toNat_ofNat', UInt32.toNat_ofNat',
    Nat.mod_eq_of_lt (bound left short), Nat.mod_eq_of_lt (bound right (sameLength ▸ short))]
    at sameWord
  exact Bytes.eq_of_toNatLE_eq sameLength sameWord

end Checksum

/-! ## Bursts -/

namespace Bytes

/-- Byte strings of one length that differ only within four consecutive bytes. -/
structure Burst (left right : Bytes) : Prop where
  length_eq : left.length = right.length
  exists_start : ∃ start, ∀ index : Nat, left[index]? ≠ right[index]? →
    start ≤ index ∧ index < start + 4

theorem exists_getElem?_ne
    {left right : Bytes}
    (different : left ≠ right) :
    ∃ index : Nat, left[index]? ≠ right[index]? := by
  by_contra nowhere
  push Not at nowhere
  exact different (List.ext_getElem? nowhere)

/-- Parts of a burst that start at one place are a burst. -/
theorem Burst.drop
    {left right : Bytes}
    (burst : Burst left right)
    (count : Nat) :
    Burst (left.drop count) (right.drop count) := by
  obtain ⟨length_eq, start, within⟩ := burst
  refine ⟨by rw [List.length_drop, List.length_drop, length_eq], start - count, ?_⟩
  intro index different
  rw [List.getElem?_drop, List.getElem?_drop] at different
  have bounds := within (count + index) different
  omega

section Within

variable {left right : Bytes} {start : Nat}

/-- Strings agree up to the place where their differences start. -/
theorem take_eq_take_of_within
    (within : ∀ index : Nat, left[index]? ≠ right[index]? → start ≤ index ∧ index < start + 4)
    {count : Nat}
    (early : count ≤ start) :
    left.take count = right.take count := by
  refine List.ext_getElem? fun index => ?_
  by_contra different
  rw [List.getElem?_take, List.getElem?_take] at different
  split at different
  · have bounds := within index different
    omega
  · exact different rfl

/-- Strings agree from the place on where their differences have ended. -/
theorem drop_eq_drop_of_within
    (within : ∀ index : Nat, left[index]? ≠ right[index]? → start ≤ index ∧ index < start + 4)
    {count : Nat}
    (late : start + 4 ≤ count) :
    left.drop count = right.drop count := by
  refine List.ext_getElem? fun index => ?_
  by_contra different
  rw [List.getElem?_drop, List.getElem?_drop] at different
  have bounds := within _ different
  omega

end Within

/-- Nothing is different from four bytes after a difference on. -/
theorem Burst.drop_eq
    {left right : Bytes}
    (burst : Burst left right)
    {index : Nat}
    (different : left[index]? ≠ right[index]?) :
    left.drop (index + 4) = right.drop (index + 4) := by
  obtain ⟨_, start, within⟩ := burst
  have first := within index different
  exact drop_eq_drop_of_within within (by omega)

/-- Nothing is different up to three bytes before a difference. -/
theorem Burst.take_eq
    {left right : Bytes}
    (burst : Burst left right)
    {index : Nat}
    (different : left[index]? ≠ right[index]?) :
    left.take (index - 3) = right.take (index - 3) := by
  obtain ⟨_, start, within⟩ := burst
  have last := within index different
  exact take_eq_take_of_within within (by omega)

/-- The strings of a burst have a common beginning, a part of at most four bytes
each, and a common end. -/
theorem Burst.exists_parts
    {left right : Bytes}
    (burst : Burst left right) :
    ∃ before leftPart rightPart after,
      left = before ++ (leftPart ++ after) ∧ right = before ++ (rightPart ++ after) ∧
        leftPart.length = rightPart.length ∧ leftPart.length ≤ 4 := by
  obtain ⟨length_eq, start, within⟩ := burst
  have beginning := take_eq_take_of_within within (Nat.le_refl start)
  have ending := drop_eq_drop_of_within within (Nat.le_refl (start + 4))
  have parted (bytes : Bytes) : bytes =
      bytes.take start ++ ((bytes.drop start).take 4 ++ bytes.drop (start + 4)) := by
    rw [← List.drop_drop, List.take_append_drop, List.take_append_drop]
  refine ⟨left.take start, (left.drop start).take 4, (right.drop start).take 4,
    left.drop (start + 4), parted left, ?_, ?_, ?_⟩
  · rw [beginning, ending]
    exact parted right
  · simp only [List.length_take, List.length_drop, length_eq]
  · exact List.length_take_le 4 _

/-- Bytes with a part put over them from a place on. -/
def overwrite (bytes : Bytes) (start : Nat) (part : Bytes) : Bytes :=
  bytes.take start ++ (part ++ bytes.drop (start + part.length))

theorem burst_overwrite
    {bytes part : Bytes}
    {start : Nat}
    (short : part.length ≤ 4)
    (within : start + part.length ≤ bytes.length) :
    Burst bytes (bytes.overwrite start part) := by
  have length_beginning : (bytes.take start).length = start :=
    List.length_take_of_le (by omega)
  refine ⟨?_, start, fun index different => ?_⟩
  · rw [overwrite, List.length_append, List.length_append, length_beginning, List.length_drop]
    omega
  · by_contra outside
    apply different
    rw [overwrite]
    by_cases early : index < start
    · rw [List.getElem?_append_left (by omega), List.getElem?_take_of_lt early]
    · rw [List.getElem?_append_right (by omega), List.getElem?_append_right (by omega),
        List.getElem?_drop, length_beginning]
      congr 1
      omega

end Bytes

namespace Checksum

open Bytes (Burst)

/-- The strings of a burst leave different registers, unless they are the same. -/
theorem eq_of_burst
    {left right : Bytes}
    (burst : Burst left right)
    {register : UInt32}
    (same : run register left = run register right) :
    left = right := by
  obtain ⟨before, leftPart, rightPart, after, rfl, rfl, sameLength, short⟩ := burst.exists_parts
  rw [run_append, run_append, run_append, run_append] at same
  rw [eq_of_run_eq sameLength short (run_injective after same)]

theorem eq_of_crc32c_eq
    {left right : Bytes}
    (burst : Burst left right)
    (same : crc32c left = crc32c right) :
    left = right :=
  eq_of_burst burst ((UInt32.xor_left_inj _).mp same)

/-! ## Data with its checksum -/

/-- The last four bytes are the checksum of the bytes before them. -/
def Sealed (bytes : Bytes) : Prop :=
  bytes.drop (bytes.length - 4) =
    Bytes.ofUInt32LE (crc32c (bytes.take (bytes.length - 4)))

theorem sealed_append_iff
    {data sum : Bytes}
    (length_sum : sum.length = 4) :
    Sealed (data ++ sum) ↔ sum = Bytes.ofUInt32LE (crc32c data) := by
  have length_data : (data ++ sum).length - 4 = data.length := by
    rw [List.length_append, length_sum, Nat.add_sub_cancel]
  rw [Sealed, length_data, List.drop_left, List.take_left]

/-- Data and its checksum together always leave the same register. -/
theorem run_append_ofUInt32LE_crc32c (data : Bytes) :
    run 0xFFFFFFFF (data ++ Bytes.ofUInt32LE (crc32c data)) = shifts 32 0xFFFFFFFF := by
  rw [run_append, run_eq_shifts (Nat.le_of_eq (Bytes.length_ofUInt32LE _)),
    Bytes.length_ofUInt32LE, Bytes.ofNat_toNatLE_ofUInt32LE, crc32c, ← UInt32.xor_assoc,
    UInt32.xor_self, UInt32.zero_xor]

theorem Sealed.run_eq
    {bytes : Bytes}
    (isSealed : Sealed bytes) :
    run 0xFFFFFFFF bytes = shifts 32 0xFFFFFFFF := by
  have parts := List.take_append_drop (bytes.length - 4) bytes
  rw [isSealed] at parts
  rw [← run_append_ofUInt32LE_crc32c (bytes.take (bytes.length - 4)), parts]

/-- A burst of damage breaks the seal, wherever it is. -/
theorem Sealed.eq_of_burst
    {left right : Bytes}
    (leftSealed : Sealed left)
    (rightSealed : Sealed right)
    (burst : Burst left right) :
    left = right :=
  Checksum.eq_of_burst burst (leftSealed.run_eq.trans rightSealed.run_eq.symm)

end Checksum
end EventRelay
