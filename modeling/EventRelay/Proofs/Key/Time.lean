import EventRelay.Proofs.Key.Order
import Mathlib.Order.Bounds.Defs
import Mathlib.Order.Defs.PartialOrder

/-!
# Keys in the order of time

Keys are compared by time first, and at one time by the label of the symbol.  The
keys of a time therefore stand together, from the least key of that time to the
greatest one, and the keys from a time on are those from its least key on.  The
successor of a key is the key that covers it, also where a time ends, and only the
key whose bytes are all the greatest has none.
-/

namespace EventRelay
namespace Key

/-! ## The keys of a time -/

/-- Keys are compared by time first, and then by label. -/
theorem compare_make
    (leftTime rightTime : UInt64)
    (left right : Bytes) :
    (make leftTime left).compare (make rightTime right) =
      (Ord.compare leftTime rightTime).then (Bytes.compare (label left) (label right)) := by
  have sameWidth : (Bytes.ofNatBE 8 leftTime.toNat).length =
      (Bytes.ofNatBE 8 rightTime.toNat).length := by
    rw [Bytes.length_ofNatBE, Bytes.length_ofNatBE]
  rw [compare, make, make, Bytes.compare_append sameWidth,
    Bytes.compare_ofNatBE leftTime.toNat_lt rightTime.toNat_lt, Bytes.compare_word]

/-- The rank of the greatest key of a time is the last one before the next time. -/
theorem rank_last_add_one (timestamp : UInt64) :
    (last timestamp).rank + 1 = (timestamp.toNat + 1) * Bytes.cardinality labelSize := by
  have filled : label (List.replicate labelSize 0xFF) = List.replicate labelSize 0xFF := rfl
  rw [last, rank_make, filled, Nat.add_assoc, Bytes.toNatBE_replicate_greatest, Nat.add_mul,
    Nat.one_mul]

/-- The greatest key of a time is the greatest key that is not later. -/
theorem le_last_iff
    {timestamp : UInt64}
    {key : Key} :
    key ≤ last timestamp ↔ key.timestamp ≤ timestamp := by
  rw [le_iff_rank_le, ← Nat.lt_succ_iff, Nat.succ_eq_add_one, rank_last_add_one,
    UInt64.le_iff_toNat_le, toNat_timestamp, ← Nat.lt_succ_iff,
    Nat.div_lt_iff_lt_mul (Bytes.cardinality_pos _)]

theorem isLeast_first (timestamp : UInt64) :
    IsLeast {key | key.timestamp = timestamp} (first timestamp) := by
  refine ⟨timestamp_make timestamp _, fun key sameTime => first_le_iff.mpr ?_⟩
  exact UInt64.le_of_eq sameTime.symm

theorem isGreatest_last (timestamp : UInt64) :
    IsGreatest {key | key.timestamp = timestamp} (last timestamp) := by
  refine ⟨timestamp_make timestamp _, fun key sameTime => le_last_iff.mpr ?_⟩
  exact UInt64.le_of_eq sameTime

/-! ## The next key -/

/-- The successor of a key is the key above with none between. -/
theorem successor_eq_some_iff {key next : Key} : key.successor = some next ↔ key ⋖ next := by
  -- A successor and a covering key are both the least of the keys above.
  constructor
  · intro following
    have least {other : Key} : next ≤ other ↔ key < other := successor_le_iff following
    exact ⟨least.mp (le_refl next), fun other above => not_lt.mpr (least.mpr above)⟩
  · rintro ⟨above, noneBetween⟩
    cases following : key.successor with
    | none => exact absurd above (not_lt_of_successor_eq_none following next)
    | some other =>
        have least {third : Key} : other ≤ third ↔ key < third := successor_le_iff following
        have other_le : other ≤ next := least.mpr above
        have le_other : next ≤ other := not_lt.mp (noneBetween (least.mp (le_refl other)))
        rw [le_antisymm other_le le_other]

/-- Only the key whose bytes are all the greatest has no successor. -/
theorem successor_eq_none_iff {key : Key} :
    key.successor = none ↔ key.bytes = List.replicate size 0xFF := by
  have atLimit : key.successor = none ↔ increment key.bytes = none := by
    unfold successor
    split
    · rename_i raised incremented
      simp [incremented]
    · rename_i incremented
      simp [incremented]
  rw [atLimit, increment_eq_none_iff, key.length_bytes, size]

/-- The greatest key of a time is followed by the least key of the next time. -/
theorem successor_last
    {timestamp : UInt64}
    (notLast : timestamp ≠ 0xFFFFFFFFFFFFFFFF) :
    (last timestamp).successor = some (first (timestamp + 1)) := by
  have nextTime : (timestamp + 1).toNat = timestamp.toNat + 1 := by
    have bound := timestamp.toNat_lt
    have different : timestamp.toNat ≠ 0xFFFFFFFFFFFFFFFF := fun same =>
      notLast (UInt64.toNat_inj.mp same)
    rw [UInt64.toNat_add, UInt64.toNat_one]
    omega
  have below_iff {key : Key} : key < first (timestamp + 1) ↔ key.timestamp ≤ timestamp := by
    rw [← not_le, first_le_iff, UInt64.not_le, UInt64.lt_iff_toNat_lt, nextTime,
      UInt64.le_iff_toNat_le, Nat.lt_succ_iff]
  refine successor_eq_some_iff.mpr ⟨below_iff.mpr ?_, fun key above below => ?_⟩
  · exact UInt64.le_of_eq (timestamp_make timestamp _)
  · exact not_le.mpr above (le_last_iff.mpr (below_iff.mp below))

example : (last 7).successor = some (first 8) := by decide

/-! ## Keys follow time -/

/-- Keys are compared by time and then by label.  The least and the greatest key of a
time are the least and the greatest of all keys of that time, so the keys from the least
key of a time on are those that are not earlier.  The successor of a key is the next key,
and only the key whose bytes are all the greatest has none. -/
theorem follows_time :
    (∀ (leftTime rightTime : UInt64) (left right : Bytes),
      (make leftTime left).compare (make rightTime right) =
        (Ord.compare leftTime rightTime).then (Bytes.compare (label left) (label right))) ∧
    (∀ timestamp : UInt64,
      IsLeast {key : Key | key.timestamp = timestamp} (first timestamp) ∧
      IsGreatest {key : Key | key.timestamp = timestamp} (last timestamp)) ∧
    (∀ (cutoff : UInt64) (key : Key), first cutoff ≤ key ↔ cutoff ≤ key.timestamp) ∧
    ∀ key : Key,
      (∀ next, key.successor = some next ↔ key ⋖ next) ∧
      (key.successor = none ↔ key.bytes = List.replicate size 0xFF) := by
  refine ⟨compare_make, fun timestamp => ?_, fun cutoff key => first_le_iff, fun key => ?_⟩
  · exact ⟨isLeast_first timestamp, isGreatest_last timestamp⟩
  · exact ⟨fun next => successor_eq_some_iff, successor_eq_none_iff⟩

end Key
end EventRelay
