import EventRelay.Key.Basic
import EventRelay.Proofs.Bytes

/-!
# The order of keys

The rank of a key is the big-endian number that it writes.  Keys are ordered by
rank, the time of a key is the high half of its rank, and the successor of a key
is the key of the next rank.
-/

namespace EventRelay
namespace Key

/-! ## Keys as numbers -/

/-- The number that a key writes. -/
def rank (key : Key) : Nat :=
  Bytes.toNatBE key.bytes

theorem rank_lt (key : Key) : key.rank < Bytes.cardinality size := by
  have bound := Bytes.toNatBE_lt key.bytes
  rwa [key.length_bytes] at bound

/-- Keys of one rank are the same. -/
theorem eq_of_rank_eq
    {left right : Key}
    (same : left.rank = right.rank) :
    left = right := by
  have sameBytes : left.bytes = right.bytes :=
    Bytes.eq_of_toNatBE_eq (left.length_bytes.trans right.length_bytes.symm) same
  cases left
  cases right
  simpa using sameBytes

theorem rank_inj {left right : Key} : left.rank = right.rank ↔ left = right :=
  ⟨eq_of_rank_eq, fun same => same ▸ rfl⟩

/-- Keys are compared by rank. -/
theorem compare_eq_compare_rank (left right : Key) :
    left.compare right = Ord.compare left.rank right.rank :=
  Bytes.compare_eq_compare_toNatBE (left.length_bytes.trans right.length_bytes.symm)

/-- A key is less than another one when it compares so. -/
instance : LT Key where
  lt left right := left.compare right = .lt

/-- A key is at most another one when it does not compare as greater. -/
instance : LE Key where
  le left right := left.compare right ≠ .gt

instance (left right : Key) : Decidable (left < right) :=
  inferInstanceAs (Decidable (left.compare right = .lt))

instance (left right : Key) : Decidable (left ≤ right) :=
  inferInstanceAs (Decidable (left.compare right ≠ .gt))

theorem lt_iff_rank_lt {left right : Key} : left < right ↔ left.rank < right.rank := by
  change left.compare right = .lt ↔ _
  rw [compare_eq_compare_rank, Nat.compare_eq_lt]

theorem le_iff_rank_le {left right : Key} : left ≤ right ↔ left.rank ≤ right.rank := by
  change left.compare right ≠ .gt ↔ _
  rw [compare_eq_compare_rank, Nat.compare_ne_gt]

theorem compare_eq_lt_iff {left right : Key} : left.compare right = .lt ↔ left < right :=
  Iff.rfl

theorem compare_eq_eq_iff {left right : Key} : left.compare right = .eq ↔ left = right := by
  rw [compare_eq_compare_rank, Nat.compare_eq_eq, rank_inj]

theorem compare_eq_gt_iff {left right : Key} : left.compare right = .gt ↔ right < left := by
  rw [compare_eq_compare_rank, Nat.compare_eq_gt, lt_iff_rank_lt]

theorem isGE_compare_iff {left right : Key} :
    (left.compare right).isGE = true ↔ right ≤ left := by
  rw [compare_eq_compare_rank, le_iff_rank_le, Nat.isGE_compare]

theorem lt_trans
    {first second third : Key}
    (lower : first < second)
    (upper : second < third) :
    first < third := by
  rw [lt_iff_rank_lt] at lower upper ⊢
  omega

theorem lt_irrefl (key : Key) : ¬key < key := by
  rw [lt_iff_rank_lt]
  exact Nat.lt_irrefl _

theorem lt_asymm
    {left right : Key}
    (less : left < right) :
    ¬right < left := by
  rw [lt_iff_rank_lt] at less ⊢
  omega

theorem le_refl (key : Key) : key ≤ key :=
  le_iff_rank_le.mpr (Nat.le_refl _)

theorem le_trans
    {first second third : Key}
    (lower : first ≤ second)
    (upper : second ≤ third) :
    first ≤ third := by
  rw [le_iff_rank_le] at lower upper ⊢
  exact Nat.le_trans lower upper

theorem lt_of_lt_of_le
    {first second third : Key}
    (lower : first < second)
    (upper : second ≤ third) :
    first < third := by
  rw [lt_iff_rank_lt] at lower ⊢
  rw [le_iff_rank_le] at upper
  omega

theorem le_of_lt
    {left right : Key}
    (less : left < right) :
    left ≤ right := by
  rw [lt_iff_rank_lt] at less
  rw [le_iff_rank_le]
  omega

theorem ne_of_lt
    {left right : Key}
    (less : left < right) :
    left ≠ right := by
  rintro rfl
  exact lt_irrefl left less

theorem not_le {left right : Key} : ¬left ≤ right ↔ right < left := by
  rw [le_iff_rank_le, lt_iff_rank_lt, Nat.not_le]

theorem not_lt {left right : Key} : ¬left < right ↔ right ≤ left := by
  rw [← not_le, Decidable.not_not]

theorem le_antisymm
    {left right : Key}
    (lower : left ≤ right)
    (upper : right ≤ left) :
    left = right := by
  rw [le_iff_rank_le] at lower upper
  exact eq_of_rank_eq (Nat.le_antisymm lower upper)

/-! ## The time of a key -/

theorem rank_make (timestamp : UInt64) (symbol : Bytes) :
    (make timestamp symbol).rank =
      timestamp.toNat * Bytes.cardinality labelSize + Bytes.toNatBE (label symbol) := by
  have small : timestamp.toNat < Bytes.cardinality 8 := timestamp.toNat_lt
  rw [rank, make, Bytes.toNatBE_append, length_label, Bytes.toNatBE_ofNatBE,
    Nat.mod_eq_of_lt small]

/-- The time of a key is the high half of its rank. -/
theorem toNat_timestamp (key : Key) :
    key.timestamp.toNat = key.rank / Bytes.cardinality labelSize := by
  have high : (key.bytes.take 8).length = 8 := by simp [key.length_bytes]
  have low : (key.bytes.drop 8).length = labelSize := by simp [key.length_bytes, labelSize]
  have highBound := Bytes.toNatBE_lt (key.bytes.take 8)
  have lowBound := Bytes.toNatBE_lt (key.bytes.drop 8)
  rw [high] at highBound
  rw [low] at lowBound
  have parted : key.rank = Bytes.toNatBE (key.bytes.take 8) * Bytes.cardinality labelSize +
      Bytes.toNatBE (key.bytes.drop 8) := by
    rw [rank, ← low, ← Bytes.toNatBE_append, List.take_append_drop]
  rw [parted, Nat.add_comm, Nat.add_mul_div_right _ _ (Bytes.cardinality_pos _),
    Nat.div_eq_of_lt lowBound, Nat.zero_add, timestamp, UInt64.toNat_ofNat']
  exact Nat.mod_eq_of_lt highBound

@[simp] theorem timestamp_make (timestamp : UInt64) (symbol : Bytes) :
    (make timestamp symbol).timestamp = timestamp := by
  have labelBound := Bytes.toNatBE_lt (label symbol)
  rw [length_label] at labelBound
  apply UInt64.toNat_inj.mp
  rw [toNat_timestamp, rank_make, Nat.add_comm,
    Nat.add_mul_div_right _ _ (Bytes.cardinality_pos _), Nat.div_eq_of_lt labelBound,
    Nat.zero_add]

/-- Later keys have later times. -/
theorem timestamp_le_of_le
    {left right : Key}
    (ordered : left ≤ right) :
    left.timestamp ≤ right.timestamp := by
  rw [UInt64.le_iff_toNat_le, toNat_timestamp, toNat_timestamp]
  exact Nat.div_le_div_right (le_iff_rank_le.mp ordered)

/-- The least key of a time is the least key that is not earlier. -/
theorem first_le_iff
    {timestamp : UInt64}
    {key : Key} :
    first timestamp ≤ key ↔ timestamp ≤ key.timestamp := by
  rw [le_iff_rank_le, first, rank_make, UInt64.le_iff_toNat_le, toNat_timestamp,
    Nat.le_div_iff_mul_le (Bytes.cardinality_pos _)]
  simp [label]

/-- The least key of time zero is the least of all keys. -/
theorem first_zero_le (key : Key) : first 0 ≤ key :=
  first_le_iff.mpr (UInt64.le_iff_toNat_le.mpr (Nat.zero_le _))

/-! ## Successors -/

/-- Nothing can be added only where every byte is the greatest. -/
theorem increment_eq_none_iff {bytes : Bytes} :
    increment bytes = none ↔ bytes = List.replicate bytes.length 0xFF := by
  induction bytes with
  | nil => exact iff_of_true rfl rfl
  | cons byte rest inductionHypothesis =>
      rw [increment, List.length_cons, List.replicate_succ, List.cons.injEq,
        ← inductionHypothesis]
      cases increment rest with
      | some raised => simp
      | none => simp

/-- Nothing can be added to the greatest number of a width only. -/
theorem toNatBE_of_increment_eq_none
    {bytes : Bytes}
    (atLimit : increment bytes = none) :
    Bytes.toNatBE bytes + 1 = Bytes.cardinality bytes.length := by
  rw [increment_eq_none_iff.mp atLimit, Bytes.toNatBE_replicate_greatest,
    List.length_replicate]

/-- Adding one adds one to the number. -/
theorem toNatBE_of_increment_eq_some
    {bytes raised : Bytes}
    (incremented : increment bytes = some raised) :
    Bytes.toNatBE raised = Bytes.toNatBE bytes + 1 := by
  induction bytes generalizing raised with
  | nil => cases incremented
  | cons byte rest inductionHypothesis =>
      rw [increment] at incremented
      split at incremented
      · rename_i raisedRest restIncremented
        cases incremented
        rw [Bytes.toNatBE_cons, Bytes.toNatBE_cons, inductionHypothesis restIncremented,
          length_of_increment_eq_some restIncremented, Nat.add_assoc]
      · rename_i restAtLimit
        split at incremented
        · cases incremented
        · rename_i notGreatest
          cases incremented
          have restNumber := toNatBE_of_increment_eq_none restAtLimit
          have byteNumber : (byte + 1).toNat = byte.toNat + 1 := by
            have bound := byte.toNat_lt
            have different : byte.toNat ≠ 255 := fun same =>
              notGreatest (UInt8.toNat_inj.mp same)
            rw [UInt8.toNat_add, UInt8.toNat_one]
            omega
          rw [Bytes.toNatBE_cons, Bytes.toNatBE_cons, Bytes.toNatBE_replicate_zero,
            List.length_replicate, byteNumber, Nat.add_mul]
          omega

/-- The successor of a key is the key of the next rank. -/
theorem rank_of_successor_eq_some
    {key next : Key}
    (following : key.successor = some next) :
    next.rank = key.rank + 1 := by
  unfold successor at following
  split at following
  · rename_i raised incremented
    cases following
    exact toNatBE_of_increment_eq_some incremented
  · cases following

/-- A key without a successor has the greatest rank. -/
theorem rank_of_successor_eq_none
    {key : Key}
    (atLimit : key.successor = none) :
    key.rank + 1 = Bytes.cardinality size := by
  unfold successor at atLimit
  split at atLimit
  · cases atLimit
  · rename_i incremented
    have number := toNatBE_of_increment_eq_none incremented
    rwa [key.length_bytes] at number

/-- The keys from a successor on are the keys above. -/
theorem successor_le_iff
    {key next other : Key}
    (following : key.successor = some next) :
    next ≤ other ↔ key < other := by
  rw [le_iff_rank_le, lt_iff_rank_lt, rank_of_successor_eq_some following]
  omega

/-- No key is above one without a successor. -/
theorem not_lt_of_successor_eq_none
    {key : Key}
    (atLimit : key.successor = none)
    (other : Key) :
    ¬key < other := by
  have limit := rank_of_successor_eq_none atLimit
  have bound := other.rank_lt
  rw [lt_iff_rank_lt]
  omega

end Key
end EventRelay
