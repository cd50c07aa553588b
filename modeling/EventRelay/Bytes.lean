/-!
# Byte strings and machine words

A byte string is a list of bytes.  This module fixes the little-endian and
big-endian byte forms of a natural number at a given width and their inverses,
and the lexicographic order on byte strings.  The main statements are that
reading back a written number gives its residue at that width, and that
writing back a number read from a byte string gives the string.
-/

namespace EventRelay

/-- A finite string of bytes. -/
abbrev Bytes := List UInt8

namespace Bytes

/-- The least significant `width` bytes of a number, least significant first. -/
def ofNatLE : (width : Nat) → (value : Nat) → Bytes
  | 0, _ => []
  | width + 1, value => UInt8.ofNat value :: ofNatLE width (value / 256)

/-- The number whose base-256 digits are the given bytes, least significant first. -/
def toNatLE : Bytes → Nat
  | [] => 0
  | byte :: rest => byte.toNat + 256 * toNatLE rest

/-- The least significant `width` bytes of a number, most significant first. -/
def ofNatBE (width value : Nat) : Bytes :=
  (ofNatLE width value).reverse

/-- The number whose base-256 digits are the given bytes, most significant first. -/
def toNatBE (bytes : Bytes) : Nat :=
  toNatLE bytes.reverse

@[simp] theorem length_ofNatLE (width value : Nat) :
    (ofNatLE width value).length = width := by
  induction width generalizing value with
  | zero => rfl
  | succ width inductionHypothesis => simp [ofNatLE, inductionHypothesis]

@[simp] theorem length_ofNatBE (width value : Nat) :
    (ofNatBE width value).length = width := by
  simp [ofNatBE]

/-- The number of byte strings of a given length. -/
def cardinality : (width : Nat) → Nat
  | 0 => 1
  | width + 1 => 256 * cardinality width

/-- Reading a written number gives its residue modulo the number of byte
strings of its width. -/
theorem toNatLE_ofNatLE (width value : Nat) :
    toNatLE (ofNatLE width value) = value % cardinality width := by
  induction width generalizing value with
  | zero => simp [ofNatLE, toNatLE, cardinality, Nat.mod_one]
  | succ width inductionHypothesis =>
      rw [cardinality, Nat.mod_mul]
      simp [ofNatLE, toNatLE, inductionHypothesis]

/-- Writing a number read from a byte string gives the string back. -/
theorem ofNatLE_toNatLE (bytes : Bytes) :
    ofNatLE bytes.length (toNatLE bytes) = bytes := by
  induction bytes with
  | nil => rfl
  | cons byte rest inductionHypothesis =>
      have byte_lt := byte.toNat_lt
      have quotient :
          (byte.toNat + 256 * toNatLE rest) / 256 = toNatLE rest := by omega
      simp only [List.length_cons, toNatLE, ofNatLE, quotient, inductionHypothesis]
      congr 1
      apply UInt8.toNat_inj.mp
      simp only [UInt8.toNat_ofNat']
      omega

/-- A byte string reads as a number below the number of those of its length. -/
theorem toNatLE_lt (bytes : Bytes) :
    toNatLE bytes < cardinality bytes.length := by
  induction bytes with
  | nil => simp [toNatLE, cardinality]
  | cons byte rest inductionHypothesis =>
      have byte_lt := byte.toNat_lt
      simp only [toNatLE, List.length_cons, cardinality]
      omega

theorem cardinality_le_cardinality
    {left right : Nat}
    (left_le : left ≤ right) :
    cardinality left ≤ cardinality right := by
  induction left_le with
  | refl => exact Nat.le_refl _
  | step _ inductionHypothesis =>
      rw [cardinality]
      omega

theorem toNatBE_ofNatBE (width value : Nat) :
    toNatBE (ofNatBE width value) = value % cardinality width := by
  simp [toNatBE, ofNatBE, toNatLE_ofNatLE]

theorem ofNatBE_toNatBE (bytes : Bytes) :
    ofNatBE bytes.length (toNatBE bytes) = bytes := by
  have reversed := ofNatLE_toNatLE bytes.reverse
  rw [List.length_reverse] at reversed
  simp [ofNatBE, toNatBE, reversed]

theorem toNatBE_lt (bytes : Bytes) :
    toNatBE bytes < cardinality bytes.length := by
  simpa [toNatBE] using toNatLE_lt bytes.reverse

/-- A 64-bit word as eight bytes, least significant first. -/
def ofUInt64LE (word : UInt64) : Bytes :=
  ofNatLE 8 word.toNat

/-- A 32-bit word as four bytes, least significant first. -/
def ofUInt32LE (word : UInt32) : Bytes :=
  ofNatLE 4 word.toNat

/-- The lexicographic order of byte strings; a proper beginning comes first. -/
def compare (left right : Bytes) : Ordering :=
  List.compareLex Ord.compare left right

/-- The first `count` bytes and the rest, when there are that many. -/
def split? (count : Nat) (bytes : Bytes) : Option (Bytes × Bytes) :=
  if (bytes.take count).length = count then some (bytes.take count, bytes.drop count) else none

theorem split?_eq_some_iff
    {count : Nat}
    {bytes front rest : Bytes} :
    split? count bytes = some (front, rest) ↔
      front.length = count ∧ bytes = front ++ rest := by
  unfold split?
  split
  · rename_i enough
    rw [Option.some_inj, Prod.mk.injEq]
    constructor
    · rintro ⟨rfl, rfl⟩
      exact ⟨enough, (List.take_append_drop count bytes).symm⟩
    · rintro ⟨rfl, rfl⟩
      simp
  · rename_i short
    constructor
    · intro impossible
      cases impossible
    · rintro ⟨rfl, rfl⟩
      simp at short

end Bytes

/-- The bytes of a text in its UTF-8 form. -/
def textBytes (text : String) : Bytes :=
  text.toUTF8.data.toList

/-- The text whose UTF-8 form is the given bytes, if there is one. -/
def textOfBytes? (bytes : Bytes) : Option String :=
  String.fromUTF8? ⟨bytes.toArray⟩

end EventRelay
