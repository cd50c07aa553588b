import EventRelay.Segment.Name
import Mathlib.Data.List.Induction

/-!
# Segment names and numbers

A file stands for a segment just if its name spells the number of the segment: in
decimal, perhaps after a plus sign and zeros, within 64 bits.  The name of a
segment is one of these spellings, and different segments have different names.
A segment above all that are there is found last.
-/

namespace EventRelay
namespace Segment

/-! ## Reading a name back -/

theorem dropFront?_eq_some_iff
    {front text rest : List Char} :
    dropFront? front text = some rest ↔ text = front ++ rest := by
  induction front generalizing text with
  | nil => simp [dropFront?]
  | cons expected front inductionHypothesis =>
      cases text with
      | nil => simp [dropFront?]
      | cons character text =>
          rw [dropFront?]
          split
          · rename_i same
            rw [inductionHypothesis, same, List.cons_append, List.cons_inj_right]
          · rename_i different
            simp [Ne.symm different]

theorem dropEnd?_eq_some_iff
    {tail text rest : List Char} :
    dropEnd? tail text = some rest ↔ text = rest ++ tail := by
  rw [dropEnd?, Option.map_eq_some_iff]
  simp only [dropFront?_eq_some_iff, List.reverse_eq_iff, List.reverse_append]
  constructor
  · rintro ⟨reversed, parts, rfl⟩
    rw [parts, List.reverse_reverse, List.reverse_reverse]
  · intro parts
    exact ⟨rest.reverse, by rw [parts, List.reverse_reverse, List.reverse_reverse], rfl⟩

/-! ## Numerals -/

/-- The digits of a number after some zeros. -/
def numeral (zeros value : Nat) : List Char :=
  List.replicate zeros '0' ++ Nat.toDigits 10 value

theorem numeral_ne_nil (zeros value : Nat) : numeral zeros value ≠ [] := by
  simp [numeral, Nat.toDigits_ne_nil]

/-- Zeros before a number do not change it. -/
theorem number_numeral (zeros value : Nat) : number (numeral zeros value) = value := by
  have digits : ∀ text : List Char, number text = Nat.ofDigitChars 10 text 0 := by
    intro text
    simp only [number, Nat.ofDigitChars_eq_foldl, Nat.mul_comm 10]
    rfl
  rw [digits, numeral, Nat.ofDigitChars_append, Nat.ofDigitChars_replicate_zero, Nat.mul_zero,
    Nat.ofDigitChars_ten_toDigits]

theorem isDigit_of_mem_numeral
    {zeros value : Nat}
    {character : Char}
    (present : character ∈ numeral zeros value) :
    isDigit character = true := by
  rcases List.mem_append.mp present with filling | digit
  · rw [List.eq_of_mem_replicate filling]
    decide
  · have isDigit := Nat.isDigit_of_mem_toDigits (by decide) (by decide) digit
    simpa [Segment.isDigit, Char.isDigit, Char.le_def] using isDigit

/-- A digit is the one of its value. -/
theorem exists_digitChar_eq
    {character : Char}
    (digit : isDigit character = true) :
    character.toNat - 48 < 10 ∧ Nat.digitChar (character.toNat - 48) = character := by
  have bounds : 48 ≤ character.toNat ∧ character.toNat ≤ 57 := by
    simpa [isDigit, Char.le_def, UInt32.le_iff_toNat_le] using digit
  have small : character.toNat - 48 < 10 := by omega
  refine ⟨small, Char.toNat_inj.mp ?_⟩
  rw [Nat.toNat_digitChar_of_lt_ten small]
  omega

theorem number_concat (text : List Char) (digit : Char) :
    number (text ++ [digit]) = number text * 10 + (digit.toNat - 48) := by
  rw [number, number, List.foldl_append, List.foldl_cons, List.foldl_nil]

/-- Digits are zeros, or zeros before the digits of their number. -/
theorem eq_zeros_or_eq_numeral
    {text : List Char}
    (digits : ∀ character ∈ text, isDigit character = true) :
    number text = 0 ∧ text = List.replicate text.length '0' ∨
      0 < number text ∧ ∃ zeros, text = numeral zeros (number text) := by
  induction text using List.reverseRecOn with
  | nil => exact Or.inl ⟨rfl, rfl⟩
  | append_singleton text digit inductionHypothesis =>
      obtain ⟨small, digit_eq⟩ := exists_digitChar_eq (digits digit (by simp))
      have earlier := inductionHypothesis fun character present =>
        digits character (List.mem_append_left _ present)
      rw [number_concat]
      rcases earlier with ⟨isZero, zeros_eq⟩ | ⟨positive, zeros, numeral_eq⟩
      · rw [isZero, Nat.zero_mul, Nat.zero_add]
        by_cases zero : digit.toNat - 48 = 0
        · rw [zero] at digit_eq
          refine Or.inl ⟨zero, ?_⟩
          rw [List.length_append, List.length_singleton, List.replicate_succ', ← zeros_eq,
            ← digit_eq]
          rfl
        · refine Or.inr ⟨Nat.pos_of_ne_zero zero, text.length, ?_⟩
          rw [numeral, ← zeros_eq, Nat.toDigits_of_lt_base small, digit_eq]
      · refine Or.inr ⟨by omega, zeros, ?_⟩
        rw [Nat.mul_comm, numeral, ← Nat.toDigits_append_toDigits (by decide) positive small,
          ← List.append_assoc, ← numeral, ← numeral_eq, Nat.toDigits_of_lt_base small, digit_eq]

/-- At least one digit is a numeral of the number that it stands for. -/
theorem exists_eq_numeral
    {text : List Char}
    (notEmpty : text ≠ [])
    (digits : ∀ character ∈ text, isDigit character = true) :
    ∃ zeros, text = numeral zeros (number text) := by
  rcases eq_zeros_or_eq_numeral digits with ⟨isZero, zeros_eq⟩ | ⟨_, numeral_eq⟩
  · obtain ⟨zeros, length_eq⟩ := Nat.exists_eq_succ_of_ne_zero
      (mt List.length_eq_zero_iff.mp notEmpty)
    refine ⟨zeros, ?_⟩
    rw [isZero, numeral, zeros_eq, length_eq, List.replicate_succ']
    rfl
  · exact numeral_eq

/-- Digits are accepted just if they are a numeral of a 64-bit number. -/
theorem accepted_iff
    {digits : List Char}
    {value : Nat} :
    (if digits.isEmpty || !digits.all isDigit ||
        decide (0x10000000000000000 ≤ number digits) then none else some (number digits)) =
      some value ↔
    value < 0x10000000000000000 ∧ ∃ zeros, digits = numeral zeros value := by
  constructor
  · intro accepted
    split at accepted
    · cases accepted
    · rename_i good
      obtain rfl := Option.some_inj.mp accepted
      simp only [Bool.or_eq_true, List.isEmpty_iff, Bool.not_eq_true', decide_eq_true_eq, not_or,
        Bool.not_eq_false, List.all_eq_true] at good
      obtain ⟨⟨notEmpty, allDigits⟩, small⟩ := good
      exact ⟨Nat.lt_of_not_le small, exists_eq_numeral notEmpty allDigits⟩
  · rintro ⟨small, zeros, rfl⟩
    have notEmpty : (numeral zeros value).isEmpty = false :=
      List.isEmpty_eq_false_iff.mpr (numeral_ne_nil zeros value)
    have allDigits : (numeral zeros value).all isDigit = true :=
      List.all_eq_true.mpr fun _ => isDigit_of_mem_numeral
    have inRange : decide (0x10000000000000000 ≤ value) = false :=
      decide_eq_false (Nat.not_le_of_lt small)
    simp only [notEmpty, allDigits, number_numeral, inRange, Bool.not_true, Bool.or_false,
      Bool.false_eq_true, if_false]

theorem numeral_ne_plus (zeros value : Nat) (rest : List Char) :
    numeral zeros value ≠ '+' :: rest := by
  intro same
  have digit : isDigit '+' = true := isDigit_of_mem_numeral (same ▸ List.mem_cons_self)
  revert digit
  decide

/-- A 64-bit number is read from a numeral of it, perhaps after a plus sign. -/
theorem word?_eq_some_iff
    {text : List Char}
    {value : Nat} :
    word? text = some value ↔
      value < 0x10000000000000000 ∧
        ∃ zeros, text = numeral zeros value ∨ text = '+' :: numeral zeros value := by
  rw [word?]
  cases signed : dropFront? ['+'] text with
  | some digits =>
      obtain rfl : text = '+' :: digits := dropFront?_eq_some_iff.mp signed
      rw [Option.getD_some, accepted_iff]
      simp [Ne.symm (numeral_ne_plus _ _ _)]
  | none =>
      have unsigned : ∀ digits, text ≠ '+' :: digits := by
        rintro digits rfl
        cases signed
      rw [Option.getD_none, accepted_iff]
      simp [unsigned]

/-! ## Names -/

theorem toList_padded (width number : Nat) :
    (padded width number).toList = numeral (width - (toString number).length) number := by
  simp [padded, numeral]

theorem toList_name (segment : Nat) :
    (name segment).toList =
      "wal-".toList ++ ((padded 6 segment).toList ++ ".log".toList) := by
  simp only [name, String.toList_append, List.append_assoc]

/-- A way to write the name of the file of a segment. -/
def spelling (isSigned : Bool) (zeros segment : Nat) : String :=
  "wal-" ++ (if isSigned then "+" else "") ++ String.ofList (List.replicate zeros '0') ++
    toString segment ++ ".log"

/-- A file name writes the number of a segment in decimal, perhaps after a plus sign
and zeros, between the beginning and the end that all names of segments have. -/
def Spells (file : String) (segment : Nat) : Prop :=
  segment < 0x10000000000000000 ∧ ∃ isSigned zeros, file = spelling isSigned zeros segment

theorem toList_spelling (isSigned : Bool) (zeros segment : Nat) :
    (spelling isSigned zeros segment).toList =
      "wal-".toList ++
        ((if isSigned then '+' :: numeral zeros segment else numeral zeros segment) ++
          ".log".toList) := by
  cases isSigned <;> simp [spelling, numeral]

/-- The files that stand for a segment are those that spell its number. -/
theorem ofName?_eq_some_iff
    {file : String}
    {segment : Nat} :
    ofName? file = some segment ↔ Spells file segment := by
  have read : ofName? file = some segment ↔
      ∃ digits, file.toList = "wal-".toList ++ (digits ++ ".log".toList) ∧
        word? digits = some segment := by
    simp only [ofName?, Option.bind_eq_bind, Option.bind_eq_some_iff, dropFront?_eq_some_iff,
      dropEnd?_eq_some_iff]
    constructor
    · rintro ⟨rest, front, digits, rfl, value⟩
      exact ⟨digits, front, value⟩
    · rintro ⟨digits, front, value⟩
      exact ⟨_, front, digits, rfl, value⟩
  rw [read]
  simp only [word?_eq_some_iff, Spells, ← String.toList_inj, toList_spelling]
  constructor
  · rintro ⟨digits, front, small, zeros, rfl | rfl⟩
    · exact ⟨small, false, zeros, front⟩
    · exact ⟨small, true, zeros, front⟩
  · rintro ⟨small, isSigned, zeros, front⟩
    refine ⟨_, front, small, zeros, ?_⟩
    cases isSigned
    · exact Or.inl rfl
    · exact Or.inr rfl

instance (file : String) (segment : Nat) : Decidable (Spells file segment) :=
  decidable_of_iff _ ofName?_eq_some_iff

/-- No number is spelled by both names. -/
def Apart (left right : String) : Prop :=
  ∀ segment, Spells left segment → ¬Spells right segment

instance : Std.Symm Apart where
  symm _ _ apart segment rightSpelled leftSpelled := apart segment leftSpelled rightSpelled

/-- The name of a segment is a spelling of its number. -/
theorem exists_name_eq_spelling (segment : Nat) :
    ∃ zeros, name segment = spelling false zeros segment := by
  refine ⟨6 - (toString segment).length, String.toList_inj.mp ?_⟩
  rw [toList_name, toList_padded, toList_spelling]
  rfl

/-- The name of a segment stands for the segment. -/
theorem ofName?_name
    {segment : Nat}
    (small : segment < 0x10000000000000000) :
    ofName? (name segment) = some segment :=
  ofName?_eq_some_iff.mpr ⟨small, false, exists_name_eq_spelling segment⟩

/-- Different segments have different names. -/
theorem name_injective
    {left right : Nat}
    (same : name left = name right) :
    left = right := by
  have texts := congrArg String.toList same
  rw [toList_name, toList_name, List.append_cancel_left_eq, List.append_cancel_right_eq,
    toList_padded, toList_padded] at texts
  rw [← number_numeral _ left, texts, number_numeral]

/-! ## Looking for segments -/

/-- Every file that stands for a segment is found. -/
theorem perm_discover (disk : Disk) :
    (discover disk).Perm (disk.listing.filterMap ofName?) :=
  List.mergeSort_perm _ _

theorem mem_discover_iff
    {disk : Disk}
    {segment : Nat} :
    segment ∈ discover disk ↔ ∃ name ∈ disk.listing, ofName? name = some segment := by
  rw [(perm_discover disk).mem_iff, List.mem_filterMap]

theorem mem_discover_iff_spells
    {disk : Disk}
    {segment : Nat} :
    segment ∈ discover disk ↔ ∃ file ∈ disk.listing, Spells file segment := by
  simp only [mem_discover_iff, ofName?_eq_some_iff]

/-- A segment is found once for every file that spells its number. -/
theorem count_discover (disk : Disk) (segment : Nat) :
    (discover disk).count segment =
      disk.listing.countP fun file => decide (Spells file segment) := by
  rw [(perm_discover disk).count_eq, List.count_filterMap]
  apply List.countP_congr
  intro file _
  rw [beq_iff_eq, decide_eq_true_iff, ofName?_eq_some_iff]

/-- No segment is found twice if no number is spelled by two files. -/
theorem nodup_discover_iff
    {disk : Disk} :
    (discover disk).Nodup ↔ disk.listing.Pairwise Apart := by
  rw [(perm_discover disk).nodup_iff, List.Nodup, List.pairwise_filterMap]
  simp only [ofName?_eq_some_iff]
  constructor <;> intro apart <;> refine apart.imp ?_
  · intro left right different segment leftSpelled rightSpelled
    exact different segment leftSpelled segment rightSpelled rfl
  · rintro left right apart segment leftSpelled other rightSpelled rfl
    exact apart segment leftSpelled rightSpelled

theorem discover_eq_of_names_eq
    {left right : Disk}
    (same : left.names = right.names) :
    discover left = discover right := by
  rw [discover, discover, Disk.listing, Disk.listing, same]

/-- Segments are found in ascending order. -/
theorem pairwise_discover (disk : Disk) :
    (discover disk).Pairwise (· ≤ ·) := by
  have sorted : (discover disk).Pairwise fun left right => decide (left ≤ right) = true :=
    List.pairwise_mergeSort (by simpa using fun _ _ _ => Nat.le_trans)
      (by simpa using fun left right => Nat.le_total left right) _
  simpa using sorted

/-- A segment that is not below any other one is found last. -/
theorem discover_concat
    {disk grown : Disk}
    {segment : Nat}
    (small : segment < 0x10000000000000000)
    (listing : grown.listing = disk.listing ++ [name segment])
    (greatest : ∀ other ∈ discover disk, other ≤ segment) :
    discover grown = discover disk ++ [segment] := by
  have permuted : (discover grown).Perm (discover disk ++ [segment]) := by
    have found : grown.listing.filterMap ofName? =
        disk.listing.filterMap ofName? ++ [segment] := by
      rw [listing, List.filterMap_append]
      simp [ofName?_name small]
    refine (perm_discover grown).trans ?_
    rw [found]
    exact (perm_discover disk).symm.append_right [segment]
  refine permuted.eq_of_pairwise (fun _ _ _ _ => Nat.le_antisymm) (pairwise_discover grown) ?_
  rw [List.pairwise_append]
  exact ⟨pairwise_discover disk, by simp, by simpa using greatest⟩

end Segment
end EventRelay
