import EventRelay.Frame.Encoding
import EventRelay.Proofs.Bytes

/-!
# Frames are read back

A whole frame is a byte string with the entries that reading it gives.  What is
written for entries is a whole frame with just these entries, as long as their
number and the sizes of their values fit the 32 bits that a body has for them.
A whole frame is found at its offset whatever stands before and after it.
-/

namespace EventRelay
namespace Frame

/-! ## Bodies -/

/-- The number of entries and the sizes of their values fit 32 bits. -/
structure Fits (entries : List Entry) : Prop where
  /-- The entries can be counted. -/
  length_lt : entries.length < Bytes.cardinality 4
  /-- Every value can be measured. -/
  value_lt : ∀ entry ∈ entries, entry.value.length < Bytes.cardinality 4

/-- An entry is read back from the front of a body's rest. -/
theorem decodeEntry_encodeEntry
    {entry : Entry}
    (value_lt : entry.value.length < Bytes.cardinality 4)
    (size index : Nat)
    (rest : Bytes) :
    decodeEntry size index (encodeEntry entry ++ rest) = .ok (entry, rest) := by
  have sizeRead : Bytes.toNatLE (Bytes.ofNatLE 4 entry.value.length) = entry.value.length := by
    rw [Bytes.toNatLE_ofNatLE, Nat.mod_eq_of_lt value_lt]
  have keySize : entry.key.bytes.length = Key.size := entry.key.length_bytes
  have keyRead : Key.ofBytes? entry.key.bytes = some entry.key := by
    rw [Key.ofBytes?, dif_pos entry.key.length_bytes]
  simp only [decodeEntry, encodeEntry, List.append_assoc,
    Bytes.split?_append_of_length keySize,
    Bytes.split?_append_of_length (Bytes.length_ofNatLE 4 entry.value.length), sizeRead,
    Bytes.split?_append, keyRead]

/-- Entries are read back one after the other. -/
theorem decodeEntries_flatMap
    {entries : List Entry}
    (value_lt : ∀ entry ∈ entries, entry.value.length < Bytes.cardinality 4)
    (size index : Nat)
    (rest : Bytes) :
    decodeEntries size entries.length index (entries.flatMap encodeEntry ++ rest) =
      .ok (entries, rest) := by
  induction entries generalizing index with
  | nil => rfl
  | cons entry entries inductionHypothesis =>
      have head := decodeEntry_encodeEntry (value_lt entry List.mem_cons_self) size index
        (entries.flatMap encodeEntry ++ rest)
      have tail := inductionHypothesis
        (fun other present => value_lt other (List.mem_cons_of_mem _ present)) (index + 1)
      rw [List.flatMap_cons, List.append_assoc, List.length_cons, decodeEntries, head]
      simp only [bind, Except.bind, tail]
      rfl

/-- The entries of a body are read back. -/
theorem decodeEntryList_encodeBody
    {entries : List Entry}
    (fits : Fits entries) :
    decodeEntryList (encodeBody entries) = .ok entries := by
  have countRead : Bytes.toNatLE (Bytes.ofNatLE 4 entries.length) = entries.length := by
    rw [Bytes.toNatLE_ofNatLE, Nat.mod_eq_of_lt fits.length_lt]
  have read := decodeEntries_flatMap fits.value_lt (encodeBody entries).length 0 []
  rw [List.append_nil] at read
  rw [decodeEntryList, encodeBody,
    Bytes.split?_append_of_length (Bytes.length_ofNatLE 4 entries.length)]
  simp only [countRead]
  rw [← encodeBody, read]
  rfl

/-- A stored body stands for the body that was stored. -/
theorem restore_store (compression : Compression) (body : Bytes) :
    restore (store compression body).2 (store compression body).1 = .ok body := by
  rw [store]
  split
  · rfl
  · split
    · rename_i compressed made
      simp [restore, Zstandard.decode_of_compress?_eq_some made]
    · rfl

/-- A stored body is not larger than the body that was stored. -/
theorem length_store_le (compression : Compression) (body : Bytes) :
    (store compression body).1.length ≤ body.length := by
  unfold store
  split
  · exact Nat.le_refl _
  · split
    · rename_i compressed made
      exact Nat.le_of_lt (Zstandard.of_compress?_eq_some made).1
    · exact Nat.le_refl _

/-- Entries of which the body is not too large have a frame. -/
theorem exists_encode_eq_ok
    {entries : List Entry}
    (small : bodySize entries ≤ maxBodySize)
    (compression : Compression) :
    ∃ bytes, encode entries compression = .ok bytes := by
  have stored := length_store_le compression (encodeBody entries)
  rw [length_encodeBody] at stored
  rw [encode_eq]
  dsimp only
  rw [if_neg (by omega)]
  exact ⟨_, rfl⟩

/-- Values of a bounded size make up a body of a bounded size. -/
theorem bodySize_le
    {entries : List Entry}
    {limit : Nat}
    (bounded : ∀ entry ∈ entries, entry.value.length ≤ limit) :
    bodySize entries ≤ 4 + entries.length * (Key.size + 4 + limit) := by
  unfold bodySize
  induction entries with
  | nil => simp
  | cons entry rest inductionHypothesis =>
      obtain ⟨first, others⟩ := List.forall_mem_cons.mp bounded
      have tail := inductionHypothesis others
      rw [List.foldr_cons, List.length_cons, Nat.add_one_mul, entrySize]
      omega

/-! ## Whole frames -/

/-- One frame, in two parts, and what reading it gives. -/
structure Whole where
  /-- What precedes the body. -/
  head : Bytes
  /-- The stored body. -/
  stored : Bytes
  /-- What the head says. -/
  header : Header
  /-- What the body holds. -/
  entries : List Entry
  /-- The head has the size of a head. -/
  length_head : head.length = headerSize
  /-- The head is read as the header. -/
  read_head : Header.read head = .ok header
  /-- The body has the size that the header says. -/
  length_stored : stored.length = header.bodySize
  /-- The body is read as the entries. -/
  decode_stored : decodeBody header stored = .ok entries

namespace Whole

/-- The bytes of the frame. -/
def bytes (whole : Whole) : Bytes :=
  whole.head ++ whole.stored

theorem length_bytes (whole : Whole) :
    whole.bytes.length = headerSize + whole.header.bodySize := by
  rw [bytes, List.length_append, whole.length_head, whole.length_stored]

theorem length_bytes_pos (whole : Whole) : 0 < whole.bytes.length := by
  rw [length_bytes, headerSize]
  omega

end Whole

/-- A whole frame is read at its offset in a file. -/
theorem readAt_append (before rest : Bytes) (whole : Whole) :
    readAt (before ++ (whole.bytes ++ rest)) before.length = .ok whole.entries := by
  rw [readAt, List.drop_left, Whole.bytes, List.append_assoc]
  simp only [Bytes.split?_append_of_length whole.length_head,
    Bytes.split?_append_of_length whole.length_stored, whole.read_head, bind, Except.bind,
    whole.decode_stored]

/-- What is read at an offset is a whole frame that stands there. -/
theorem exists_whole_of_readAt_eq_ok
    {bytes : Bytes}
    {offset : Nat}
    {entries : List Entry}
    (read : readAt bytes offset = .ok entries) :
    ∃ (whole : Whole) (rest : Bytes),
      whole.entries = entries ∧ bytes = bytes.take offset ++ (whole.bytes ++ rest) ∧
        (bytes.take offset).length = offset := by
  rw [readAt] at read
  split at read
  · cases read
  · rename_i head afterHead parted
    obtain ⟨length_head, parts⟩ := Bytes.split?_eq_some_iff.mp parted
    cases headerRead : Header.read head with
    | error error => rw [headerRead] at read; cases read
    | ok header =>
        rw [headerRead] at read
        simp only [bind, Except.bind] at read
        split at read
        · cases read
        · rename_i stored rest storedParted
          obtain ⟨length_stored, rfl⟩ := Bytes.split?_eq_some_iff.mp storedParted
          refine ⟨⟨head, stored, header, entries, length_head, headerRead, length_stored, read⟩,
            rest, rfl, ?_, ?_⟩
          · rw [Whole.bytes, List.append_assoc, ← parts, List.take_append_drop]
          · have sizes := congrArg List.length parts
            simp only [List.length_drop, List.length_append, length_head, headerSize] at sizes
            rw [List.length_take]
            omega

/-- What is read at an offset stays there when the file grows. -/
theorem readAt_append_of_readAt_eq_ok
    {bytes : Bytes}
    {offset : Nat}
    {entries : List Entry}
    (read : readAt bytes offset = .ok entries)
    (more : Bytes) :
    readAt (bytes ++ more) offset = .ok entries := by
  obtain ⟨whole, rest, rfl, parts, length_before⟩ := exists_whole_of_readAt_eq_ok read
  have found := readAt_append (bytes.take offset) (rest ++ more) whole
  rwa [length_before, ← List.append_assoc whole.bytes, ← List.append_assoc, ← parts] at found

/-! ## Written frames -/

/-- What precedes a stored body. -/
def headOf (stored : Bytes) (isCompressed : Bool) : Bytes :=
  Bytes.ofNatLE 4 stored.length ++ ([isCompressed.toUInt8] ++
    Bytes.ofUInt32LE (Checksum.crc32c stored))

/-- What the head of a stored body says. -/
def headerOf (stored : Bytes) (isCompressed : Bool) : Header where
  bodySize := stored.length
  flags := isCompressed.toUInt8
  checksum := Checksum.crc32c stored

theorem length_headOf (stored : Bytes) (isCompressed : Bool) :
    (headOf stored isCompressed).length = headerSize := by
  simp [headOf, Bytes.ofUInt32LE, headerSize]

theorem frame_eq (stored : Bytes) (isCompressed : Bool) :
    frame stored isCompressed = headOf stored isCompressed ++ stored := by
  simp only [frame, headOf, List.append_assoc]

/-- The head of a stored body is read back. -/
theorem read_headOf
    {stored : Bytes}
    (small : stored.length ≤ maxBodySize)
    (isCompressed : Bool) :
    Header.read (headOf stored isCompressed) = .ok (headerOf stored isCompressed) := by
  have split := Bytes.split?_append_of_length (length_headOf stored isCompressed) []
  rw [List.append_nil] at split
  have sizeRead : Bytes.toNatLE ((headOf stored isCompressed).take 4) = stored.length := by
    have bound : stored.length < Bytes.cardinality 4 := Nat.lt_of_le_of_lt small (by decide)
    rw [headOf, List.take_append_of_le_length (by simp), List.take_of_length_le (by simp),
      Bytes.toNatLE_ofNatLE, Nat.mod_eq_of_lt bound]
  have rest : (headOf stored isCompressed).drop 4 =
      [isCompressed.toUInt8] ++ Bytes.ofUInt32LE (Checksum.crc32c stored) := by
    rw [headOf, List.drop_left' (by simp)]
  have flagsRead : UInt8.ofNat (Bytes.toNatLE (((headOf stored isCompressed).drop 4).take 1)) =
      isCompressed.toUInt8 := by
    rw [rest]
    simp [Bytes.toNatLE]
  have checksumRead : UInt32.ofNat (Bytes.toNatLE ((headOf stored isCompressed).drop 5)) =
      Checksum.crc32c stored := by
    rw [show (5 : Nat) = 4 + 1 from rfl, ← List.drop_drop, rest, List.singleton_append,
      List.drop_one, List.tail_cons, Bytes.ofNat_toNatLE_ofUInt32LE]
  simp only [Header.read, split, sizeRead, flagsRead, checksumRead]
  rw [if_neg (Nat.not_lt.mpr small)]
  rfl

/-- A stored body of at most the greatest size makes a whole frame. -/
theorem exists_whole_of_store
    {entries : List Entry}
    (fits : Fits entries)
    {compression : Compression}
    {stored : Bytes}
    {isCompressed : Bool}
    (kept : store compression (encodeBody entries) = (stored, isCompressed))
    (small : stored.length ≤ maxBodySize) :
    ∃ whole : Whole, whole.bytes = frame stored isCompressed ∧ whole.entries = entries := by
  have flag : (headerOf stored isCompressed).isCompressed = isCompressed := by
    cases isCompressed <;> rfl
  have restored : restore isCompressed stored = .ok (encodeBody entries) := by
    have read := restore_store compression (encodeBody entries)
    rwa [kept] at read
  have decoded : decodeBody (headerOf stored isCompressed) stored = .ok entries := by
    rw [decodeBody, flag, restored, headerOf]
    simp only [ne_eq, not_true_eq_false, if_false]
    exact decodeEntryList_encodeBody fits
  exact ⟨⟨headOf stored isCompressed, stored, headerOf stored isCompressed, entries,
    length_headOf stored isCompressed, read_headOf small isCompressed, rfl, decoded⟩,
    (frame_eq stored isCompressed).symm, rfl⟩

/-- The frame written for entries is a whole frame of these entries. -/
theorem exists_whole_of_encode_eq_ok
    {entries : List Entry}
    {compression : Compression}
    {bytes : Bytes}
    (fits : Fits entries)
    (encoded : encode entries compression = .ok bytes) :
    ∃ whole : Whole, whole.bytes = bytes ∧ whole.entries = entries := by
  rw [encode_eq] at encoded
  dsimp only at encoded
  split at encoded
  · cases encoded
  · rename_i small
    cases encoded
    exact exists_whole_of_store fits rfl (Nat.not_lt.mp small)

end Frame
end EventRelay
