import EventRelay.Proofs.Checksum
import EventRelay.Proofs.Frame.Decoding

/-!
# Damaged frames

The checksum of a frame covers its body alone.  Still, damage within four
consecutive bytes of a frame that is not compressed never makes it be read as
other entries.  Damage to the size or the flags leaves the body as it was: then a
shortened body is not what is written for any entries, and a body that is taken
for a compressed one starts with the number of its entries, which is no mark.
Damage across the checksum and the body reaches no more than the number of
entries, which must agree with what follows.  The checksum notices the rest.
-/

namespace EventRelay

/-! ## What is not compressed -/

namespace Zstandard

/-- The last byte of every mark is not zero. -/
theorem exists_readNext_eq_error
    {bytes : Bytes}
    (small : Bytes.toNatLE (bytes.take 4) < 2 ^ 24)
    (room : Nat) :
    ∃ fault, readNext room bytes = .error fault := by
  unfold readNext
  dsimp only
  split
  · split <;> exact ⟨_, rfl⟩
  · rename_i enough
    match bytes with
    | [] | [_] | [_, _] | [_, _, _] => simp at enough
    | first :: second :: third :: fourth :: rest =>
        have isZero : fourth = 0 := by
          rw [← UInt8.toNat_inj]
          simp only [List.take_succ_cons, List.take_zero, Bytes.toNatLE] at small
          change fourth.toNat = 0
          omega
        subst isZero
        have notMark : [first, second, third, 0] ≠ mark := by simp [mark]
        have notSkipped : isSkippedMark [first, second, third, 0] = false := by
          simp [isSkippedMark, skippedTail]
        have notOld : [first, second, third, 0].drop 1 ≠ markTail := by simp [markTail, mark]
        simp only [List.take_succ_cons, List.take_zero, if_neg notMark, notSkipped,
          Bool.false_eq_true, if_false]
        exact ⟨_, if_neg notOld⟩

/-- Data of which the first four bytes write a number below `2 ^ 24` is not read. -/
theorem exists_decode_eq_error
    {bytes : Bytes}
    (small : Bytes.toNatLE (bytes.take 4) < 2 ^ 24) :
    ∃ fault, decode bytes = .error fault := by
  unfold decode read
  split
  · exact ⟨_, rfl⟩
  · rename_i notEmpty
    obtain ⟨fault, failed⟩ := exists_readNext_eq_error small (roomAfter (#[] : Array UInt8).size)
    rw [readFrames, if_neg notEmpty, failed]
    exact ⟨fault, rfl⟩

end Zstandard

namespace Frame

/-! ## What is read of a frame -/

/-- A part of a body that is read as entries has the size and the checksum that its
header says. -/
theorem of_decodeBody_eq_ok
    {header : Header}
    {stored : Bytes}
    {entries : List Entry}
    (read : decodeBody header stored = .ok entries) :
    stored.length = header.bodySize ∧ Checksum.crc32c stored = header.checksum ∧
      ∃ body, restore header.isCompressed stored = .ok body ∧
        decodeEntryList body = .ok entries := by
  unfold decodeBody at read
  split at read
  · cases read
  rename_i sameSize
  dsimp only at read
  split at read
  · cases read
  rename_i sameSum
  rw [not_not] at sameSize sameSum
  cases restored : restore header.isCompressed stored with
  | error error =>
      rw [restored] at read
      cases read
  | ok body =>
      rw [restored] at read
      exact ⟨sameSize, sameSum, body, rfl, read⟩

theorem read_append
    {head : Bytes}
    (length_head : head.length = headerSize)
    (rest : Bytes) :
    Header.read (head ++ rest) = Header.read head := by
  have alone := Bytes.split?_append_of_length length_head []
  rw [List.append_nil] at alone
  rw [Header.read, Header.read, Bytes.split?_append_of_length length_head, alone]

/-- The fields of a header stand in the order of size, flags and checksum. -/
theorem eq_of_read_eq_ok
    {head : Bytes}
    (length_head : head.length = headerSize)
    {header : Header}
    (read : Header.read head = .ok header) :
    header.bodySize = Bytes.toNatLE (head.take 4) ∧
      header.flags = UInt8.ofNat (Bytes.toNatLE ((head.drop 4).take 1)) ∧
      header.checksum = UInt32.ofNat (Bytes.toNatLE (head.drop 5)) := by
  have alone := Bytes.split?_append_of_length length_head []
  rw [List.append_nil] at alone
  rw [Header.read, alone] at read
  dsimp only at read
  split at read
  · cases read
  · cases read
    exact ⟨rfl, rfl, rfl⟩

/-- What is read is a head, a stored body of the size that the head says, and a
rest. -/
theorem exists_parts_of_decode_eq_ok
    {data : Bytes}
    {entries : List Entry}
    {size : Nat}
    (read : decode data = .ok (entries, size)) :
    ∃ head stored rest header, data = head ++ (stored ++ rest) ∧ head.length = headerSize ∧
      Header.read head = .ok header ∧ decodeBody header stored = .ok entries ∧
      size = headerSize + header.bodySize := by
  unfold decode at read
  cases headerRead : Header.read data with
  | error error =>
      rw [headerRead] at read
      cases read
  | ok header =>
      rw [headerRead] at read
      simp only [bind, Except.bind] at read
      split at read
      · cases read
      rename_i enough
      cases entriesRead : decodeBody header ((data.drop headerSize).take header.bodySize) with
      | error error =>
          rw [entriesRead] at read
          cases read
      | ok others =>
          rw [entriesRead] at read
          cases read
          have length_head : (data.take headerSize).length = headerSize :=
            List.length_take_of_le (by omega)
          refine ⟨data.take headerSize, (data.drop headerSize).take header.bodySize,
            (data.drop headerSize).drop header.bodySize, header, ?_, length_head, ?_,
            entriesRead, rfl⟩
          · rw [List.take_append_drop, List.take_append_drop]
          · rw [← read_append length_head (data.drop headerSize), List.take_append_drop,
              headerRead]

/-! ## Frames that are not compressed -/

theorem bodySize_cons (entry : Entry) (rest : List Entry) :
    bodySize (entry :: rest) = entrySize entry + bodySize rest := by
  rw [bodySize, bodySize, List.foldr_cons]
  omega

theorem length_mul_le_bodySize (entries : List Entry) :
    entries.length * (Key.size + 4) ≤ bodySize entries := by
  induction entries with
  | nil => simp
  | cons entry rest inductionHypothesis =>
      rw [List.length_cons, bodySize_cons, entrySize, Nat.add_one_mul]
      omega

theorem length_value_le_bodySize
    {entries : List Entry}
    {entry : Entry}
    (present : entry ∈ entries) :
    entry.value.length ≤ bodySize entries := by
  induction entries with
  | nil => cases present
  | cons first rest inductionHypothesis =>
      rw [bodySize_cons]
      rcases List.mem_cons.mp present with rfl | later
      · rw [entrySize]
        omega
      · exact Nat.le_trans (inductionHypothesis later) (Nat.le_add_left _ _)

/-- The entries of a body that is not too large can be counted and measured. -/
theorem fits_of_bodySize_le
    {entries : List Entry}
    (small : bodySize entries ≤ maxBodySize) :
    Fits entries where
  length_lt := by
    have bound := length_mul_le_bodySize entries
    simp only [Key.size, maxBodySize] at bound small
    simp only [Bytes.cardinality]
    omega
  value_lt := by
    intro entry present
    refine Nat.lt_of_le_of_lt (length_value_le_bodySize present) ?_
    exact Nat.lt_of_le_of_lt small (by decide)

/-- The number of entries at the start of a body is no mark of compressed data. -/
theorem toNatLE_take_encodeBody_lt
    {entries : List Entry}
    (small : bodySize entries ≤ maxBodySize) :
    Bytes.toNatLE ((encodeBody entries).take 4) < 2 ^ 24 := by
  have bound := length_mul_le_bodySize entries
  simp only [Key.size, maxBodySize] at bound small
  rw [encodeBody, List.take_left' (Bytes.length_ofNatLE 4 _), Bytes.toNatLE_ofNatLE]
  exact Nat.lt_of_le_of_lt (Nat.mod_le _ _) (by omega)

/-- A body of which the frame is not compressed is stored as it is. -/
theorem eq_headOf_append_of_encode_eq_ok
    {entries : List Entry}
    {compression : Compression}
    {written : Bytes}
    (encoded : encode entries compression = .ok written)
    (raw : (Header.read written).map Header.isCompressed = .ok false) :
    bodySize entries ≤ maxBodySize ∧
      written = headOf (encodeBody entries) false ++ encodeBody entries := by
  rw [encode_eq] at encoded
  dsimp only at encoded
  split at encoded
  · cases encoded
  rename_i notLarge
  cases encoded
  have small := Nat.not_lt.mp notLarge
  rw [frame_eq] at raw ⊢
  rw [read_append (length_headOf _ _), read_headOf small] at raw
  have flag : (store compression (encodeBody entries)).2 = false := by
    have flags := Except.ok.inj raw
    cases isCompressed : (store compression (encodeBody entries)).2 with
    | false => rfl
    | true =>
        rw [isCompressed] at flags
        cases flags
  have stored : (store compression (encodeBody entries)).1 = encodeBody entries := by
    unfold store at flag ⊢
    split at flag
    · rw [if_pos ‹_›]
    · rw [if_neg ‹_›]
      split at flag
      · cases flag
      · rfl
  rw [stored, length_encodeBody] at small
  exact ⟨small, by rw [stored, flag]⟩

/-! ## Damage -/

/-- Of the beginning of a body nothing is read but the whole body, whatever a header
says about it. -/
theorem eq_of_decodeBody_beginning
    {entries others : List Entry}
    (small : bodySize entries ≤ maxBodySize)
    {header : Header}
    {stored rest : Bytes}
    (parts : stored ++ rest = encodeBody entries)
    (read : decodeBody header stored = .ok others) :
    rest = [] ∧ others = entries := by
  obtain ⟨_, _, body, restored, listed⟩ := of_decodeBody_eq_ok read
  -- The flags are not covered by the checksum: the body may pass for a compressed one.
  cases flag : header.isCompressed with
  | true =>
      have beginning : stored.take 4 = ((encodeBody entries).take 4).take stored.length := by
        rw [List.take_take, Nat.min_comm, ← List.take_take, ← parts, List.take_left]
      have noMark : Bytes.toNatLE (stored.take 4) < 2 ^ 24 := by
        rw [beginning]
        exact Nat.lt_of_le_of_lt (Bytes.toNatLE_take_le _ _) (toNatLE_take_encodeBody_lt small)
      obtain ⟨fault, failed⟩ := Zstandard.exists_decode_eq_error noMark
      rw [flag, restore, if_pos rfl, failed] at restored
      cases restored
  | false =>
      rw [flag] at restored
      cases restored
      obtain ⟨fits, rfl⟩ := decodeEntryList_eq_ok_iff.mp listed
      exact eq_nil_of_encodeBody_append_eq fits (fits_of_bodySize_le small) parts

section Burst

variable {body head tail : Bytes}

/-- Damage that reaches the body leaves the size and the flags as they were. -/
theorem header_of_burst
    (small : body.length ≤ maxBodySize)
    (length_head : head.length = headerSize)
    (burst : Bytes.Burst (headOf body false ++ body) (head ++ tail))
    (different : tail ≠ body)
    {header : Header}
    (headRead : Header.read head = .ok header) :
    header.bodySize = body.length ∧ header.isCompressed = false := by
  have length_original := length_headOf body false
  have sameFront : head.take 6 = (headOf body false).take 6 := by
    obtain ⟨index, place⟩ := Bytes.exists_getElem?_ne different
    have inFrame : (headOf body false ++ body)[headerSize + index]? ≠
        (head ++ tail)[headerSize + index]? := by
      rw [List.getElem?_append_right (by omega), List.getElem?_append_right (by omega),
        length_original, length_head, Nat.add_sub_cancel_left]
      exact place.symm
    have beginning := congrArg (List.take 6) (burst.take_eq inFrame)
    rw [headerSize] at length_head length_original
    rw [List.take_take, List.take_take, headerSize, Nat.min_eq_left (by omega),
      List.take_append_of_le_length (by omega), List.take_append_of_le_length (by omega)]
      at beginning
    exact beginning.symm
  have sameField (start count : Nat) (within : start + count ≤ 6) :
      (head.drop start).take count = ((headOf body false).drop start).take count := by
    have fields := congrArg (fun front : Bytes => (front.drop start).take count) sameFront
    simp only [List.drop_take, List.take_take] at fields
    rwa [Nat.min_eq_left (by omega)] at fields
  have sameSize : head.take 4 = (headOf body false).take 4 := sameField 0 4 (by omega)
  obtain ⟨size_eq, flags_eq, _⟩ := eq_of_read_eq_ok length_head headRead
  obtain ⟨originalSize, originalFlags, _⟩ :=
    eq_of_read_eq_ok length_original (read_headOf small false)
  rw [sameSize, ← originalSize] at size_eq
  rw [sameField 4 1 (by omega), ← originalFlags] at flags_eq
  exact ⟨size_eq, by rw [Header.isCompressed, flags_eq]; rfl⟩

/-- Damage that reaches the head leaves what follows the number of entries. -/
theorem drop_eq_of_burst
    (length_head : head.length = headerSize)
    (burst : Bytes.Burst (headOf body false ++ body) (head ++ tail))
    (different : head ≠ headOf body false) :
    tail.drop 4 = body.drop 4 := by
  have length_original := length_headOf body false
  obtain ⟨index, place⟩ := Bytes.exists_getElem?_ne different
  have index_lt : index < headerSize := by
    by_contra beyond
    rw [List.getElem?_eq_none (by omega), List.getElem?_eq_none (by omega)] at place
    exact place rfl
  have inFrame : (headOf body false ++ body)[index]? ≠ (head ++ tail)[index]? := by
    rw [List.getElem?_append_left (by omega), List.getElem?_append_left (by omega)]
    exact place.symm
  have ending := congrArg (List.drop (headerSize - index)) (burst.drop_eq inFrame)
  have behindCount : index + 4 + (headerSize - index) = headerSize + 4 := by omega
  rw [List.drop_drop, List.drop_drop, behindCount, ← List.drop_drop, ← List.drop_drop,
    List.drop_left' length_original, List.drop_left' length_head] at ending
  exact ending.symm

end Burst

/-- Nothing is read of a body that is damaged.  The checksum notices damage to the
body alone, and the number of entries damage that it shares with the head. -/
theorem decodeBody_ne_ok_of_burst
    {entries others : List Entry}
    (small : bodySize entries ≤ maxBodySize)
    {head stored rest : Bytes}
    (length_head : head.length = headerSize)
    (burst : Bytes.Burst (headOf (encodeBody entries) false ++ encodeBody entries)
      (head ++ (stored ++ rest)))
    (different : stored ++ rest ≠ encodeBody entries)
    {header : Header}
    (headRead : Header.read head = .ok header) :
    decodeBody header stored ≠ .ok others := by
  intro read
  have smallBody : (encodeBody entries).length ≤ maxBodySize := length_encodeBody entries ▸ small
  have length_original := length_headOf (encodeBody entries) false
  obtain ⟨size_eq, notCompressed⟩ :=
    header_of_burst smallBody length_head burst different headRead
  obtain ⟨length_stored, sum_eq, body, restored, listed⟩ := of_decodeBody_eq_ok read
  rw [notCompressed] at restored
  cases restored
  obtain ⟨fits, stored_eq⟩ := decodeEntryList_eq_ok_iff.mp listed
  have nothing : rest = [] := by
    have sizes := burst.length_eq
    rw [List.length_append, List.length_append, List.length_append, length_original,
      length_head, length_stored, size_eq] at sizes
    exact List.length_eq_zero_iff.mp (by omega)
  rw [nothing, List.append_nil] at different burst
  -- A damaged head may hold the checksum of the damaged body, so then the checksum
  -- proves nothing and the number of entries must.
  by_cases sameHead : head = headOf (encodeBody entries) false
  · rw [sameHead] at burst headRead
    cases headRead.symm.trans (read_headOf smallBody false)
    have bodyBurst := burst.drop headerSize
    rw [List.drop_left' length_original, List.drop_left' length_original] at bodyBurst
    exact different (Checksum.eq_of_crc32c_eq bodyBurst sum_eq.symm).symm
  · have ending := drop_eq_of_burst length_head burst sameHead
    rw [stored_eq, encodeBody, encodeBody, List.drop_left' (Bytes.length_ofNatLE 4 _),
      List.drop_left' (Bytes.length_ofNatLE 4 _)] at ending
    have others_eq := eq_of_flatMap_encodeEntry_eq fits.value_lt
      (fits_of_bodySize_le small).value_lt ending
    exact different (by rw [stored_eq, others_eq])

/-- Damage within four consecutive bytes never makes other entries of the frame of
entries that was not compressed: reading it fails, or gives the same entries. -/
theorem keepsEntries_of_burst
    {entries : List Entry}
    {compression : Compression}
    {written damaged : Bytes}
    (encoded : encode entries compression = .ok written)
    (raw : (Header.read written).map Header.isCompressed = .ok false)
    (burst : Bytes.Burst written damaged) :
    (∃ error, decode damaged = .error error) ∨
      decode damaged = .ok (entries, written.length) := by
  obtain ⟨small, rfl⟩ := eq_headOf_append_of_encode_eq_ok encoded raw
  cases read : decode damaged with
  | error error => exact Or.inl ⟨error, rfl⟩
  | ok result =>
      obtain ⟨others, size⟩ := result
      obtain ⟨head, stored, rest, header, rfl, length_head, headRead, bodyRead, rfl⟩ :=
        exists_parts_of_decode_eq_ok read
      by_cases intact : stored ++ rest = encodeBody entries
      · obtain ⟨rfl, rfl⟩ := eq_of_decodeBody_beginning small intact bodyRead
        obtain ⟨length_stored, _⟩ := of_decodeBody_eq_ok bodyRead
        rw [List.append_nil] at intact
        right
        rw [List.length_append, length_headOf, ← intact, length_stored]
      · exact absurd bodyRead (decodeBody_ne_ok_of_burst small length_head burst intact headRead)

/-- An entry with a value of three bytes. -/
def sample : Entry where
  key := ⟨List.replicate 16 7, rfl⟩
  value := [1, 2, 3]

/-- The frame of the sample. -/
def sampleFrame : Bytes :=
  frame (encodeBody [sample]) false

/-- The frame of the sample with other bytes at the end of the checksum and at the
start of the number of entries. -/
def straddledFrame : Bytes :=
  sampleFrame.overwrite 6 [4, 3, 2, 2]

theorem keepsEntries_of_burst_straddled :
    encode [sample] .standard = .ok sampleFrame ∧
      (Header.read sampleFrame).map Header.isCompressed = .ok false ∧
      Bytes.Burst sampleFrame straddledFrame ∧ straddledFrame ≠ sampleFrame ∧
      ((∃ error, decode straddledFrame = .error error) ∨
        decode straddledFrame = .ok ([sample], sampleFrame.length)) := by
  have encoded : encode [sample] .standard = .ok sampleFrame := rfl
  have raw : (Header.read sampleFrame).map Header.isCompressed = .ok false := by decide +kernel
  have burst : Bytes.Burst sampleFrame straddledFrame :=
    Bytes.burst_overwrite (by decide) (by decide +kernel)
  have different : straddledFrame ≠ sampleFrame := by decide +kernel
  exact ⟨encoded, raw, burst, different, keepsEntries_of_burst encoded raw burst⟩

end Frame
end EventRelay
