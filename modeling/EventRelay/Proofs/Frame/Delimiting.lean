import EventRelay.Proofs.Frame.Damage

/-!
# Frames delimit themselves

A whole frame is read from the front of data whatever follows it, and of a frame that
breaks off nothing is read but that it breaks off.  So what is written for entries is read
back as these entries and no more, compressed or not.  The other way round, a body that is
not compressed is just what is written for the entries that are read from it: no two such
bodies hold the same entries.
-/

namespace EventRelay
namespace Frame

/-! ## Whole frames at the front -/

/-- A whole frame is read from the front of data. -/
theorem decode_append (whole : Whole) (rest : Bytes) :
    decode (whole.bytes ++ rest) = .ok (whole.entries, whole.bytes.length) := by
  have enough : ¬(whole.bytes ++ rest).length < headerSize + whole.header.bodySize := by
    rw [List.length_append, whole.length_bytes]
    omega
  have headerRead : Header.read (whole.bytes ++ rest) = .ok whole.header := by
    rw [Whole.bytes, List.append_assoc, read_append whole.length_head, whole.read_head]
  have body : ((whole.bytes ++ rest).drop headerSize).take whole.header.bodySize =
      whole.stored := by
    rw [Whole.bytes, List.append_assoc, List.drop_left' whole.length_head,
      List.take_left' whole.length_stored]
  rw [decode, headerRead]
  simp only [bind, Except.bind, if_neg enough, body, whole.decode_stored]
  rw [whole.length_bytes]
  rfl

/-- What is read from the front of data is a whole frame that stands there. -/
theorem exists_whole_of_decode_eq_ok
    {data : Bytes}
    {entries : List Entry}
    {size : Nat}
    (read : decode data = .ok (entries, size)) :
    ∃ (whole : Whole) (rest : Bytes), data = whole.bytes ++ rest ∧ whole.entries = entries ∧
      whole.bytes.length = size := by
  obtain ⟨head, stored, rest, header, rfl, length_head, headRead, bodyRead, rfl⟩ :=
    exists_parts_of_decode_eq_ok read
  have length_stored := (of_decodeBody_eq_ok bodyRead).1
  refine ⟨⟨head, stored, header, entries, length_head, headRead, length_stored, bodyRead⟩, rest,
    ?_, rfl, Whole.length_bytes _⟩
  rw [Whole.bytes, List.append_assoc]

/-- Of the proper beginning of a whole frame nothing is read but its size and the size that
it should have, as far as that is known. -/
theorem decode_of_beginning
    {whole : Whole}
    {torn : Bytes}
    (beginning : torn <+: whole.bytes)
    (shorter : torn.length < whole.bytes.length) :
    decode torn = .error (.truncated
      (if torn.length < headerSize then headerSize else whole.bytes.length) torn.length) := by
  by_cases short : torn.length < headerSize
  · rw [if_pos short, decode, Header.read, Bytes.split?_eq_none_iff.mpr short]
    rfl
  · obtain ⟨lost, parts⟩ := beginning
    have length_head : (torn.take headerSize).length = headerSize :=
      List.length_take_of_le (Nat.not_lt.mp short)
    have sameHead : torn.take headerSize = whole.head := by
      have fronts := congrArg (List.take headerSize) parts
      rwa [List.take_append_of_le_length (Nat.not_lt.mp short), Whole.bytes,
        List.take_left' whole.length_head] at fronts
    have headerRead : Header.read torn = .ok whole.header := by
      rw [← List.take_append_drop headerSize torn, read_append length_head, sameHead,
        whole.read_head]
    rw [whole.length_bytes] at shorter ⊢
    rw [if_neg short, decode, headerRead]
    simp only [bind, Except.bind, if_pos shorter]

/-! ## Bodies that are not compressed -/

/-- The flags at the front of data say that the body is not compressed. -/
def IsRaw (data : Bytes) : Prop :=
  ∃ flags, data[4]? = some flags ∧ flags &&& 1 = 0

theorem isCompressed_eq_false_of_isRaw
    {head rest : Bytes}
    (raw : IsRaw (head ++ rest))
    (length_head : head.length = headerSize)
    {header : Header}
    (headRead : Header.read head = .ok header) :
    header.isCompressed = false := by
  obtain ⟨flags, place, clear⟩ := raw
  rw [List.getElem?_append_left (by rw [length_head]; decide)] at place
  have field : (head.drop 4).take 1 = [flags] := by
    obtain ⟨within, flags_eq⟩ := List.getElem?_eq_some_iff.mp place
    rw [List.drop_eq_getElem_cons within, flags_eq, List.take_succ_cons, List.take_zero]
  have flags_eq : header.flags = flags := by
    rw [(eq_of_read_eq_ok length_head headRead).2.1, field]
    simp [Bytes.toNatLE]
  have even : flags.toNat % 2 = 0 := by
    rw [← Nat.and_one_is_mod]
    exact congrArg UInt8.toNat clear
  rw [Header.isCompressed, flags_eq, even]
  rfl

/-- A body that is not compressed is what is written for the entries that are read from
it. -/
theorem body_eq_of_decode_eq_ok
    {data : Bytes}
    (raw : IsRaw data)
    {entries : List Entry}
    {size : Nat}
    (read : decode data = .ok (entries, size)) :
    (data.take size).drop headerSize = encodeBody entries := by
  obtain ⟨head, stored, rest, header, rfl, length_head, headRead, bodyRead, rfl⟩ :=
    exists_parts_of_decode_eq_ok read
  obtain ⟨length_stored, _, body, restored, listed⟩ := of_decodeBody_eq_ok bodyRead
  rw [isCompressed_eq_false_of_isRaw raw length_head headRead] at restored
  cases restored
  rw [List.take_add, List.take_left' length_head, List.drop_left' length_head,
    List.drop_left' length_head, List.take_left' length_stored]
  exact (decodeEntryList_eq_ok_iff.mp listed).2

/-! ## Written frames -/

/-- A frame is read back as entries whatever follows it, and every proper beginning of it is
found to break off. -/
structure Delimits (written : Bytes) (entries : List Entry) : Prop where
  decode_append : ∀ rest, decode (written ++ rest) = .ok (entries, written.length)
  truncated : ∀ torn, torn <+: written → torn ≠ written →
    ∃ needed available, decode torn = .error (.truncated needed available)

theorem Whole.delimits (whole : Whole) : Delimits whole.bytes whole.entries where
  decode_append := Frame.decode_append whole
  truncated := by
    intro torn beginning different
    have shorter : torn.length < whole.bytes.length :=
      Nat.lt_of_le_of_ne beginning.length_le fun same => different (beginning.eq_of_length same)
    exact ⟨_, _, decode_of_beginning beginning shorter⟩

/-- What is written for entries delimits itself, whether it is compressed or not.  A body
that is not compressed is what is written for the entries read from it, so that two of them
with the same entries are the same. -/
theorem delimits_encode :
    (∀ entries compression written, Fits entries → encode entries compression = .ok written →
      Delimits written entries) ∧
    (∀ data entries size, IsRaw data → decode data = .ok (entries, size) →
      (data.take size).drop headerSize = encodeBody entries) ∧
    ∀ data other entries size otherSize, IsRaw data → IsRaw other →
      decode data = .ok (entries, size) → decode other = .ok (entries, otherSize) →
      (data.take size).drop headerSize = (other.take otherSize).drop headerSize := by
  refine ⟨fun entries compression written fits encoded => ?_,
    fun data entries size raw read => body_eq_of_decode_eq_ok raw read,
    fun data other entries size otherSize raw otherRaw read otherRead => ?_⟩
  · obtain ⟨whole, rfl, rfl⟩ := exists_whole_of_encode_eq_ok fits encoded
    exact whole.delimits
  · rw [body_eq_of_decode_eq_ok raw read, body_eq_of_decode_eq_ok otherRaw otherRead]

/-- An entry of zeros, which gets smaller when it is compressed. -/
def padded : Entry where
  key := ⟨List.replicate 16 0, rfl⟩
  value := List.replicate 16 0

/-- The compressed frame of the entry of zeros. -/
def paddedFrame : Bytes :=
  [21, 0, 0, 0, 1, 218, 159, 139, 193, 40, 181, 47, 253, 0, 72, 101, 0, 0, 32, 1, 0, 16, 0, 2, 0,
    192, 195, 30, 192, 2]

/-- The frame of the sample with a second flag, which says nothing, and another byte. -/
def flaggedFrame : Bytes :=
  sampleFrame.set 4 2 ++ [0]

theorem delimits_encode_padded :
    Fits [padded] ∧ encode [padded] ⟨1, 0⟩ = .ok paddedFrame ∧ Delimits paddedFrame [padded] ∧
      IsRaw sampleFrame ∧ decode sampleFrame = .ok ([sample], 36) ∧
      IsRaw flaggedFrame ∧ decode flaggedFrame = .ok ([sample], 36) ∧
      (flaggedFrame.take 36).drop headerSize = encodeBody [sample] ∧
      (sampleFrame.take 36).drop headerSize = (flaggedFrame.take 36).drop headerSize := by
  have fits : Fits [padded] := fits_of_bodySize_le (by decide)
  have encoded : encode [padded] ⟨1, 0⟩ = .ok paddedFrame := by decide +kernel
  have raw : IsRaw sampleFrame := ⟨0, by decide +kernel, rfl⟩
  have read : decode sampleFrame = .ok ([sample], 36) := by decide +kernel
  have otherRaw : IsRaw flaggedFrame := ⟨2, by decide +kernel, rfl⟩
  have otherRead : decode flaggedFrame = .ok ([sample], 36) := by decide +kernel
  exact ⟨fits, encoded, delimits_encode.1 _ _ _ fits encoded, raw, read, otherRaw, otherRead,
    delimits_encode.2.1 _ _ _ otherRaw otherRead,
    delimits_encode.2.2 _ _ _ _ _ raw otherRaw read otherRead⟩

end Frame
end EventRelay
