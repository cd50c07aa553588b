import EventRelay.Proofs.Frame.Delimiting
import EventRelay.Proofs.Segment.Reader

/-!
# The readers of frames agree

A frame is read in three ways: from the front of data, at an offset of a file, and by a
reader that goes through a segment.  Each looks at the sizes in its own order and reports
what is wrong in its own words, but all three take the same bytes for frames of the same
entries.  So a segment reader finds what decoding one frame after the other finds, and each
of its frames is read again at its offset.
-/

namespace EventRelay

/-! ## What is wrong with a body -/

namespace Frame

theorem exists_malformed_of_decodeEntry_eq_error
    {size index : Nat}
    {rest : Bytes}
    {error : FrameError}
    (failed : decodeEntry size index rest = .error error) :
    ∃ fault, error = .malformed fault := by
  unfold decodeEntry at failed
  split at failed
  · cases failed
    exact ⟨_, rfl⟩
  split at failed
  · cases failed
    exact ⟨_, rfl⟩
  dsimp only at failed
  split at failed
  · cases failed
    exact ⟨_, rfl⟩
  split at failed
  · cases failed
    exact ⟨_, rfl⟩
  · cases failed

theorem exists_malformed_of_decodeEntries_eq_error
    {size count index : Nat}
    {rest : Bytes}
    {error : FrameError}
    (failed : decodeEntries size count index rest = .error error) :
    ∃ fault, error = .malformed fault := by
  induction count generalizing index rest with
  | zero => cases failed
  | succ count inductionHypothesis =>
      rw [decodeEntries] at failed
      cases first : decodeEntry size index rest with
      | error other =>
          rw [first] at failed
          cases failed
          exact exists_malformed_of_decodeEntry_eq_error first
      | ok parted =>
          obtain ⟨entry, after⟩ := parted
          rw [first] at failed
          simp only [bind, Except.bind] at failed
          cases others : decodeEntries size count (index + 1) after with
          | error other =>
              rw [others] at failed
              cases failed
              exact inductionHypothesis others
          | ok parted =>
              rw [others] at failed
              cases failed

/-- A body that is not read breaks the rules. -/
theorem exists_malformed_of_decodeEntryList_eq_error
    {body : Bytes}
    {error : FrameError}
    (failed : decodeEntryList body = .error error) :
    ∃ fault, error = .malformed fault := by
  unfold decodeEntryList at failed
  split at failed
  · cases failed
    exact ⟨_, rfl⟩
  · rename_i countBytes rest _
    dsimp only at failed
    cases entriesRead : decodeEntries body.length (Bytes.toNatLE countBytes) 0 rest with
    | error other =>
        rw [entriesRead] at failed
        cases failed
        exact exists_malformed_of_decodeEntries_eq_error entriesRead
    | ok parts =>
        rw [entriesRead] at failed
        simp only [bind, Except.bind] at failed
        split at failed
        · cases failed
        · cases failed
          exact ⟨_, rfl⟩

/-- A stored body of the size that its header says does not break off. -/
theorem ne_truncated_of_decodeBody_eq_error
    {header : Header}
    {stored : Bytes}
    (length_stored : stored.length = header.bodySize)
    {error : FrameError}
    (failed : decodeBody header stored = .error error)
    (needed available : Nat) :
    error ≠ .truncated needed available := by
  rintro rfl
  unfold decodeBody at failed
  rw [if_neg (not_not.mpr length_stored)] at failed
  dsimp only at failed
  split at failed
  · cases failed
  · cases restored : restore header.isCompressed stored with
    | error other =>
        rw [restored] at failed
        cases failed
        unfold restore at restored
        split at restored
        · split at restored <;> cases restored
        · cases restored
    | ok body =>
        rw [restored] at failed
        obtain ⟨fault, isMalformed⟩ := exists_malformed_of_decodeEntryList_eq_error failed
        cases isMalformed

end Frame

namespace Segment

/-! ## One frame -/

/-- The damage that an error of decoding amounts to.  Data breaks off within what precedes
a body if it is shorter than that. -/
def Damage.ofError : FrameError → Damage
  | .truncated needed available =>
      if available < Frame.headerSize then .tornHeader available else .tornBody needed available
  | error => Reader.damageOf error

theorem Damage.ofError_of_ne_truncated
    {error : FrameError}
    (different : ∀ needed available, error ≠ .truncated needed available) :
    Damage.ofError error = Reader.damageOf error := by
  cases error with
  | truncated needed available => exact absurd rfl (different needed available)
  | disk | oversized | checksumMismatch | compression | malformed => rfl

namespace Reader

/-- A segment reader reads what is decoded from the front of its rest, and fails as decoding
fails. -/
theorem readFront_eq_decode (rest : Bytes) :
    readFront rest = (Frame.decode rest).mapError Damage.ofError := by
  by_cases short : rest.length < Frame.headerSize
  · have parted := Bytes.split?_eq_none_iff.mpr short
    have torn : Damage.ofError (.truncated Frame.headerSize rest.length) =
        .tornHeader rest.length :=
      if_pos short
    rw [readFront, Frame.decode, Frame.Header.read, parted]
    simp only [bind, Except.bind, Except.mapError, torn]
  obtain ⟨head, afterHead, length_head, rfl⟩ :
      ∃ head afterHead, head.length = Frame.headerSize ∧ rest = head ++ afterHead :=
    ⟨rest.take Frame.headerSize, rest.drop Frame.headerSize,
      List.length_take_of_le (Nat.not_lt.mp short), (List.take_append_drop _ _).symm⟩
  rw [readFront, Frame.decode, Frame.read_append length_head,
    Bytes.split?_append_of_length length_head]
  dsimp only
  cases headRead : Frame.Header.read head with
  | error error =>
      have alone := Bytes.split?_append_of_length length_head []
      rw [List.append_nil] at alone
      rw [Frame.Header.read, alone] at headRead
      dsimp only at headRead
      split at headRead <;> cases headRead
      rfl
  | ok header =>
      simp only [bind, Except.bind, List.length_append, length_head]
      by_cases torn : afterHead.length < header.bodySize
      · rw [Bytes.split?_eq_none_iff.mpr torn, if_pos (Nat.add_lt_add_left torn _)]
        simp only [Except.mapError, Damage.ofError]
        rw [if_neg (Nat.not_lt.mpr (Nat.le_add_right _ _))]
      · obtain ⟨stored, after, length_stored, rfl⟩ :
            ∃ stored after, stored.length = header.bodySize ∧ afterHead = stored ++ after :=
          ⟨afterHead.take header.bodySize, afterHead.drop header.bodySize,
            List.length_take_of_le (Nat.not_lt.mp torn), (List.take_append_drop _ _).symm⟩
        have enough : ¬Frame.headerSize + (stored ++ after).length <
            Frame.headerSize + header.bodySize := by
          omega
        rw [Bytes.split?_append_of_length length_stored, if_neg enough,
          List.drop_left' length_head, List.take_left' length_stored]
        dsimp only
        cases bodyRead : Frame.decodeBody header stored with
        | ok entries => rfl
        | error error =>
            have different := Frame.ne_truncated_of_decodeBody_eq_error length_stored bodyRead
            exact congrArg Except.error (Damage.ofError_of_ne_truncated different).symm

/-- A reader that has stopped stays as it is. -/
theorem next_of_next_eq_none
    {reader stopped : Reader}
    (read : reader.next = (none, stopped)) :
    stopped.next = (none, stopped) := by
  unfold next at read
  split at read
  · rename_i ended
    cases read
    rw [next, if_pos ended]
  · split at read
    · cases read
      exact if_pos (Or.inl rfl)
    · cases read

theorem next_readAll (reader : Reader) :
    reader.readAll.2.next = (none, reader.readAll.2) := by
  fun_induction readAll reader with
  | case1 reader stopped read => exact next_of_next_eq_none read
  | case2 reader frame after read frames stopped all inductionHypothesis =>
      rw [all] at inductionHypothesis
      exact inductionHypothesis

end Reader

/-! ## All frames -/

/-- Decode one frame after the other, until the data is used up or decoding fails.  The
result holds the entries and the sizes of the frames, and the error. -/
def decodeAll (data : Bytes) : List (List Entry × Nat) × Option FrameError :=
  if data.isEmpty then ([], none)
  else
    match _read : Frame.decode data with
    | .error error => ([], some error)
    | .ok (entries, size) =>
        let (results, failure) := decodeAll (data.drop size)
        ((entries, size) :: results, failure)
  termination_by data.length
  decreasing_by
    obtain ⟨whole, rest, rfl, _, rfl⟩ := Frame.exists_whole_of_decode_eq_ok _read
    have pos := whole.length_bytes_pos
    rw [List.drop_left, List.length_append]
    omega

/-- Frames that were decoded, each of which starts where the one before it ended. -/
def placedAt : (offset : Nat) → List (List Entry × Nat) → List ReadFrame
  | _, [] => []
  | offset, (entries, size) :: rest =>
      ⟨offset, offset + size, entries⟩ :: placedAt (offset + size) rest

/-- The size of frames that were decoded. -/
def totalSize (results : List (List Entry × Nat)) : Nat :=
  (results.map Prod.snd).sum

/-- A reader finds what decoding one frame after the other finds. -/
theorem Reader.readAll_eq_decodeAll (data : Bytes) (offset : Nat) :
    (Reader.mk data offset none).readAll =
      (placedAt offset (decodeAll data).1,
        Reader.mk (data.drop (totalSize (decodeAll data).1))
          (offset + totalSize (decodeAll data).1)
          ((decodeAll data).2.map fun error =>
            ⟨offset + totalSize (decodeAll data).1, Damage.ofError error⟩)) := by
  fun_induction decodeAll data generalizing offset with
  | case1 data empty =>
      rw [List.isEmpty_iff.mp empty]
      exact readAll_nil offset
  | case2 data filled error read =>
      have front := readFront_eq_decode data
      rw [read] at front
      refine readAll_eq_of_next_eq_none ?_
      simp only [next, Option.isSome_none, filled, Bool.false_eq_true, or_self, if_false, front,
        Except.mapError]
      rfl
  | case3 data filled entries size read results failure rest inductionHypothesis =>
      have front := readFront_eq_decode data
      rw [read] at front
      have step : (Reader.mk data offset none).next =
          (some ⟨offset, offset + size, entries⟩,
            Reader.mk (data.drop size) (offset + size) none) := by
        simp only [next, Option.isSome_none, filled, Bool.false_eq_true, or_self, if_false, front,
          Except.mapError]
      rw [readAll_eq_of_next_eq_some step, inductionHypothesis, rest, List.drop_drop]
      simp only [totalSize, List.map_cons, List.sum_cons, placedAt, Nat.add_assoc]

/-- What is read at an offset is what is decoded there. -/
theorem readAt_eq_ok_iff
    {data : Bytes}
    {offset : Nat}
    {entries : List Entry} :
    Frame.readAt data offset = .ok entries ↔
      ∃ size, Frame.decode (data.drop offset) = .ok (entries, size) := by
  have atFront : Frame.readAt data offset = Frame.readAt (data.drop offset) 0 := rfl
  constructor
  · intro read
    rw [atFront] at read
    obtain ⟨whole, rest, rfl, parts, _⟩ := Frame.exists_whole_of_readAt_eq_ok read
    rw [List.take_zero, List.nil_append] at parts
    exact ⟨_, by rw [parts, Frame.decode_append]⟩
  · rintro ⟨size, read⟩
    obtain ⟨whole, rest, parts, rfl, _⟩ := Frame.exists_whole_of_decode_eq_ok read
    rw [atFront, parts]
    exact Frame.readAt_append [] rest whole

/-- What a reader finds in a segment. -/
structure Agrees (data : Bytes) (frames : List ReadFrame) (stopped : Reader) : Prop where
  /-- The frames are those that are decoded one after the other. -/
  frames_eq : frames = placedAt 0 (decodeAll data).1
  /-- The reader stops where they end. -/
  offset_eq : stopped.offset = totalSize (decodeAll data).1
  /-- It reports damage exactly if decoding fails there: the same damage, and as its place
  the size of the valid frames. -/
  corruption_eq : stopped.corruption = (decodeAll data).2.map fun error =>
    ⟨stopped.offset, Damage.ofError error⟩
  /-- It reads nothing more and stays as it is. -/
  next_eq : stopped.next = (none, stopped)
  /-- Every frame is read again at its offset. -/
  readAt_eq : ∀ frame ∈ frames, Frame.readAt data frame.offset = .ok frame.entries

theorem agrees_readAll (data : Bytes) :
    Agrees data (Reader.ofBytes data).readAll.1 (Reader.ofBytes data).readAll.2 := by
  have all := Reader.readAll_eq_decodeAll data 0
  rw [Nat.zero_add] at all
  have offset_eq : (Reader.ofBytes data).readAll.2.offset = totalSize (decodeAll data).1 :=
    congrArg (fun read => read.2.offset) all
  have corruption_eq : (Reader.ofBytes data).readAll.2.corruption =
      (decodeAll data).2.map fun error =>
        ⟨totalSize (decodeAll data).1, Damage.ofError error⟩ :=
    congrArg (fun read => read.2.corruption) all
  rw [← offset_eq] at corruption_eq
  refine ⟨congrArg Prod.fst all, offset_eq, corruption_eq, Reader.next_readAll _, ?_⟩
  obtain ⟨frames, rest, rfl, stuck⟩ := Reader.exists_frames data
  rw [(Reader.readAll_spec frames stuck).1]
  exact fun frame present => @readAt_of_mem_placed [] _ _ _ present

/-- The three readers of frames agree on every byte string: at every offset, where past the
end all fail, and on all frames from the start on. -/
theorem readers_agree (data : Bytes) :
    (∀ offset entries, Frame.readAt data offset = .ok entries ↔
      ∃ size, Frame.decode (data.drop offset) = .ok (entries, size)) ∧
    (∀ beyond, (∃ error, Frame.readAt data (data.length + beyond) = .error error) ∧
      ∃ error, Frame.decode (data.drop (data.length + beyond)) = .error error) ∧
    Agrees data (Reader.ofBytes data).readAll.1 (Reader.ofBytes data).readAll.2 := by
  refine ⟨fun offset entries => readAt_eq_ok_iff, fun beyond => ?_, agrees_readAll data⟩
  have nothing : data.drop (data.length + beyond) = [] :=
    List.drop_eq_nil_of_le (Nat.le_add_right _ _)
  rw [Frame.readAt, nothing]
  exact ⟨⟨_, rfl⟩, _, rfl⟩

end Segment
end EventRelay
