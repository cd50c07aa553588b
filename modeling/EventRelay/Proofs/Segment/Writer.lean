import EventRelay.Proofs.Disk
import EventRelay.Segment.Writer

/-!
# What a segment writer has written

The written bytes of a segment are those of its file and, for the active
segment, the buffer after them.  Sending the buffer on moves bytes but changes
no written byte.  Writing a frame adds it at the end of the active segment, or
as the first frame of the next one, and leaves all other written bytes alone.
-/

namespace EventRelay
namespace Segment
namespace Writer

/-- The bytes written to a segment: its file, and what is still buffered. -/
def written (writer : Writer) (disk : Disk) (segment : Nat) : Bytes :=
  disk.segment segment ++ if segment = writer.segment then writer.buffer else []

/-- The writer has the file of the latest segment open. -/
structure HasFile (writer : Writer) (disk : Disk) : Prop where
  /-- No two names share a file. -/
  wellFormed : disk.WellFormed
  /-- The directory is there. -/
  isDirectory : disk.place = .directory
  /-- The writer's file is that of its segment. -/
  number_eq : disk.number? (name writer.segment) = some writer.file
  /-- No later segment is there. -/
  le_segment : ∀ other ∈ discover disk, other ≤ writer.segment

/-- The writer knows how much is written and how much of it is readable. -/
structure Ready (writer : Writer) (disk : Disk) : Prop extends HasFile writer disk where
  /-- The size is that of the written bytes. -/
  size_eq : writer.size = (writer.written disk writer.segment).length
  /-- What was sent on is in the file. -/
  flushedSize_le : writer.flushedSize ≤ (disk.segment writer.segment).length

/-- What bytes added at the end of the active segment leave. -/
structure Adds
    (writer : Writer) (disk : Disk) (bytes : Bytes) (after : Writer) (grown : Disk) : Prop
    extends HasFile after grown where
  /-- The writer works as before. -/
  settings_eq : after.settings = writer.settings
  /-- The active segment is the same. -/
  segment_eq : after.segment = writer.segment
  /-- The directory has the same names for the same files. -/
  names_eq : grown.names = disk.names
  /-- The bytes are written after those of the active segment. -/
  written_eq : ∀ segment, after.written grown segment =
    writer.written disk segment ++ if segment = writer.segment then bytes else []
  /-- Files only grow. -/
  isPrefix : ∀ segment, disk.segment segment <+: grown.segment segment

theorem written_self (writer : Writer) (disk : Disk) :
    writer.written disk writer.segment = disk.segment writer.segment ++ writer.buffer := by
  rw [written, if_pos rfl]

theorem written_of_ne
    {writer : Writer}
    {segment : Nat}
    (different : segment ≠ writer.segment)
    (disk : Disk) :
    writer.written disk segment = disk.segment segment := by
  rw [written, if_neg different, List.append_nil]

/-- Without a buffer everything written is in the files. -/
theorem written_of_buffer_eq_nil
    {writer : Writer}
    (sent : writer.buffer = [])
    (disk : Disk)
    (segment : Nat) :
    writer.written disk segment = disk.segment segment := by
  rw [written, sent, ite_self, List.append_nil]

theorem adds_nil
    {writer : Writer}
    {disk : Disk}
    (hasFile : writer.HasFile disk) :
    Adds writer disk [] writer disk where
  toHasFile := hasFile
  settings_eq := rfl
  segment_eq := rfl
  names_eq := rfl
  written_eq := by simp
  isPrefix := fun _ => List.prefix_refl _

/-- Bytes are added one after the other. -/
theorem Adds.trans
    {first second third : Writer}
    {before between after : Disk}
    {front back : Bytes}
    (lower : Adds first before front second between)
    (upper : Adds second between back third after) :
    Adds first before (front ++ back) third after where
  toHasFile := upper.toHasFile
  settings_eq := upper.settings_eq.trans lower.settings_eq
  segment_eq := upper.segment_eq.trans lower.segment_eq
  names_eq := upper.names_eq.trans lower.names_eq
  written_eq := by
    intro segment
    rw [upper.written_eq, lower.written_eq, lower.segment_eq, List.append_assoc]
    split <;> simp
  isPrefix := fun segment => (lower.isPrefix segment).trans (upper.isPrefix segment)

/-! ## Sending the buffer on -/

/-- A file that grows keeps the writer's file open. -/
theorem HasFile.append
    {writer : Writer}
    {disk : Disk}
    (hasFile : writer.HasFile disk)
    (bytes : Bytes) :
    writer.HasFile (disk.append writer.file bytes) where
  wellFormed := hasFile.wellFormed.append _ _
  isDirectory := (Disk.place_append _ _ _).trans hasFile.isDirectory
  number_eq := (Disk.number?_eq_of_names_eq (Disk.names_append _ _ _) _).trans hasFile.number_eq
  le_segment := by
    have same := discover_eq_of_names_eq (Disk.names_append disk writer.file bytes)
    exact same ▸ hasFile.le_segment

/-- Bytes go to the file while nothing is buffered. -/
theorem adds_append
    {writer : Writer}
    {disk : Disk}
    (hasFile : writer.HasFile disk)
    (sent : writer.buffer = [])
    (bytes : Bytes) :
    Adds writer disk bytes writer (disk.append writer.file bytes) where
  toHasFile := hasFile.append bytes
  settings_eq := rfl
  segment_eq := rfl
  names_eq := Disk.names_append _ _ _
  written_eq := by
    intro segment
    rw [written_of_buffer_eq_nil sent, written_of_buffer_eq_nil sent,
      Disk.segment_append hasFile.wellFormed hasFile.number_eq]
  isPrefix := by
    intro segment
    rw [Disk.segment_append hasFile.wellFormed hasFile.number_eq]
    exact List.prefix_append _ _

/-- Sending the buffer on changes nothing that is written. -/
theorem adds_spill
    {writer : Writer}
    {disk : Disk}
    (hasFile : writer.HasFile disk) :
    Adds writer disk [] (writer.spill disk).1 (writer.spill disk).2 where
  toHasFile :=
    have grown := hasFile.append writer.buffer
    ⟨grown.wellFormed, grown.isDirectory, grown.number_eq, grown.le_segment⟩
  settings_eq := rfl
  segment_eq := rfl
  names_eq := Disk.names_append _ _ _
  written_eq := by
    intro segment
    rw [written_of_buffer_eq_nil rfl, spill,
      Disk.segment_append hasFile.wellFormed hasFile.number_eq, written]
    simp
  isPrefix := by
    intro segment
    rw [spill, Disk.segment_append hasFile.wellFormed hasFile.number_eq]
    exact List.prefix_append _ _

theorem adds_flush
    {writer : Writer}
    {disk : Disk}
    (hasFile : writer.HasFile disk) :
    Adds writer disk [] (writer.flush disk).1 (writer.flush disk).2 :=
  have sent := adds_spill hasFile
  ⟨⟨sent.wellFormed, sent.isDirectory, sent.number_eq, sent.le_segment⟩, rfl, rfl,
    sent.names_eq, sent.written_eq, sent.isPrefix⟩

/-- After sending the buffer on, everything written is in the files. -/
theorem segment_flush
    {writer : Writer}
    {disk : Disk}
    (hasFile : writer.HasFile disk)
    (segment : Nat) :
    (writer.flush disk).2.segment segment = writer.written disk segment := by
  have bytes := (adds_flush hasFile).written_eq segment
  rwa [written_of_buffer_eq_nil rfl, ite_self, List.append_nil] at bytes

/-- After sending the buffer on, everything written is readable. -/
theorem ready_flush
    {writer : Writer}
    {disk : Disk}
    (ready : writer.Ready disk) :
    (writer.flush disk).1.Ready (writer.flush disk).2 := by
  have sent := adds_flush ready.toHasFile
  have size : writer.size = ((writer.flush disk).2.segment writer.segment).length := by
    rw [segment_flush ready.toHasFile, ready.size_eq]
  refine ⟨sent.toHasFile, ?_, Nat.le_of_eq size⟩
  rw [written_of_buffer_eq_nil rfl]
  exact size

/-- Making what was sent durable does the same as sending it. -/
theorem adds_sync
    {writer : Writer}
    {disk : Disk}
    (hasFile : writer.HasFile disk) :
    Adds writer disk [] (writer.sync disk).1 (writer.sync disk).2 :=
  have sent := adds_flush hasFile
  ⟨⟨sent.wellFormed, sent.isDirectory, sent.number_eq, sent.le_segment⟩, rfl, rfl,
    sent.names_eq, sent.written_eq, sent.isPrefix⟩

theorem ready_sync
    {writer : Writer}
    {disk : Disk}
    (ready : writer.Ready disk) :
    (writer.sync disk).1.Ready (writer.sync disk).2 :=
  have sent := ready_flush ready
  ⟨⟨sent.wellFormed, sent.isDirectory, sent.number_eq, sent.le_segment⟩, sent.size_eq,
    sent.flushedSize_le⟩

/-! ## Writing bytes -/

/-- Bytes put into an empty enough buffer are written. -/
theorem adds_buffer
    {writer : Writer}
    {disk : Disk}
    (hasFile : writer.HasFile disk)
    (bytes : Bytes) :
    Adds writer disk bytes { writer with buffer := writer.buffer ++ bytes } disk where
  toHasFile := ⟨hasFile.wellFormed, hasFile.isDirectory, hasFile.number_eq, hasFile.le_segment⟩
  settings_eq := rfl
  segment_eq := rfl
  names_eq := rfl
  written_eq := by
    intro segment
    rw [written, written]
    split <;> simp
  isPrefix := fun _ => List.prefix_refl _

/-- Send the buffer on if bytes do not fit its free part. -/
def makeRoom (writer : Writer) (disk : Disk) (bytes : Bytes) : Writer × Disk :=
  if bufferSize < writer.buffer.length + bytes.length then writer.spill disk else (writer, disk)

/-- Add bytes to the buffer, or to the file if they are as large as the buffer. -/
def add (writer : Writer) (disk : Disk) (bytes : Bytes) : Writer × Disk :=
  if bufferSize ≤ bytes.length then (writer, disk.append writer.file bytes)
  else ({ writer with buffer := writer.buffer ++ bytes }, disk)

theorem put_eq (writer : Writer) (disk : Disk) (bytes : Bytes) :
    writer.put disk bytes =
      (writer.makeRoom disk bytes).1.add (writer.makeRoom disk bytes).2 bytes :=
  rfl

/-- Bytes that are put are written, whichever way they go. -/
theorem adds_put
    {writer : Writer}
    {disk : Disk}
    (hasFile : writer.HasFile disk)
    (bytes : Bytes) :
    Adds writer disk bytes (writer.put disk bytes).1 (writer.put disk bytes).2 := by
  have room : Adds writer disk [] (writer.makeRoom disk bytes).1
      (writer.makeRoom disk bytes).2 := by
    rw [makeRoom]
    split
    · exact adds_spill hasFile
    · exact adds_nil hasFile
  rw [put_eq, add]
  split
  · rename_i large
    have sent : (writer.makeRoom disk bytes).1.buffer = [] := by
      rw [makeRoom]
      split
      · rfl
      · -- The bytes would fill the whole buffer, so nothing else is in it.
        change writer.buffer = []
        rw [← List.length_eq_zero_iff]
        omega
    exact room.trans (adds_append room.toHasFile sent bytes)
  · exact room.trans (adds_buffer room.toHasFile bytes)

theorem size_put (writer : Writer) (disk : Disk) (bytes : Bytes) :
    (writer.put disk bytes).1.size = writer.size ∧
      (writer.put disk bytes).1.flushedSize = writer.flushedSize := by
  rw [put_eq, add, makeRoom]
  split <;> split <;> exact ⟨rfl, rfl⟩

/-- Count a frame that was put. -/
def counted (writer : Writer) (frame : Bytes) : Writer :=
  { writer with
    size := writer.size + frame.length
    unflushed := writer.unflushed + 1
    unsynced := writer.unsynced + 1 }

/-- Add a frame to the active segment. -/
def record (writer : Writer) (disk : Disk) (frame : Bytes) : Writer × Disk :=
  ((writer.put disk frame).1.counted frame, (writer.put disk frame).2)

theorem adds_record
    {writer : Writer}
    {disk : Disk}
    (hasFile : writer.HasFile disk)
    (frame : Bytes) :
    Adds writer disk frame (writer.record disk frame).1 (writer.record disk frame).2 :=
  have put := adds_put hasFile frame
  ⟨⟨put.wellFormed, put.isDirectory, put.number_eq, put.le_segment⟩, put.settings_eq,
    put.segment_eq, put.names_eq, put.written_eq, put.isPrefix⟩

theorem ready_record
    {writer : Writer}
    {disk : Disk}
    (ready : writer.Ready disk)
    (frame : Bytes) :
    (writer.record disk frame).1.Ready (writer.record disk frame).2 := by
  have added := adds_record ready.toHasFile frame
  obtain ⟨size_eq, flushedSize_eq⟩ := size_put writer disk frame
  refine ⟨added.toHasFile, ?_, ?_⟩
  · rw [added.written_eq, added.segment_eq, if_pos rfl, List.length_append, ← ready.size_eq]
    exact congrArg (· + frame.length) size_eq
  · change (writer.put disk frame).1.flushedSize ≤ _
    rw [flushedSize_eq, added.segment_eq]
    exact Nat.le_trans ready.flushedSize_le (added.isPrefix writer.segment).length_le

/-! ## Following the policies -/

/-- Send the buffer on if that is due. -/
def flushIfDue (writer : Writer) (disk : Disk) : Writer × Disk :=
  if writer.mustFlush then writer.flush disk else (writer, disk)

/-- Make what was sent durable if that is due. -/
def syncIfDue (writer : Writer) (disk : Disk) : Writer × Disk :=
  if writer.mustSync then writer.sync disk else (writer, disk)

/-- What following a policy leaves: no written byte changes, and what is known
to be readable is everything or what it was before. -/
structure Settles (writer : Writer) (disk : Disk) (after : Writer) (grown : Disk) : Prop where
  /-- Nothing is added. -/
  adds : Adds writer disk [] after grown
  /-- The sizes are known. -/
  ready : after.Ready grown
  /-- The size is the same. -/
  size_eq : after.size = writer.size
  /-- Everything is sent on, or nothing is. -/
  flushedSize_eq : after.flushedSize = writer.size ∨ after.flushedSize = writer.flushedSize

theorem Settles.trans
    {first second third : Writer}
    {before between after : Disk}
    (lower : Settles first before second between)
    (upper : Settles second between third after) :
    Settles first before third after where
  adds := lower.adds.trans upper.adds
  ready := upper.ready
  size_eq := upper.size_eq.trans lower.size_eq
  flushedSize_eq := by
    have size := lower.size_eq
    have lowerFlushed := lower.flushedSize_eq
    have upperFlushed := upper.flushedSize_eq
    omega

theorem settles_self
    {writer : Writer}
    {disk : Disk}
    (ready : writer.Ready disk) :
    Settles writer disk writer disk :=
  ⟨adds_nil ready.toHasFile, ready, rfl, Or.inr rfl⟩

theorem settles_flush
    {writer : Writer}
    {disk : Disk}
    (ready : writer.Ready disk) :
    Settles writer disk (writer.flush disk).1 (writer.flush disk).2 :=
  ⟨adds_flush ready.toHasFile, ready_flush ready, rfl, Or.inl rfl⟩

theorem settles_sync
    {writer : Writer}
    {disk : Disk}
    (ready : writer.Ready disk) :
    Settles writer disk (writer.sync disk).1 (writer.sync disk).2 :=
  ⟨adds_sync ready.toHasFile, ready_sync ready, rfl, Or.inl rfl⟩

theorem settles_flushIfDue
    {writer : Writer}
    {disk : Disk}
    (ready : writer.Ready disk) :
    Settles writer disk (writer.flushIfDue disk).1 (writer.flushIfDue disk).2 := by
  rw [flushIfDue]
  split
  · exact settles_flush ready
  · exact settles_self ready

theorem settles_syncIfDue
    {writer : Writer}
    {disk : Disk}
    (ready : writer.Ready disk) :
    Settles writer disk (writer.syncIfDue disk).1 (writer.syncIfDue disk).2 := by
  rw [syncIfDue]
  split
  · exact settles_sync ready
  · exact settles_self ready

/-- Making a frame readable changes no written byte. -/
theorem settles_ensureReadable
    {writer : Writer}
    {disk : Disk}
    (ready : writer.Ready disk)
    (position : Position) :
    Settles writer disk (writer.ensureReadable disk position).1
      (writer.ensureReadable disk position).2 := by
  rw [ensureReadable]
  split
  · exact settles_flush ready
  · exact settles_self ready

/-! ## Leaving a segment -/

/-- The next segment is not there yet. -/
theorem number?_next
    {writer : Writer}
    {disk : Disk}
    (hasFile : writer.HasFile disk)
    (small : writer.segment + 1 < 0x10000000000000000) :
    disk.number? (name (writer.segment + 1)) = none := by
  apply Disk.number?_name_eq_none small
  intro present
  have bound := hasFile.le_segment (writer.segment + 1) present
  omega

/-- The writer of the next segment, which has a new file. -/
def successor (writer : Writer) (file : Nat) : Writer :=
  { writer with
    file := file
    segment := writer.segment + 1
    size := 0
    flushedSize := 0 }

theorem rotate_eq
    {writer : Writer}
    {disk : Disk}
    (missing : (writer.sync disk).2.number? (name (writer.segment + 1)) = none) :
    writer.rotate disk =
      ((writer.sync disk).1.successor (writer.sync disk).2.contents.size,
        (writer.sync disk).2.create (name (writer.segment + 1))) := by
  have opened : writer.rotate disk =
      ((writer.sync disk).1.successor
          ((writer.sync disk).2.openOrCreate (name (writer.segment + 1))).2,
        ((writer.sync disk).2.openOrCreate (name (writer.segment + 1))).1) :=
    rfl
  rw [opened, Disk.openOrCreate_of_number?_eq_none missing]

/-- What leaving the active segment for the next one leaves. -/
structure Rotates (writer : Writer) (disk : Disk) (after : Writer) (grown : Disk) : Prop where
  /-- The sizes are known. -/
  ready : after.Ready grown
  /-- The writer works as before. -/
  settings_eq : after.settings = writer.settings
  /-- The next segment is active. -/
  segment_eq : after.segment = writer.segment + 1
  /-- The next segment is empty. -/
  size_eq : after.size = 0
  /-- Nothing of the next segment was sent on. -/
  flushedSize_eq : after.flushedSize = 0
  /-- The written bytes are the same. -/
  written_eq : ∀ segment, after.written grown segment = writer.written disk segment
  /-- The next segment is found after the others. -/
  discover_eq : discover grown = discover disk ++ [writer.segment + 1]
  /-- Names keep their files. -/
  number?_kept : ∀ name number,
    disk.number? name = some number → grown.number? name = some number
  /-- Files only grow. -/
  isPrefix : ∀ segment, disk.segment segment <+: grown.segment segment

theorem rotates
    {writer : Writer}
    {disk : Disk}
    (ready : writer.Ready disk)
    (small : writer.segment + 1 < 0x10000000000000000) :
    Rotates writer disk (writer.rotate disk).1 (writer.rotate disk).2 := by
  have synced := adds_sync ready.toHasFile
  have missing := number?_next synced.toHasFile
  rw [synced.segment_eq] at missing
  replace missing := missing small
  have discovered : discover ((writer.sync disk).2.create (name (writer.segment + 1))) =
      discover disk ++ [writer.segment + 1] := by
    rw [← discover_eq_of_names_eq synced.names_eq]
    refine discover_concat small (Disk.listing_create _ _) fun other present => ?_
    exact Nat.le_succ_of_le (synced.le_segment other present)
  have written : ∀ segment, (writer.rotate disk).1.written (writer.rotate disk).2 segment =
      writer.written disk segment := by
    intro segment
    have bytes := synced.written_eq segment
    rw [ite_self, List.append_nil, written_of_buffer_eq_nil rfl] at bytes
    rw [rotate_eq missing, written_of_buffer_eq_nil rfl, Disk.segment_create missing, bytes]
  have nothing : (writer.sync disk).2.segment (writer.segment + 1) = [] := by
    rw [Disk.segment, missing]
    rfl
  rw [rotate_eq missing] at written ⊢
  refine ⟨⟨⟨synced.wellFormed.create _, synced.isDirectory, ?_, ?_⟩, ?_, Nat.zero_le _⟩, rfl,
    rfl, rfl, rfl, written, discovered, ?_, ?_⟩
  · exact (Disk.number?_create missing _).trans (if_pos rfl)
  · intro other present
    rw [discovered, List.mem_append, List.mem_singleton] at present
    rcases present with old | rfl
    · exact Nat.le_succ_of_le (ready.le_segment other old)
    · exact Nat.le_refl _
  · rw [written_of_buffer_eq_nil rfl, Disk.segment_create missing]
    exact (congrArg List.length nothing).symm
  · intro name number found
    rw [← Disk.number?_eq_of_names_eq synced.names_eq] at found
    exact Disk.number?_create_of_number?_eq_some found _
  · intro segment
    rw [Disk.segment_create missing]
    exact synced.isPrefix segment

/-! ## Writing a frame -/

/-- Leave the active segment for the next one if it is full. -/
def enter (writer : Writer) (disk : Disk) : Writer × Disk :=
  if writer.isFull then writer.rotate disk else (writer, disk)

/-- Add a frame to the active segment and follow the policies. -/
def deposit (writer : Writer) (disk : Disk) (frame : Bytes) : Writer × Disk :=
  let recorded := writer.record disk frame
  let flushed := recorded.1.flushIfDue recorded.2
  flushed.1.syncIfDue flushed.2

theorem write_eq (writer : Writer) (disk : Disk) (frame : Bytes) :
    writer.write disk frame =
      (⟨(writer.enter disk).1.segment, (writer.enter disk).1.size⟩,
        (writer.enter disk).1.deposit (writer.enter disk).2 frame) :=
  rfl

/-- A frame is placed where the active segment ends, or at the start of the next one
if the active one is full. -/
theorem position_write (writer : Writer) (disk : Disk) (frame : Bytes) :
    (writer.write disk frame).1 =
      if writer.isFull then ⟨writer.segment + 1, 0⟩ else ⟨writer.segment, writer.size⟩ := by
  rw [write_eq, enter]
  split <;> rfl

theorem segment_put (writer : Writer) (disk : Disk) (bytes : Bytes) :
    (writer.put disk bytes).1.segment = writer.segment := by
  rw [put_eq, add, makeRoom]
  split <;> split <;> rfl

theorem segment_flushIfDue (writer : Writer) (disk : Disk) :
    (writer.flushIfDue disk).1.segment = writer.segment := by
  rw [flushIfDue]
  split <;> rfl

theorem segment_syncIfDue (writer : Writer) (disk : Disk) :
    (writer.syncIfDue disk).1.segment = writer.segment := by
  rw [syncIfDue]
  split <;> rfl

/-- No frame is written to an earlier segment. -/
theorem segment_le_write (writer : Writer) (disk : Disk) (frame : Bytes) :
    writer.segment ≤ (writer.write disk frame).2.1.segment := by
  rw [write_eq, deposit, segment_syncIfDue, segment_flushIfDue, record, counted, segment_put, enter]
  split
  · exact Nat.le_succ _
  · exact Nat.le_refl _

/-- What a frame written at a position leaves. -/
structure Stores
    (writer : Writer) (disk : Disk) (frame : Bytes)
    (position : Position) (after : Writer) (grown : Disk) : Prop where
  /-- The sizes are known. -/
  ready : after.Ready grown
  /-- The writer works as before. -/
  settings_eq : after.settings = writer.settings
  /-- The frame is in the segment that is active now. -/
  segment_eq : position.segment = after.segment
  /-- The frame starts where the segment ended. -/
  offset_eq : position.offset = (writer.written disk position.segment).length
  /-- The segment ends where the frame does. -/
  size_eq : after.size = position.offset + frame.length
  /-- The frame is written after what its segment held. -/
  written_eq : ∀ segment, after.written grown segment =
    writer.written disk segment ++ if segment = position.segment then frame else []
  /-- The segment is the one that was active, or a new one after it. -/
  follows : (after.segment = writer.segment ∧ discover grown = discover disk) ∨
    (after.segment = writer.segment + 1 ∧
      discover grown = discover disk ++ [writer.segment + 1])
  /-- Names keep their files. -/
  number?_kept : ∀ name number,
    disk.number? name = some number → grown.number? name = some number
  /-- Files only grow. -/
  isPrefix : ∀ segment, disk.segment segment <+: grown.segment segment
  /-- What is known to be readable is everything, nothing of a new segment, or
  what it was before. -/
  flushedSize_eq : after.flushedSize = after.size ∨
    after.segment = writer.segment + 1 ∧ after.flushedSize = 0 ∨
    after.segment = writer.segment ∧ after.flushedSize = writer.flushedSize

/-- A frame is added to the active segment. -/
theorem deposit_spec
    {writer : Writer}
    {disk : Disk}
    (ready : writer.Ready disk)
    (frame : Bytes) :
    Adds writer disk frame (writer.deposit disk frame).1 (writer.deposit disk frame).2 ∧
      (writer.deposit disk frame).1.Ready (writer.deposit disk frame).2 ∧
      (writer.deposit disk frame).1.size = writer.size + frame.length ∧
      ((writer.deposit disk frame).1.flushedSize = writer.size + frame.length ∨
        (writer.deposit disk frame).1.flushedSize = writer.flushedSize) := by
  obtain ⟨size_eq, flushedSize_eq⟩ := size_put writer disk frame
  have recordedSize : (writer.record disk frame).1.size = writer.size + frame.length :=
    congrArg (· + frame.length) size_eq
  have recordedFlushed : (writer.record disk frame).1.flushedSize = writer.flushedSize :=
    flushedSize_eq
  have flushed := settles_flushIfDue (ready_record ready frame)
  have settled := flushed.trans (settles_syncIfDue flushed.ready)
  have added := (adds_record ready.toHasFile frame).trans settled.adds
  rw [List.append_nil] at added
  refine ⟨added, settled.ready, settled.size_eq.trans recordedSize, ?_⟩
  rw [← recordedSize, ← recordedFlushed]
  exact settled.flushedSize_eq

/-- A frame is written where the active segment ends, or at the start of the
next one if the active one is full. -/
theorem stores_write
    {writer : Writer}
    {disk : Disk}
    (ready : writer.Ready disk)
    (small : writer.segment + 1 < 0x10000000000000000)
    (frame : Bytes) :
    Stores writer disk frame (writer.write disk frame).1
      (writer.write disk frame).2.1 (writer.write disk frame).2.2 := by
  rw [write_eq]
  by_cases full : writer.isFull = true
  · rw [enter, if_pos full]
    have rotated := rotates ready small
    obtain ⟨added, settled, size_eq, flushedSize_eq⟩ := deposit_spec rotated.ready frame
    refine ⟨settled, added.settings_eq.trans rotated.settings_eq, added.segment_eq.symm, ?_,
      size_eq, fun segment => ?_, Or.inr ⟨added.segment_eq.trans rotated.segment_eq, ?_⟩,
      fun name number found => ?_, fun segment => ?_, ?_⟩
    · rw [← rotated.written_eq]
      exact rotated.ready.size_eq
    · rw [added.written_eq, rotated.written_eq]
    · exact (discover_eq_of_names_eq added.names_eq).trans rotated.discover_eq
    · exact (Disk.number?_eq_of_names_eq added.names_eq name).trans
        (rotated.number?_kept name number found)
    · exact (rotated.isPrefix segment).trans (added.isPrefix segment)
    · rcases flushedSize_eq with everything | nothing
      · exact Or.inl (everything.trans size_eq.symm)
      · exact Or.inr (Or.inl ⟨added.segment_eq.trans rotated.segment_eq,
          nothing.trans rotated.flushedSize_eq⟩)
  · rw [enter, if_neg full]
    obtain ⟨added, settled, size_eq, flushedSize_eq⟩ := deposit_spec ready frame
    refine ⟨settled, added.settings_eq, added.segment_eq.symm, ready.size_eq, size_eq,
      added.written_eq, Or.inl ⟨added.segment_eq, discover_eq_of_names_eq added.names_eq⟩,
      fun name number found => ?_, added.isPrefix, ?_⟩
    · exact (Disk.number?_eq_of_names_eq added.names_eq name).trans found
    · rcases flushedSize_eq with everything | nothing
      · exact Or.inl (everything.trans size_eq.symm)
      · exact Or.inr (Or.inr ⟨added.segment_eq, nothing⟩)

/-- When everything is sent on, the file of the active segment holds all that is
written. -/
theorem Ready.segment_eq_written
    {writer : Writer}
    {disk : Disk}
    (ready : writer.Ready disk)
    (everything : writer.flushedSize = writer.size) :
    disk.segment writer.segment = writer.written disk writer.segment := by
  have bound := ready.flushedSize_le
  rw [everything, ready.size_eq, written_self, List.length_append] at bound
  have sent : writer.buffer = [] := by
    rw [← List.length_eq_zero_iff]
    omega
  rw [written_self, sent, List.append_nil]

end Writer
end Segment
end EventRelay
