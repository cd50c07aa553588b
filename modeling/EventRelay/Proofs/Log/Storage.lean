import EventRelay.Log.Basic
import EventRelay.Proofs.Frame.RoundTrip
import EventRelay.Proofs.Key.Map
import EventRelay.Proofs.Segment.Writer

/-!
# The index leads to the stored values

Every location of the index leads to a written frame that holds the key and its
value in its slot.  A frame before the size that was last sent on can be read
from the file.  Appending entries and making frames readable keep this so, and
the map of an append is the map before it with the entries inserted.
-/

namespace EventRelay
namespace Log

open EventRelay.Frame (Whole)
open Segment (Position Writer)

/-! ## Frames at positions -/

/-- A frame with the given entries is written at a position. -/
structure Holds
    (writer : Writer) (disk : Disk) (position : Position) (entries : List Entry) : Prop where
  /-- The frame is among the written bytes. -/
  written : Frame.readAt (writer.written disk position.segment) position.offset = .ok entries
  /-- The frame is in the file if it counts as sent on. -/
  readable : position.segment = writer.segment → position.offset < writer.flushedSize →
    Frame.readAt (disk.segment position.segment) position.offset = .ok entries

/-- A frame stays at its position when segments grow. -/
theorem Holds.grow
    {writer after : Writer}
    {disk grown : Disk}
    {position : Position}
    {entries : List Entry}
    (holds : Holds writer disk position entries)
    (ready : after.Ready grown)
    {more : Bytes}
    (written_eq : after.written grown position.segment =
      writer.written disk position.segment ++ more)
    (isPrefix : disk.segment position.segment <+: grown.segment position.segment)
    (flushedSize_eq : after.flushedSize = after.size ∨ after.flushedSize = 0 ∨
      after.segment = writer.segment ∧ after.flushedSize = writer.flushedSize) :
    Holds after grown position entries := by
  have written : Frame.readAt (after.written grown position.segment) position.offset =
      .ok entries := by
    rw [written_eq]
    exact Frame.readAt_append_of_readAt_eq_ok holds.written more
  refine ⟨written, fun active sent => ?_⟩
  rcases flushedSize_eq with everything | nothing | ⟨sameSegment, same⟩
  · rw [active, ready.segment_eq_written everything, ← active]
    exact written
  · omega
  · obtain ⟨rest, grown_eq⟩ := isPrefix
    rw [← grown_eq]
    exact Frame.readAt_append_of_readAt_eq_ok
      (holds.readable (active.trans sameSegment) (same ▸ sent)) rest

/-- Following a policy keeps frames at their positions. -/
theorem Holds.settle
    {writer after : Writer}
    {disk grown : Disk}
    {position : Position}
    {entries : List Entry}
    (holds : Holds writer disk position entries)
    (settles : Writer.Settles writer disk after grown) :
    Holds after grown position entries := by
  have written := settles.adds.written_eq position.segment
  refine holds.grow settles.ready written (settles.adds.isPrefix _) ?_
  rcases settles.flushedSize_eq with everything | same
  · exact Or.inl (everything.trans settles.size_eq.symm)
  · exact Or.inr (Or.inr ⟨settles.adds.segment_eq, same⟩)

/-- Writing a frame keeps the others at their positions. -/
theorem Holds.write
    {writer after : Writer}
    {disk grown : Disk}
    {position new : Position}
    {entries : List Entry}
    {frame : Bytes}
    (holds : Holds writer disk position entries)
    (stores : Writer.Stores writer disk frame new after grown) :
    Holds after grown position entries := by
  refine holds.grow stores.ready (stores.written_eq _) (stores.isPrefix _) ?_
  rcases stores.flushedSize_eq with everything | ⟨_, nothing⟩ | same
  · exact Or.inl everything
  · exact Or.inr (Or.inl nothing)
  · exact Or.inr (Or.inr same)

/-- A frame is at the position where it was written. -/
theorem holds_of_stores
    {writer after : Writer}
    {disk grown : Disk}
    {position : Position}
    {whole : Whole}
    (ready : writer.Ready disk)
    (stores : Writer.Stores writer disk whole.bytes position after grown) :
    Holds after grown position whole.entries := by
  have written : Frame.readAt (after.written grown position.segment) position.offset =
      .ok whole.entries := by
    have found := Frame.readAt_append (writer.written disk position.segment) [] whole
    rw [List.append_nil] at found
    rw [stores.written_eq, if_pos rfl, stores.offset_eq]
    exact found
  refine ⟨written, fun active sent => ?_⟩
  rcases stores.flushedSize_eq with everything | ⟨_, nothing⟩ | ⟨sameSegment, same⟩
  · rw [active, stores.ready.segment_eq_written everything, ← active]
    exact written
  · omega
  · -- What was known to be readable ends before the frame.
    have bound := ready.flushedSize_le
    have offset := stores.offset_eq
    rw [active, sameSegment, Writer.written_self, List.length_append] at offset
    omega

/-- A frame that was made readable can be read from its file. -/
theorem Holds.readAt_ensureReadable
    {writer : Writer}
    {disk : Disk}
    {position : Position}
    {entries : List Entry}
    (holds : Holds writer disk position entries)
    (ready : writer.Ready disk) :
    Frame.readAt ((writer.ensureReadable disk position).2.segment position.segment)
      position.offset = .ok entries := by
  rw [Writer.ensureReadable]
  split
  · rw [Writer.segment_flush ready.toHasFile]
    exact holds.written
  · rename_i sent
    by_cases active : position.segment = writer.segment
    · exact holds.readable active (Nat.lt_of_not_le fun beyond => sent ⟨active, beyond⟩)
    · have written := holds.written
      rwa [Writer.written_of_ne active] at written

/-- The file of a segment with a frame is there. -/
theorem exists_number_of_readAt
    {disk : Disk}
    {segment offset : Nat}
    {entries : List Entry}
    (read : Frame.readAt (disk.segment segment) offset = .ok entries) :
    ∃ file, disk.number? (Segment.name segment) = some file ∧
      Frame.readAt (disk.content file) offset = .ok entries := by
  cases found : disk.number? (Segment.name segment) with
  | none =>
      have nothing : disk.segment segment = [] := by
        rw [Disk.segment, found]
        rfl
      obtain ⟨whole, rest, _, parts, _⟩ := Frame.exists_whole_of_readAt_eq_ok read
      have pos := whole.length_bytes_pos
      have sizes := congrArg List.length parts
      rw [nothing] at sizes
      simp only [List.take_nil, List.nil_append, List.length_nil, List.length_append] at sizes
      omega
  | some file =>
      rw [Disk.segment_eq_content found] at read
      exact ⟨file, rfl, read⟩

/-! ## Locations of the index -/

/-- A location leads to a value stored under a key. -/
def Leads
    (writer : Writer) (disk : Disk) (key : Key) (location : Location) (value : Bytes) : Prop :=
  ∃ entries, Holds writer disk location.frame entries ∧
    entries[location.slot]? = some ⟨key, value⟩

/-- Entering the entries of a frame keeps an index and a map related. -/
theorem matches_addFrom
    {related : Key → Location → Bytes → Prop}
    {index : Index}
    {contents : KeyMap Bytes}
    (agree : KeyMap.Matches related index contents)
    {frame : Position}
    {slot : Nat}
    {entries : List Entry}
    (stored : ∀ place entry, entries[place]? = some entry →
      related entry.key ⟨frame, slot + place⟩ entry.value) :
    KeyMap.Matches related (Index.addFrom frame slot entries index)
      (contents.enter entries) := by
  induction entries generalizing slot index contents with
  | nil => exact agree
  | cons entry rest inductionHypothesis =>
      have first := stored 0 entry rfl
      refine inductionHypothesis (agree.insert first) fun place other present => ?_
      rw [Nat.add_assoc, Nat.add_comm 1]
      exact stored (place + 1) other present

theorem matches_add
    {related : Key → Location → Bytes → Prop}
    {index : Index}
    {contents : KeyMap Bytes}
    (agree : KeyMap.Matches related index contents)
    {frame : Position}
    {entries : List Entry}
    (stored : ∀ place entry, entries[place]? = some entry →
      related entry.key ⟨frame, place⟩ entry.value) :
    KeyMap.Matches related (Index.add index frame entries) (contents.enter entries) := by
  refine matches_addFrom agree fun place entry present => ?_
  rw [Nat.zero_add]
  exact stored place entry present

/-- An open log serves the values of a map. -/
structure Serves (log : Log) (writer : Writer) (disk : Disk) (contents : KeyMap Bytes) : Prop where
  /-- The log is open. -/
  writer_eq : log.writer = some writer
  /-- The writer knows its sizes. -/
  ready : writer.Ready disk
  /-- The index leads to the values. -/
  agree : KeyMap.Matches (Leads writer disk) log.index contents
  /-- The map is in order. -/
  ascending : contents.Ascending

/-- Making a frame readable changes nothing that is served. -/
theorem Serves.settle
    {log : Log}
    {writer after : Writer}
    {disk grown : Disk}
    {contents : KeyMap Bytes}
    (serves : Serves log writer disk contents)
    (settles : Writer.Settles writer disk after grown) :
    Serves { log with writer := some after } after grown contents where
  writer_eq := rfl
  ready := settles.ready
  agree := serves.agree.imp fun _ _ _ ⟨entries, holds, present⟩ =>
    ⟨entries, holds.settle settles, present⟩
  ascending := serves.ascending

/-! ## Appending -/

/-- What an accepted batch of entries leaves. -/
structure Appends
    (log : Log) (writer : Writer) (disk : Disk) (whole : Whole)
    (after : Log) (grown : Disk) : Prop where
  /-- The log was open. -/
  before_eq : log.writer = some writer
  /-- The writer has written the frame. -/
  writer_eq : after.writer = some (writer.write disk whole.bytes).2.1
  /-- The index has the frame's entries. -/
  index_eq : after.index =
    Index.add log.index (writer.write disk whole.bytes).1 whole.entries
  /-- The log works as before. -/
  settings_eq : after.settings = log.settings
  /-- The disk is that of the writer. -/
  disk_eq : grown = (writer.write disk whole.bytes).2.2

/-- Values that are not too large have sizes of 32 bits. -/
theorem fits_of_oversized?_eq_none
    {entries : List Entry}
    (length_lt : entries.length < Bytes.cardinality 4)
    (small : oversized? entries = none) :
    Frame.Fits entries where
  length_lt := length_lt
  value_lt := by
    intro entry present
    have bound := List.find?_eq_none.mp small entry present
    rw [decide_eq_true_iff, Nat.not_lt] at bound
    exact Nat.lt_of_le_of_lt bound (by decide)

theorem append_nil (log : Log) (disk : Disk) : log.append disk [] = .ok (log, disk) :=
  rfl

/-- An accepted batch of entries is written as one whole frame. -/
theorem exists_appends
    {log after : Log}
    {disk grown : Disk}
    {entries : List Entry}
    (notEmpty : entries ≠ [])
    (length_lt : entries.length < Bytes.cardinality 4)
    (accepted : log.append disk entries = .ok (after, grown)) :
    ∃ writer whole, whole.entries = entries ∧ Appends log writer disk whole after grown := by
  rw [append, if_neg (by simpa using notEmpty)] at accepted
  cases large : oversized? entries with
  | some entry =>
      rw [large] at accepted
      cases accepted
  | none =>
      rw [large] at accepted
      cases encoded : Frame.encode entries log.settings.compression with
      | error error =>
          rw [encoded] at accepted
          cases accepted
      | ok frame =>
          rw [encoded] at accepted
          obtain ⟨whole, rfl, rfl⟩ := Frame.exists_whole_of_encode_eq_ok
            (fits_of_oversized?_eq_none length_lt large) encoded
          cases opened : log.writer with
          | none =>
              rw [opened] at accepted
              cases accepted
          | some writer =>
              rw [opened] at accepted
              cases accepted
              exact ⟨writer, whole, rfl, opened, rfl, rfl, rfl, rfl⟩

/-- The frame of an accepted batch is stored by the writer. -/
theorem Appends.stores
    {log after : Log}
    {writer : Writer}
    {disk grown : Disk}
    {whole : Whole}
    (appends : Appends log writer disk whole after grown)
    (ready : writer.Ready disk)
    (small : writer.segment + 1 < 0x10000000000000000) :
    Writer.Stores writer disk whole.bytes (writer.write disk whole.bytes).1
      (writer.write disk whole.bytes).2.1 grown := by
  rw [appends.disk_eq]
  exact Writer.stores_write ready small whole.bytes

/-- After an accepted batch the log serves the map with its entries inserted. -/
theorem Serves.append
    {log after : Log}
    {writer : Writer}
    {disk grown : Disk}
    {contents : KeyMap Bytes}
    {whole : Whole}
    (serves : Serves log writer disk contents)
    (small : writer.segment + 1 < 0x10000000000000000)
    (appends : Appends log writer disk whole after grown) :
    Serves after (writer.write disk whole.bytes).2.1 grown (contents.enter whole.entries) := by
  have stores := appends.stores serves.ready small
  have holds := holds_of_stores serves.ready stores
  have kept : KeyMap.Matches (Leads (writer.write disk whole.bytes).2.1 grown)
      log.index contents :=
    serves.agree.imp fun _ _ _ ⟨entries, old, present⟩ => ⟨entries, old.write stores, present⟩
  refine ⟨appends.writer_eq, stores.ready, ?_, KeyMap.ascending_enter serves.ascending _⟩
  rw [appends.index_eq]
  exact matches_add kept fun place entry present => ⟨_, holds, present⟩

/-! ## Closing -/

/-- Closing an open log sends everything on. -/
theorem close_eq
    {log : Log}
    {writer : Writer}
    (opened : log.writer = some writer)
    (disk : Disk) :
    log.close disk = ({ log with writer := none }, (writer.sync disk).2) := by
  rw [close, opened]
  rfl

/-- Closing a closed log does nothing. -/
theorem close_eq_self
    {log : Log}
    (closed : log.writer = none)
    (disk : Disk) :
    log.close disk = (log, disk) := by
  rw [close, closed]

/-- After closing, the files hold everything written. -/
theorem segment_close
    {writer : Writer}
    {disk : Disk}
    (hasFile : writer.HasFile disk)
    (segment : Nat) :
    (writer.sync disk).2.segment segment = writer.written disk segment := by
  have bytes := (Writer.adds_sync hasFile).written_eq segment
  rwa [ite_self, List.append_nil, Writer.written_of_buffer_eq_nil rfl] at bytes

end Log
end EventRelay
