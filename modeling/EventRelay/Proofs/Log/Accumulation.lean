import EventRelay.Proofs.Log.Refinement

/-!
# What a log accumulates

A log that was opened in an empty directory and has only been appended to holds
the entries of all these appends.  It accepts every batch that is not too large.
It may be closed and opened again at any time.
-/

namespace EventRelay
namespace Log

open Segment (Writer)

/-- An open log holds the entries that were appended to it since its directory was
empty.  At most one segment was begun for each of them. -/
def Accumulates (log : Log) (disk : Disk) (entries : List Entry) : Prop :=
  ∃ front last records,
    Consistent front last (0xFFFFFFFFFFFFFFFF - entries.length) ⟨log, disk, records⟩ ∧
      records.flatMap Record.entries = entries ∧ log.writer ≠ none

/-- The values of a batch and its body are not too large. -/
structure IsSmall (entries : List Entry) : Prop where
  value_le : ∀ entry ∈ entries, entry.value.length ≤ maxValueSize
  bodySize_le : Frame.bodySize entries ≤ Frame.maxBodySize

/-- An open log accepts batches that are not too large. -/
theorem exists_append_eq_ok
    {log : Log}
    (isOpen : log.writer ≠ none)
    (disk : Disk)
    {entries : List Entry}
    (small : IsSmall entries) :
    ∃ after grown, log.append disk entries = .ok (after, grown) := by
  obtain ⟨writer, writer_eq⟩ := Option.ne_none_iff_exists'.mp isOpen
  obtain ⟨frame, encoded⟩ := Frame.exists_encode_eq_ok small.bodySize_le log.settings.compression
  have allSmall : oversized? entries = none := by
    unfold oversized?
    rw [List.find?_eq_none]
    intro entry present
    simpa using small.value_le entry present
  unfold append
  split
  · exact ⟨log, disk, rfl⟩
  · simp only [allSmall, encoded, writer_eq]
    exact ⟨_, _, rfl⟩

/-- A log that serves a map accepts a batch that is not too large, and serves the map
with its entries inserted.  It begins at most one segment for it. -/
theorem Serves.exists_append
    {log : Log}
    {writer : Writer}
    {disk : Disk}
    {contents : KeyMap Bytes}
    (serves : Serves log writer disk contents)
    (numbered : writer.segment + 1 < 0x10000000000000000)
    {batch : List Entry}
    (notEmpty : batch ≠ [])
    (small : IsSmall batch)
    (length_lt : batch.length < Bytes.cardinality 4) :
    ∃ after later grown, log.append disk batch = .ok (after, grown) ∧
      Serves after later grown (contents.enter batch) ∧
      later.segment ≤ writer.segment + 1 := by
  have isOpen : log.writer ≠ none := by
    rw [serves.writer_eq]
    exact Option.some_ne_none _
  obtain ⟨after, grown, accepted⟩ := exists_append_eq_ok isOpen disk small
  obtain ⟨other, whole, rfl, appends⟩ := exists_appends notEmpty length_lt accepted
  obtain rfl : other = writer :=
    Option.some_inj.mp (appends.before_eq.symm.trans serves.writer_eq)
  have follows := (appends.stores serves.ready numbered).follows
  exact ⟨after, _, grown, accepted, serves.append numbered appends, by omega⟩

theorem isOpen_of_append_eq_ok
    {log after : Log}
    {disk grown : Disk}
    {entries : List Entry}
    (isOpen : log.writer ≠ none)
    (length_lt : entries.length < Bytes.cardinality 4)
    (accepted : log.append disk entries = .ok (after, grown)) :
    after.writer ≠ none := by
  by_cases empty : entries = []
  · rw [empty, append_nil] at accepted
    cases accepted
    exact isOpen
  · obtain ⟨writer, whole, _, appends⟩ := exists_appends empty length_lt accepted
    rw [appends.writer_eq]
    exact Option.some_ne_none _

theorem Accumulates.isOpen
    {log : Log}
    {disk : Disk}
    {entries : List Entry}
    (accumulates : Accumulates log disk entries) :
    log.writer ≠ none := by
  obtain ⟨_, _, _, _, _, isOpen⟩ := accumulates
  exact isOpen

/-- A batch that is not too large is accepted and held with all others. -/
theorem Accumulates.append
    {log : Log}
    {disk : Disk}
    {entries batch : List Entry}
    (accumulates : Accumulates log disk entries)
    (small : IsSmall batch)
    (length_lt : batch.length < Bytes.cardinality 4)
    (numbered : entries.length + batch.length < 0x10000000000000000) :
    ∃ after grown, log.append disk batch = .ok (after, grown) ∧
      Accumulates after grown (entries ++ batch) := by
  have isOpen := accumulates.isOpen
  obtain ⟨front, last, records, consistent, held, _⟩ := accumulates
  obtain ⟨after, grown, accepted⟩ := exists_append_eq_ok isOpen disk small
  have nowOpen := isOpen_of_append_eq_ok isOpen length_lt accepted
  refine ⟨after, grown, accepted, ?_⟩
  cases batch with
  | nil =>
      rw [append_nil] at accepted
      cases accepted
      rw [List.append_nil]
      exact ⟨front, last, records, consistent, held, isOpen⟩
  | cons entry others =>
      -- One of the numbers that are left is for the segment that the batch may begin.
      rw [List.length_cons] at numbered
      rw [show 0xFFFFFFFFFFFFFFFF - entries.length =
        0xFFFFFFFFFFFFFFFF - entries.length - 1 + 1 by omega] at consistent
      obtain ⟨newFront, newLast, newConsistent⟩ := consistent.append length_lt accepted
      have newNumbered := newConsistent.numbered
      obtain ⟨writer, writer_eq⟩ := Option.ne_none_iff_exists'.mp nowOpen
      refine ⟨newFront, newLast, _, ⟨newConsistent.index_eq, newConsistent.records_eq, ?_,
        newConsistent.isOpenOrClosed⟩, ?_, nowOpen⟩
      · rw [List.length_append, List.length_cons]
        omega
      · rw [List.flatMap_append, held,
          Session.added_of_writer_eq_some (List.cons_ne_nil entry others) writer_eq,
          List.flatMap_singleton]

/-- The log of an empty directory holds nothing. -/
theorem exists_accumulates_nil
    {disk : Disk}
    (empty : disk.names = [])
    (isPlace : disk.place ≠ .file)
    (settings : Settings) :
    ∃ log opened, openIn settings disk = .ok (log, opened) ∧ Accumulates log opened [] := by
  obtain ⟨log, opened, accepted, consistent⟩ :=
    exists_consistent_of_empty empty isPlace (Nat.lt_succ_self 0xFFFFFFFFFFFFFFFF) settings
  have isOpen : log.writer ≠ none := by
    have wellFormed : disk.WellFormed := ⟨by simp [empty], by simp [empty]⟩
    obtain ⟨writer, opens⟩ := exists_opens_of_openIn_eq_ok wellFormed accepted
    rw [opens.writer_eq]
    exact Option.some_ne_none writer
  exact ⟨log, opened, accepted, [], [], [], consistent, rfl, isOpen⟩

/-- A log serves the map of the entries that it holds, and the number of its active
segment has 64 bits. -/
theorem Accumulates.exists_serves
    {log : Log}
    {disk : Disk}
    {entries : List Entry}
    (accumulates : Accumulates log disk entries) :
    ∃ writer, Serves log writer disk (KeyMap.ofEntries entries) ∧
      writer.segment < 0x10000000000000000 := by
  obtain ⟨front, last, records, consistent, held, isOpen⟩ := accumulates
  have numbered := consistent.numbered
  rcases consistent.isOpenOrClosed with ⟨writer, served⟩ | ⟨noWriter, _⟩
  · have serves := served.serves
    have segment_eq := served.segment_eq
    rw [← Layout.flatMap_entries_records 0, ← consistent.records_eq] at serves
    rw [← held]
    exact ⟨writer, serves, by omega⟩
  · exact absurd noWriter isOpen

/-- After the log is closed its directory is opened as a log that holds the same
entries. -/
theorem Accumulates.exists_reopened
    {log : Log}
    {disk : Disk}
    {entries : List Entry}
    (accumulates : Accumulates log disk entries)
    (settings : Settings) :
    ∃ reopened opened, openIn settings (log.close disk).2 = .ok (reopened, opened) ∧
      Accumulates reopened opened entries := by
  obtain ⟨front, last, records, consistent, held, _⟩ := accumulates
  obtain ⟨_, isClosed⟩ := consistent.close
  obtain ⟨reopened, opened, accepted, isOpen, _, newConsistent⟩ :=
    isClosed.exists_consistent consistent.numbered settings
  rw [← consistent.records_eq] at newConsistent
  exact ⟨reopened, opened, accepted, front, last, records, newConsistent, held, isOpen⟩

end Log
end EventRelay
