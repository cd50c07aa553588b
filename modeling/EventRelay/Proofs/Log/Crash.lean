import EventRelay.Proofs.Log.Reopening
import EventRelay.Proofs.Log.Usage

/-!
# What a crash loses

A crash loses the bytes that the writer still buffers; what was handed to the
file stays.  The buffer always holds the whole frames of the latest batches, and
no more of them than were counted since it was last sent on.  The flush policy
bounds this count, so opening after a crash finds all batches but the last few.
-/

namespace EventRelay
namespace Log

open EventRelay.Frame (Whole)
open Segment (FlushPolicy Position Writer bytesOf placed discover name)

/-- A batch with entries. -/
def IsFilled (entries : List Entry) : Bool :=
  !entries.isEmpty

/-- The greatest number of frames that a flush policy leaves in the buffer. -/
def allowance : FlushPolicy → Nat
  | .everyWrite => 0
  | .every count => count - 1

/-! ## Frames in the files and in the buffer -/

/-- The frames that were sent to the files follow those that were there before,
and the frames that a crash loses make up the buffer. -/
structure Durable
    (before : List Entry) (damaged : Nat) (sent lost : List Whole)
    (writer : Writer) (disk : Disk) : Prop extends Writer.HasFile writer disk where
  last_eq : (discover disk).getLast? = some writer.segment
  hasFiles : HasFiles disk (discover disk)
  /-- The file of the active segment ends with a frame. -/
  isWhole : ∃ frames, disk.segment writer.segment = bytesOf frames
  buffer_eq : writer.buffer = bytesOf lost
  /-- The files hold the values of the entries before and of the frames sent. -/
  values_eq : ∀ key, KeyMap.lastValue? (recovered disk) key =
    KeyMap.lastValue? (before ++ sent.flatMap Whole.entries) key
  damaged_eq : damagedCount disk (discover disk) = damaged

variable {before : List Entry} {damaged : Nat} {sent lost : List Whole}
variable {writer after : Writer} {disk grown : Disk}

theorem reading_congr
    {segment : Nat}
    (same : grown.segment segment = disk.segment segment) :
    reading grown segment = reading disk segment := by
  rw [reading, reading, same]

/-- What is added to the last list of entries comes after all of them. -/
theorem lastValue?_flatMap_grow
    {segments : List Nat}
    {active : Nat}
    (last : segments.getLast? = some active)
    {old new : Nat → List Entry}
    {added : List Entry}
    (active_eq : new active = old active ++ added)
    (others_eq : ∀ segment ≠ active, new segment = old segment)
    (key : Key) :
    KeyMap.lastValue? (segments.flatMap new) key =
      KeyMap.lastValue? (segments.flatMap old ++ added) key := by
  induction segments with
  | nil => cases last
  | cons segment rest inductionHypothesis =>
      rw [List.flatMap_cons, List.flatMap_cons]
      cases rest with
      | nil =>
          obtain rfl : segment = active := by simpa using last
          rw [List.flatMap_nil, List.flatMap_nil, List.append_nil, List.append_nil, active_eq]
      | cons second others =>
          rw [List.getLast?_cons_cons] at last
          have later := inductionHypothesis last
          simp only [KeyMap.lastValue?_append] at later ⊢
          rw [later]
          by_cases isActive : segment = active
          · rw [isActive, active_eq, KeyMap.lastValue?_append]
            cases KeyMap.lastValue? added key <;> rfl
          · rw [others_eq segment isActive, Option.or_assoc]

/-- Frames added at the end of the active file come after all entries. -/
theorem Durable.grow
    (durable : Durable before damaged sent lost writer disk)
    (hasFile : after.HasFile grown)
    (segment_eq : after.segment = writer.segment)
    (names_eq : grown.names = disk.names)
    (added left : List Whole)
    (bytes_eq : ∀ segment, grown.segment segment =
      disk.segment segment ++ if segment = writer.segment then bytesOf added else [])
    (buffer_eq : after.buffer = bytesOf left) :
    Durable before damaged (sent ++ added) left after grown := by
  obtain ⟨frames, whole⟩ := durable.isWhole
  have sameSegments : discover grown = discover disk :=
    Segment.discover_eq_of_names_eq names_eq
  have others : ∀ segment ≠ writer.segment, reading grown segment = reading disk segment := by
    intro segment different
    apply reading_congr
    rw [bytes_eq, if_neg different, List.append_nil]
  have oldBytes : disk.segment writer.segment = bytesOf frames ++ [] := by
    rw [whole, List.append_nil]
  have newBytes : grown.segment writer.segment = bytesOf (frames ++ added) ++ [] := by
    rw [bytes_eq, if_pos rfl, whole, Segment.bytesOf_append, List.append_nil]
  have oldRead := reading_spec oldBytes stuck_nil
  have newRead := reading_spec newBytes stuck_nil
  refine ⟨hasFile, ?_, ?_, ⟨frames ++ added, ?_⟩, buffer_eq, fun key => ?_, ?_⟩
  · rw [sameSegments, segment_eq, durable.last_eq]
  · rw [sameSegments]
    intro segment found
    rw [Disk.number?_eq_of_names_eq names_eq]
    exact durable.hasFiles segment found
  · rw [segment_eq, newBytes, List.append_nil]
  · have grew : KeyMap.lastValue? (recovered grown) key =
        KeyMap.lastValue? (recovered disk ++ added.flatMap Whole.entries) key := by
      rw [recovered, recovered, sameSegments]
      apply lastValue?_flatMap_grow durable.last_eq
      · rw [oldRead.1, newRead.1, Segment.flatMap_entries_placed, Segment.flatMap_entries_placed,
          List.flatMap_append]
      · intro segment different
        rw [others segment different]
    rw [grew, List.flatMap_append, ← List.append_assoc, KeyMap.lastValue?_append,
      durable.values_eq, ← KeyMap.lastValue?_append]
  · rw [← durable.damaged_eq, sameSegments]
    apply List.countP_congr
    intro segment _
    by_cases isActive : segment = writer.segment
    · rw [isActive, newRead.2.2, oldRead.2.2]
    · rw [isDamaged, isDamaged, others segment isActive]

/-- Only the active file and the buffer of the writer matter. -/
theorem Durable.congr
    (durable : Durable before damaged sent lost writer disk)
    (file_eq : after.file = writer.file)
    (segment_eq : after.segment = writer.segment)
    (buffer_eq : after.buffer = writer.buffer) :
    Durable before damaged sent lost after disk := by
  have hasFile : after.HasFile disk := by
    refine ⟨durable.wellFormed, durable.isDirectory, ?_, ?_⟩
    · rw [segment_eq, file_eq, durable.number_eq]
    · rw [segment_eq]
      exact durable.le_segment
  have same := durable.grow hasFile segment_eq rfl [] lost (by simp)
    (buffer_eq.trans durable.buffer_eq)
  rwa [List.append_nil] at same

/-! ## What the writer does -/

theorem Durable.spill
    (durable : Durable before damaged sent lost writer disk) :
    Durable before damaged (sent ++ lost) [] (writer.spill disk).1 (writer.spill disk).2 := by
  have spilled := Writer.adds_spill durable.toHasFile
  apply durable.grow spilled.toHasFile rfl spilled.names_eq lost [] _ rfl
  intro segment
  rw [Writer.spill, Disk.segment_append durable.wellFormed durable.number_eq, durable.buffer_eq]

theorem Durable.flush
    (durable : Durable before damaged sent lost writer disk) :
    Durable before damaged (sent ++ lost) [] (writer.flush disk).1 (writer.flush disk).2 :=
  durable.spill.congr rfl rfl rfl

theorem Durable.sync
    (durable : Durable before damaged sent lost writer disk) :
    Durable before damaged (sent ++ lost) [] (writer.sync disk).1 (writer.sync disk).2 :=
  durable.spill.congr rfl rfl rfl

/-- A frame that does not fit sends the buffer on. -/
theorem Durable.makeRoom
    (durable : Durable before damaged sent lost writer disk)
    (bytes : Bytes) :
    ∃ nowSent left, nowSent ++ left = sent ++ lost ∧ left.length ≤ lost.length ∧
      (Segment.bufferSize ≤ bytes.length → left = []) ∧
      Durable before damaged nowSent left (writer.makeRoom disk bytes).1
        (writer.makeRoom disk bytes).2 := by
  unfold Writer.makeRoom
  split
  · exact ⟨sent ++ lost, [], List.append_nil _, Nat.zero_le _, fun _ => rfl, durable.spill⟩
  · rename_i fits
    refine ⟨sent, lost, rfl, Nat.le_refl _, fun large => ?_, durable⟩
    rw [← Segment.bytesOf_eq_nil_iff, ← durable.buffer_eq, ← List.length_eq_zero_iff]
    omega

/-- A frame goes to the buffer as a whole, or to the file as a whole. -/
theorem Durable.put
    (durable : Durable before damaged sent lost writer disk)
    (whole : Whole) :
    ∃ nowSent left, nowSent ++ left = sent ++ lost ++ [whole] ∧ left.length ≤ lost.length + 1 ∧
      Durable before damaged nowSent left (writer.put disk whole.bytes).1
        (writer.put disk whole.bytes).2 := by
  obtain ⟨nowSent, left, parts, shorter, sentAll, made⟩ := durable.makeRoom whole.bytes
  rw [Writer.put_eq, Writer.add, ← parts]
  split
  · rename_i large
    obtain rfl := sentAll large
    have appended := Writer.adds_append made.toHasFile made.buffer_eq whole.bytes
    refine ⟨nowSent ++ [whole], [], by simp, Nat.zero_le _, ?_⟩
    apply made.grow appended.toHasFile rfl appended.names_eq [whole] [] _ made.buffer_eq
    intro segment
    rw [Disk.segment_append made.wellFormed made.number_eq, Segment.bytesOf_cons,
      Segment.bytesOf_nil, List.append_nil]
  · have buffered := Writer.adds_buffer made.toHasFile whole.bytes
    refine ⟨nowSent, left ++ [whole], by simp, by simpa using shorter, ?_⟩
    have kept := made.grow buffered.toHasFile rfl rfl [] (left ++ [whole]) (by simp)
      (by simp [made.buffer_eq])
    rwa [List.append_nil] at kept

theorem discover_rotate
    (ready : writer.Ready disk)
    (small : writer.segment + 1 < 0x10000000000000000) :
    discover (writer.rotate disk).2 =
      discover (writer.sync disk).2 ++ [writer.segment + 1] := by
  rw [(Writer.rotates ready small).discover_eq,
    Segment.discover_eq_of_names_eq (Writer.adds_sync ready.toHasFile).names_eq]

/-- The segment that is added holds nothing, and the others stay as they are. -/
theorem segment_rotate
    (missing : (writer.sync disk).2.number? (name (writer.segment + 1)) = none)
    (segment : Nat) :
    (writer.rotate disk).2.segment segment = (writer.sync disk).2.segment segment := by
  rw [Writer.rotate_eq missing, Disk.segment_create missing]

/-- Leaving a segment sends all frames on and adds an empty segment. -/
theorem Durable.rotate
    (durable : Durable before damaged sent lost writer disk)
    (ready : writer.Ready disk)
    (small : writer.segment + 1 < 0x10000000000000000) :
    Durable before damaged (sent ++ lost) [] (writer.rotate disk).1 (writer.rotate disk).2 := by
  have synced := durable.sync
  have rotated := Writer.rotates ready small
  have missing := Writer.number?_next synced.toHasFile small
  change (writer.sync disk).2.number? (name (writer.segment + 1)) = none at missing
  have sameBytes := segment_rotate missing
  have sameSegments := discover_rotate ready small
  have nothing : (writer.rotate disk).2.segment (writer.segment + 1) = bytesOf [] ++ [] := by
    rw [sameBytes, Disk.segment, missing]
    rfl
  have read := reading_spec nothing stuck_nil
  refine ⟨rotated.ready.toHasFile, ?_, ?_, ⟨[], ?_⟩, ?_, fun key => ?_, ?_⟩
  · rw [sameSegments, List.getLast?_concat, rotated.segment_eq]
  · rw [sameSegments]
    intro segment found
    rcases List.mem_append.mp found with old | new
    · obtain ⟨file, present⟩ := Option.isSome_iff_exists.mp (synced.hasFiles segment old)
      rw [Writer.rotate_eq missing, Disk.number?_create_of_number?_eq_some present]
      rfl
    · rw [List.mem_singleton.mp new, ← rotated.segment_eq, rotated.ready.number_eq]
      rfl
  · rw [rotated.segment_eq, nothing, List.append_nil]
  · rw [Writer.rotate_eq missing]
    rfl
  · rw [← synced.values_eq, recovered, recovered, sameSegments, List.flatMap_append,
      List.flatMap_singleton, read.1, Segment.placed, List.flatMap_nil, List.append_nil,
      List.flatMap_congr fun segment _ =>
        congrArg (fun read => read.1.flatMap Segment.ReadFrame.entries)
          (reading_congr (sameBytes segment))]
  · have undamaged : isDamaged (writer.rotate disk).2 (writer.segment + 1) = false := by
      simpa using read.2.2
    rw [← synced.damaged_eq, sameSegments, damagedCount, List.countP_append,
      List.countP_singleton, undamaged, if_neg Bool.false_ne_true, Nat.add_zero]
    apply List.countP_congr
    intro segment _
    rw [isDamaged, isDamaged, reading_congr (sameBytes segment)]

/-! ## What is counted -/

/-- The frames of the writer are in the files and in the buffer, which holds no
more of them than were counted since it was last sent on. -/
def Keeps
    (before : List Entry) (damaged : Nat) (frames : List Whole)
    (writer : Writer) (disk : Disk) : Prop :=
  ∃ sent lost, sent ++ lost = frames ∧ lost.length ≤ writer.unflushed ∧
    Durable before damaged sent lost writer disk

variable {frames : List Whole}

theorem Keeps.flush
    (keeps : Keeps before damaged frames writer disk) :
    Keeps before damaged frames (writer.flush disk).1 (writer.flush disk).2 := by
  obtain ⟨sent, lost, parts, _, durable⟩ := keeps
  exact ⟨sent ++ lost, [], by rw [List.append_nil, parts], Nat.zero_le _, durable.flush⟩

theorem Keeps.sync
    (keeps : Keeps before damaged frames writer disk) :
    Keeps before damaged frames (writer.sync disk).1 (writer.sync disk).2 := by
  obtain ⟨sent, lost, parts, _, durable⟩ := keeps
  exact ⟨sent ++ lost, [], by rw [List.append_nil, parts], Nat.zero_le _, durable.sync⟩

theorem Keeps.enter
    (keeps : Keeps before damaged frames writer disk)
    (ready : writer.Ready disk)
    (small : writer.segment + 1 < 0x10000000000000000) :
    Keeps before damaged frames (writer.enter disk).1 (writer.enter disk).2 := by
  unfold Writer.enter
  split
  · obtain ⟨sent, lost, parts, _, durable⟩ := keeps
    exact ⟨sent ++ lost, [], by rw [List.append_nil, parts], Nat.zero_le _,
      durable.rotate ready small⟩
  · exact keeps

theorem unflushed_put (writer : Writer) (disk : Disk) (bytes : Bytes) :
    (writer.put disk bytes).1.unflushed = writer.unflushed := by
  rw [Writer.put_eq, Writer.add, Writer.makeRoom]
  split <;> split <;> rfl

/-- A frame that is recorded is counted. -/
theorem Keeps.record
    (keeps : Keeps before damaged frames writer disk)
    (whole : Whole) :
    Keeps before damaged (frames ++ [whole]) (writer.record disk whole.bytes).1
      (writer.record disk whole.bytes).2 := by
  obtain ⟨sent, lost, parts, bound, durable⟩ := keeps
  obtain ⟨nowSent, left, nowParts, nowBound, put⟩ := durable.put whole
  refine ⟨nowSent, left, by rw [nowParts, parts], ?_, put.congr rfl rfl rfl⟩
  change left.length ≤ (writer.put disk whole.bytes).1.unflushed + 1
  rw [unflushed_put]
  omega

/-- Following the flush policy leaves no more frames than it allows. -/
theorem unflushed_flushIfDue_le (writer : Writer) (disk : Disk) :
    (writer.flushIfDue disk).1.unflushed ≤ allowance writer.settings.flush := by
  unfold Writer.flushIfDue Writer.mustFlush allowance
  cases writer.settings.flush with
  | everyWrite => exact Nat.le_refl _
  | every count =>
      dsimp only
      split
      · exact Nat.zero_le _
      · rename_i early
        rw [decide_eq_true_iff] at early
        dsimp only
        omega

theorem unflushed_syncIfDue_le (writer : Writer) (disk : Disk) :
    (writer.syncIfDue disk).1.unflushed ≤ writer.unflushed := by
  unfold Writer.syncIfDue
  split
  · exact Nat.zero_le _
  · exact Nat.le_refl _

/-- A frame that is written is kept, and the policy bounds what is buffered. -/
theorem Keeps.write
    (keeps : Keeps before damaged frames writer disk)
    (ready : writer.Ready disk)
    (small : writer.segment + 1 < 0x10000000000000000)
    (whole : Whole) :
    Keeps before damaged (frames ++ [whole]) (writer.write disk whole.bytes).2.1
        (writer.write disk whole.bytes).2.2 ∧
      (writer.write disk whole.bytes).2.1.unflushed ≤ allowance writer.settings.flush := by
  have recorded := (keeps.enter ready small).record whole
  have sameSettings :
      ((writer.enter disk).1.record (writer.enter disk).2 whole.bytes).1.settings =
        writer.settings := by
    obtain ⟨_, _, _, _, durable⟩ := keeps.enter ready small
    rw [(Writer.adds_record durable.toHasFile whole.bytes).settings_eq, Writer.enter]
    split <;> rfl
  rw [Writer.write_eq, Writer.deposit, ← sameSettings]
  generalize (writer.enter disk).1.record (writer.enter disk).2 whole.bytes = result at recorded ⊢
  obtain ⟨counted, disk⟩ := result
  have flushed : Keeps before damaged (frames ++ [whole]) (counted.flushIfDue disk).1
      (counted.flushIfDue disk).2 := by
    unfold Writer.flushIfDue
    split
    · exact recorded.flush
    · exact recorded
  have bound := unflushed_flushIfDue_le counted disk
  generalize counted.flushIfDue disk = result at flushed bound ⊢
  obtain ⟨flushedWriter, disk⟩ := result
  have synced := unflushed_syncIfDue_le flushedWriter disk
  refine ⟨?_, Nat.le_trans synced bound⟩
  unfold Writer.syncIfDue
  split
  · exact flushed.sync
  · exact flushed

/-- Making a frame readable loses nothing. -/
theorem Keeps.ensureReadable
    (keeps : Keeps before damaged frames writer disk)
    (position : Position) :
    Keeps before damaged frames (writer.ensureReadable disk position).1
        (writer.ensureReadable disk position).2 ∧
      (writer.ensureReadable disk position).1.unflushed ≤ writer.unflushed := by
  unfold Writer.ensureReadable
  split
  · exact ⟨keeps.flush, Nat.zero_le _⟩
  · exact ⟨keeps, Nat.le_refl _⟩

/-! ## Every use -/

/-- What holds after every action: the frames of the accepted batches with
entries are kept, and segments can be numbered for some more actions. -/
structure Usage.Invariant
    (settings : Settings) (before : List Entry) (damaged : Nat) (actions : Nat)
    (writer : Writer) (frames : List Whole) (usage : Usage) : Prop where
  writer_eq : usage.log.writer = some writer
  ready : writer.Ready usage.disk
  settings_eq : writer.settings = settings.writer
  keeps : Keeps before damaged frames writer usage.disk
  unflushed_le : writer.unflushed ≤ allowance settings.writer.flush
  appends_eq : usage.appends.filter IsFilled = frames.map Whole.entries
  numbered : writer.segment + actions < 0x10000000000000000

variable {settings : Settings} {actions : Nat} {usage : Usage}

/-- An append keeps the invariant. -/
theorem Usage.Invariant.append
    (invariant : usage.Invariant settings before damaged (actions + 1) writer frames)
    {entries : List Entry}
    (counted : entries.length < Bytes.cardinality 4) :
    ∃ after more, (usage.step (.append entries)).Invariant settings before damaged actions
      after more := by
  obtain ⟨writer_eq, ready, settings_eq, keeps, unflushed_le, appends_eq, numbered⟩ := invariant
  rw [step]
  cases accepted : usage.log.append usage.disk entries with
  | error error =>
      exact ⟨writer, frames, writer_eq, ready, settings_eq, keeps, unflushed_le, appends_eq,
        by omega⟩
  | ok result =>
      obtain ⟨after, grown⟩ := result
      by_cases empty : entries = []
      · subst empty
        rw [append_nil] at accepted
        cases accepted
        refine ⟨writer, frames, writer_eq, ready, settings_eq, keeps, unflushed_le, ?_, by omega⟩
        rw [List.filter_append, appends_eq]
        exact List.append_nil _
      · obtain ⟨other, whole, rfl, appends⟩ := exists_appends empty counted accepted
        obtain rfl : other = writer :=
          Option.some_inj.mp (appends.before_eq.symm.trans writer_eq)
        have stores := appends.stores ready (by omega)
        obtain ⟨written, bound⟩ := keeps.write ready (by omega) whole
        have follows := stores.follows
        rw [← appends.disk_eq] at written
        rw [settings_eq] at bound
        refine ⟨_, frames ++ [whole], appends.writer_eq, stores.ready,
          stores.settings_eq.trans settings_eq, written, bound, ?_, by omega⟩
        have filled : IsFilled whole.entries = true := by simpa [IsFilled] using empty
        rw [List.filter_append, appends_eq, List.map_append, List.filter_singleton, filled]
        rfl

/-- A step of a scan keeps the invariant. -/
theorem Usage.Invariant.next
    (invariant : usage.Invariant settings before damaged (actions + 1) writer frames)
    (scan : Scan) :
    ∃ after, (usage.step (.next scan)).Invariant settings before damaged actions after frames := by
  obtain ⟨writer_eq, ready, settings_eq, keeps, unflushed_le, appends_eq, numbered⟩ := invariant
  have cases := Scan.next_cases writer_eq scan usage.disk
  rw [step]
  generalize scan.next usage.log usage.disk = result at cases ⊢
  obtain ⟨yielded, later, after, grown⟩ := result
  dsimp only at cases ⊢
  rcases cases with same | ⟨position, same⟩
  · cases same
    exact ⟨writer, writer_eq, ready, settings_eq, keeps, unflushed_le, appends_eq, by omega⟩
  · cases same
    have settles := Writer.settles_ensureReadable ready position
    obtain ⟨readable, bound⟩ := keeps.ensureReadable position
    have sameSegment := settles.adds.segment_eq
    exact ⟨_, rfl, settles.ready, settles.adds.settings_eq.trans settings_eq, readable,
      Nat.le_trans bound unflushed_le, appends_eq, by omega⟩

theorem Usage.Invariant.run
    {actions : List Action}
    (invariant : usage.Invariant settings before damaged actions.length writer frames)
    (counted : ∀ action ∈ actions, action.IsCounted) :
    ∃ after more, (usage.run actions).Invariant settings before damaged 0 after more := by
  induction actions generalizing usage writer frames with
  | nil => exact ⟨writer, frames, invariant⟩
  | cons action rest inductionHypothesis =>
      obtain ⟨first, others⟩ := List.forall_mem_cons.mp counted
      cases action with
      | append entries =>
          obtain ⟨after, more, stepped⟩ := invariant.append first
          exact inductionHypothesis stepped others
      | next scan =>
          obtain ⟨after, stepped⟩ := invariant.next scan
          exact inductionHypothesis stepped others

/-- Opening a log leaves all its frames in the files. -/
theorem invariant_opened
    (wellFormed : disk.WellFormed)
    (present : HasFiles disk (discover disk))
    (settings : Settings)
    (numbered : active disk + actions < 0x10000000000000000) :
    Usage.Invariant settings (recovered disk)
      (damagedCount (activated disk).1 (discover (activated disk).1)) actions
      (openedWriter settings disk) [] ⟨openedLog settings disk, (activated disk).1, []⟩ := by
  have opens := opens_openedLog wellFormed present settings
  have last_eq : (discover (activated disk).1).getLast? = some (active disk) := by
    rw [opens.discover_eq, active]
    split
    · rename_i empty
      rw [empty]
      rfl
    · rename_i found
      rw [List.getLast?_eq_some_getLast found, Option.getD_some]
  have isWhole : ∃ frames, (activated disk).1.segment (active disk) = bytesOf frames := by
    obtain ⟨frames, rest, parted⟩ := exists_parted disk
    refine ⟨frames (active disk), ?_⟩
    rw [(parted.opened opens).bytes_eq, cutRest, if_pos rfl, List.append_nil]
  have durable : Durable (recovered disk)
      (damagedCount (activated disk).1 (discover (activated disk).1)) [] []
      (openedWriter settings disk) (activated disk).1 := by
    refine ⟨opens.ready.toHasFile, last_eq, opens.hasFiles present, isWhole, rfl, fun key => ?_,
      rfl⟩
    rw [opens.recovered_eq, List.flatMap_nil, List.append_nil]
  exact ⟨rfl, opens.ready, rfl, ⟨[], [], rfl, Nat.le_refl _, durable⟩, Nat.zero_le _, rfl,
    numbered⟩

/-! ## Opening after a crash -/

/-- The greatest number of batches that a crash loses. -/
def Settings.losable (settings : Settings) : Nat :=
  if settings.syncWrites then 0 else max settings.flushEvery 1 - 1

theorem allowance_writer (settings : Settings) :
    allowance settings.writer.flush = settings.losable := by
  unfold Settings.writer Settings.losable
  dsimp only
  split <;> rfl

/-- What opening shows after a crash: the batches that were stored, without damage
in the segment that was written last. -/
structure Survives
    (before : List Entry) (stored : List (List Entry)) (damaged : Nat) (crashed : Disk)
    (reopened : Log) (opened : Disk) : Prop where
  isOpen : reopened.writer ≠ none
  shows : Shows reopened opened (KeyMap.ofEntries (before ++ stored.flatten))
  truncatedTails_eq : reopened.truncatedTails = damaged
  undamaged : ∀ newest, (discover crashed).getLast? = some newest →
    isDamaged crashed newest = false

theorem flatten_filter_isFilled (batches : List (List Entry)) :
    (batches.filter IsFilled).flatten = batches.flatten := by
  induction batches with
  | nil => rfl
  | cons entries rest inductionHypothesis =>
      cases entries with
      | nil => simpa [IsFilled] using inductionHypothesis
      | cons entry others => simp [IsFilled, inductionHypothesis]

/-- The files of a log in use are opened with all frames that were sent to them. -/
theorem Durable.survives
    (durable : Durable before damaged sent lost writer disk)
    {stored : List (List Entry)}
    (stored_eq : stored.filter IsFilled = sent.map Whole.entries)
    (settings : Settings) :
    ∃ reopened opened, openIn settings disk = .ok (reopened, opened) ∧
      Survives before stored damaged disk reopened opened := by
  have isPlace : disk.place ≠ .file := by
    rw [durable.isDirectory]
    decide
  have opens := opens_openedLog durable.wellFormed durable.hasFiles settings
  refine ⟨_, _, openIn_eq durable.wellFormed isPlace durable.hasFiles settings, ?_, ?_, ?_, ?_⟩
  · rw [opens.writer_eq]
    exact Option.some_ne_none _
  · have same : KeyMap.ofEntries (recovered disk) =
        KeyMap.ofEntries (before ++ stored.flatten) := by
      apply KeyMap.ofEntries_congr
      intro key
      rw [durable.values_eq, ← flatten_filter_isFilled, stored_eq, List.flatMap]
    rw [← same]
    exact opens.serves.shows
  · rw [opens.truncatedTails_eq, durable.damaged_eq]
  · intro newest isNewest
    rw [durable.last_eq, Option.some_inj] at isNewest
    obtain ⟨frames, whole⟩ := durable.isWhole
    rw [← List.append_nil (bytesOf frames)] at whole
    rw [← isNewest]
    simpa using (reading_spec whole stuck_nil).2.2

/-- A crash of a log in use loses no more than the last few batches: opening the
directory shows a prefix of the accepted appends, and of those after it at most
as many hold entries as the settings allow to be buffered.  Batches have less
than 2^32 entries, and the actions do not use up the 64-bit numbers of segments. -/
theorem survives_crash
    {log : Log}
    {opened : Disk}
    (wellFormed : disk.WellFormed)
    (accepted : openIn settings disk = .ok (log, opened))
    {actions : List Action}
    (counted : ∀ action ∈ actions, action.IsCounted)
    (numbered : active disk + actions.length < 0x10000000000000000) :
    ∃ stored omitted,
      (Usage.run ⟨log, opened, []⟩ actions).appends = stored ++ omitted ∧
      (omitted.filter IsFilled).length ≤ settings.losable ∧
      ∀ later, ∃ reopened recoveredDisk,
        openIn later (Usage.run ⟨log, opened, []⟩ actions).disk = .ok (reopened, recoveredDisk) ∧
        Survives (recovered disk) stored (damagedCount opened (discover opened))
          (Usage.run ⟨log, opened, []⟩ actions).disk reopened recoveredDisk := by
  obtain ⟨isPlace, present⟩ := hasFiles_of_openIn_eq_ok accepted
  rw [openIn_eq wellFormed isPlace present, Except.ok.injEq, Prod.mk.injEq] at accepted
  obtain ⟨rfl, rfl⟩ := accepted
  obtain ⟨writer, frames, invariant⟩ :=
    (invariant_opened wellFormed present settings numbered).run counted
  obtain ⟨sent, lost, parts, bound, durable⟩ := invariant.keeps
  have appends_eq := invariant.appends_eq
  rw [← parts, List.map_append] at appends_eq
  obtain ⟨stored, omitted, appended, stored_eq, omitted_eq⟩ :=
    List.filter_eq_append_iff.mp appends_eq
  refine ⟨stored, omitted, appended, ?_, durable.survives stored_eq⟩
  have allowed := invariant.unflushed_le
  rw [allowance_writer] at allowed
  rw [omitted_eq, List.length_map]
  exact Nat.le_trans bound allowed

/-- A crash after two appends and a step of a scan between them. -/
theorem survives_crash_vacant :
    Disk.vacant.WellFormed ∧
      openIn Settings.standard Disk.vacant =
        .ok (openedLog Settings.standard Disk.vacant, (activated Disk.vacant).1) ∧
      ∃ stored omitted,
        (Usage.run ⟨openedLog Settings.standard Disk.vacant, (activated Disk.vacant).1, []⟩
          [.append [⟨Key.first 1, []⟩], .next (Scan.between (Key.first 0) (Key.last 9)),
            .append [⟨Key.first 2, []⟩]]).appends = stored ++ omitted ∧
        (omitted.filter IsFilled).length ≤ Settings.standard.losable := by
  refine ⟨wellFormed_vacant, openIn_vacant Settings.standard, ?_⟩
  obtain ⟨stored, omitted, appended, bound, _⟩ :=
    @survives_crash Disk.vacant Settings.standard _ _ wellFormed_vacant
      (openIn_vacant Settings.standard)
      [.append [⟨Key.first 1, []⟩], .next (Scan.between (Key.first 0) (Key.last 9)),
        .append [⟨Key.first 2, []⟩]]
      (by simp [Action.IsCounted, Bytes.cardinality]) (by decide +kernel)
  exact ⟨stored, omitted, appended, bound⟩

/-- A batch without entries is accepted but not counted: with one losable batch,
a crash loses the two latest of them when the last one is empty. -/
theorem not_shows_of_empty_batch :
    let settings : Settings := { Settings.standard with flushEvery := 2 }
    let usage := Usage.run ⟨openedLog settings Disk.vacant, (activated Disk.vacant).1, []⟩
      [.append [⟨Key.first 1, []⟩], .append []]
    settings.losable = 1 ∧ usage.appends = [[⟨Key.first 1, []⟩], []] ∧
      ∃ reopened opened, openIn settings usage.disk = .ok (reopened, opened) ∧
        ∀ stored omitted, usage.appends = stored ++ omitted →
          omitted.length ≤ settings.losable →
          ¬Shows reopened opened
            (KeyMap.ofEntries (recovered Disk.vacant ++ stored.flatten)) := by
  intro settings usage
  have appended : usage.appends = [[⟨Key.first 1, []⟩], []] := by decide +kernel
  have nothing : (openIn settings usage.disk).toOption.map (fun result => result.1.size) =
      some 0 := by
    decide +kernel
  have one : settings.losable = 1 := by decide
  refine ⟨one, appended, ?_⟩
  cases accepted : openIn settings usage.disk with
  | error error =>
      rw [accepted] at nothing
      cases nothing
  | ok result =>
      obtain ⟨reopened, opened⟩ := result
      rw [accepted] at nothing
      have empty : reopened.size = 0 := by simpa [Except.toOption] using nothing
      refine ⟨reopened, opened, rfl, fun stored omitted parts few shows => ?_⟩
      rw [appended] at parts
      rw [one] at few
      have kept : stored.flatten = [⟨Key.first 1, []⟩] := by
        rcases stored with _ | ⟨first, _ | ⟨second, others⟩⟩
        · rw [List.nil_append] at parts
          rw [← parts] at few
          exact absurd few (by decide)
        · rw [List.cons_append, List.cons.injEq] at parts
          simp [← parts.1]
        · simp only [List.cons_append, List.cons.injEq, List.nil_eq_append_iff] at parts
          simp [← parts.1, ← parts.2.1, parts.2.2.1]
      have size_eq := shows.size_eq
      have stored_one : (KeyMap.ofEntries
          (recovered Disk.vacant ++ [⟨Key.first 1, []⟩])).length = 1 := by
        decide +kernel
      rw [kept, empty, stored_one] at size_eq
      cases size_eq

end Log
end EventRelay
