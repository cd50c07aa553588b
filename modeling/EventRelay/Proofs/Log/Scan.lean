import EventRelay.Log.Scan
import EventRelay.Proofs.Log.Storage

/-!
# What a scan yields

The entries ahead of a scan are those of the stored map from the scan's next key
on, up to its end time.  A step yields the first of them and leaves the others
ahead, or yields nothing and ends the scan when there is none.  The frame and the
file that a scan keeps stay right while the log is appended to, because a
written frame never changes.
-/

namespace EventRelay
namespace Log

open Segment (Position Writer)

namespace Scan

/-- The entries that a scan has still to yield from a map. -/
def ahead (scan : Scan) (contents : KeyMap Bytes) : KeyMap Bytes :=
  match scan.nextFrom with
  | none => []
  | some least => contents.between least scan.endTime

theorem ascending_ahead
    {contents : KeyMap Bytes}
    (ascending : contents.Ascending)
    (scan : Scan) :
    (scan.ahead contents).Ascending := by
  rw [ahead]
  split
  · exact KeyMap.ascending_nil
  · exact List.Pairwise.filter _ ascending

/-- A pair of a map as a scan yields it. -/
def yieldOf (pair : Key × Bytes) : Except LogError Entry :=
  .ok ⟨pair.1, pair.2⟩

/-- What a scan keeps is right. -/
structure Sound (scan : Scan) (writer : Writer) (disk : Disk) : Prop where
  /-- The file that is open is that of its segment. -/
  source_eq : ∀ segment file, scan.source = some (segment, file) →
    disk.number? (Segment.name segment) = some file
  /-- The frame read last is still at its position. -/
  cached_holds : ∀ position entries, scan.cached = some (position, entries) →
    Holds writer disk position entries

theorem sound_between (start stop : Key) (writer : Writer) (disk : Disk) :
    (between start stop).Sound writer disk where
  source_eq := by
    intro segment file impossible
    cases impossible
  cached_holds := by
    intro position entries impossible
    cases impossible

/-- Only what a scan keeps matters. -/
theorem Sound.congr
    {scan later : Scan}
    {writer : Writer}
    {disk : Disk}
    (sound : scan.Sound writer disk)
    (source_eq : later.source = scan.source)
    (cached_eq : later.cached = scan.cached) :
    later.Sound writer disk where
  source_eq := by
    rw [source_eq]
    exact sound.source_eq
  cached_holds := by
    rw [cached_eq]
    exact sound.cached_holds

theorem Sound.settle
    {scan : Scan}
    {writer after : Writer}
    {disk grown : Disk}
    (sound : scan.Sound writer disk)
    (settles : Writer.Settles writer disk after grown) :
    scan.Sound after grown where
  source_eq := by
    intro segment file kept
    rw [Disk.number?_eq_of_names_eq settles.adds.names_eq]
    exact sound.source_eq segment file kept
  cached_holds := fun position entries kept =>
    (sound.cached_holds position entries kept).settle settles

/-- What a scan keeps stays right when a frame is written. -/
theorem Sound.write
    {scan : Scan}
    {writer after : Writer}
    {disk grown : Disk}
    {position : Position}
    {frame : Bytes}
    (sound : scan.Sound writer disk)
    (stores : Writer.Stores writer disk frame position after grown) :
    scan.Sound after grown where
  source_eq := fun segment file kept =>
    stores.number?_kept _ _ (sound.source_eq segment file kept)
  cached_holds := fun other entries kept =>
    (sound.cached_holds other entries kept).write stores

/-! ## Fetching a value -/

/-- The file of a segment is the one of its name, whether it is open or not. -/
theorem openSource_eq
    {scan : Scan}
    {writer : Writer}
    {disk : Disk}
    (sound : scan.Sound writer disk)
    {segment file : Nat}
    (found : disk.number? (Segment.name segment) = some file) :
    scan.openSource disk segment = .ok file := by
  rw [openSource]
  split
  · rename_i opened other kept
    split
    · rename_i same
      have number := sound.source_eq opened other kept
      rw [same, found, Option.some_inj] at number
      rw [number]
    · rw [found]
  · rw [found]

/-- The entries of a readable frame are those it was written with. -/
theorem frameEntries_spec
    {scan : Scan}
    {writer : Writer}
    {disk : Disk}
    {position : Position}
    {entries : List Entry}
    (sound : scan.Sound writer disk)
    (holds : Holds writer disk position entries)
    (read : Frame.readAt (disk.segment position.segment) position.offset = .ok entries) :
    ∃ after, scan.frameEntries disk position = .ok (entries, after) ∧
      after.Sound writer disk ∧ after.endTime = scan.endTime := by
  obtain ⟨file, found, fileRead⟩ := exists_number_of_readAt read
  have fresh : ∃ after, frameEntries.readEntries scan disk position = .ok (entries, after) ∧
      after.Sound writer disk ∧ after.endTime = scan.endTime := by
    rw [frameEntries.readEntries, openSource_eq sound found]
    simp only [fileRead]
    refine ⟨_, rfl, ⟨?_, ?_⟩, rfl⟩
    · rintro segment number ⟨⟩
      exact found
    · rintro kept others ⟨⟩
      exact holds
  rw [frameEntries]
  split
  · rename_i kept others cached
    split
    · rename_i same
      subst same
      have again := (sound.cached_holds kept others cached).written
      rw [holds.written, Except.ok.injEq] at again
      exact ⟨scan, by rw [again], sound, rfl⟩
    · exact fresh
  · exact fresh

/-- The value at a readable location is the one stored there. -/
theorem fetch_spec
    {scan : Scan}
    {writer : Writer}
    {disk : Disk}
    {key : Key}
    {location : Location}
    {value : Bytes}
    {entries : List Entry}
    (sound : scan.Sound writer disk)
    (holds : Holds writer disk location.frame entries)
    (read : Frame.readAt (disk.segment location.frame.segment) location.frame.offset =
      .ok entries)
    (present : entries[location.slot]? = some ⟨key, value⟩) :
    ∃ after, scan.fetch disk key location = .ok (value, after) ∧
      after.Sound writer disk ∧ after.endTime = scan.endTime := by
  obtain ⟨after, framed, afterSound, endTime⟩ := frameEntries_spec sound holds read
  refine ⟨after, ?_, afterSound, endTime⟩
  rw [fetch, framed]
  simp only [present, if_true]

/-! ## One step -/

/-- What a step of a scan leaves. -/
structure Advances
    (scan : Scan) (log : Log) (writer : Writer) (disk : Disk) (contents : KeyMap Bytes)
    (yielded : Yield) (later : Scan) (after : Log) (grown : Disk) : Prop where
  /-- The log differs in its writer only, which has made frames readable. -/
  settled : ∃ behind, after = { log with writer := some behind } ∧
    Writer.Settles writer disk behind grown ∧ later.Sound behind grown
  /-- The end is the same. -/
  endTime_eq : later.endTime = scan.endTime
  /-- The first entry ahead is yielded, or the scan ends. -/
  yields :
    (yielded = none ∧ scan.ahead contents = [] ∧ later.nextFrom = none ∧
      later.lastKey = scan.lastKey) ∨
    ∃ pair, yielded = some (yieldOf pair) ∧
      scan.ahead contents = pair :: later.ahead contents ∧
      later.nextFrom = pair.1.successor ∧ later.lastKey = some pair.1

/-- After a pair is yielded those above it are ahead. -/
theorem ahead_eq_cons
    {contents : KeyMap Bytes}
    (ascending : contents.Ascending)
    {scan later : Scan}
    {least : Key}
    {pair : Key × Bytes}
    (position : scan.nextFrom = some least)
    (first : contents.firstFrom? least = some pair)
    (reached : ¬scan.endTime < pair.1.timestamp)
    (next : later.nextFrom = pair.1.successor)
    (sameEnd : later.endTime = scan.endTime) :
    scan.ahead contents = pair :: later.ahead contents := by
  rw [ahead, position, ahead, next, sameEnd]
  dsimp only
  rw [KeyMap.between_eq_cons ascending first reached]
  cases following : pair.1.successor with
  | none => rw [KeyMap.filter_above_eq_nil following]
  | some above => rw [KeyMap.filter_above_eq_between following]

theorem locateFrom_eq_none
    {log : Log}
    {writer : Writer}
    (opened : log.writer = some writer)
    {least : Key}
    (missing : log.index.firstFrom? least = none)
    (disk : Disk) :
    log.locateFrom disk least = .ok (none, log, disk) := by
  rw [locateFrom, opened]
  simp only [missing]

theorem locateFrom_eq_some
    {log : Log}
    {writer : Writer}
    (opened : log.writer = some writer)
    {least key : Key}
    {location : Location}
    (found : log.index.firstFrom? least = some (key, location))
    (disk : Disk) :
    log.locateFrom disk least =
      .ok (some (key, location),
        { log with writer := some (writer.ensureReadable disk location.frame).1 },
        (writer.ensureReadable disk location.frame).2) := by
  rw [locateFrom, opened]
  simp only [found]

/-- A step yields the first entry ahead and leaves the others ahead. -/
theorem advances_next
    {scan : Scan}
    {log : Log}
    {writer : Writer}
    {disk : Disk}
    {contents : KeyMap Bytes}
    (serves : Serves log writer disk contents)
    (sound : scan.Sound writer disk) :
    Advances scan log writer disk contents (scan.next log disk).1 (scan.next log disk).2.1
      (scan.next log disk).2.2.1 (scan.next log disk).2.2.2 := by
  have unchanged := Writer.settles_self serves.ready
  have same : log = { log with writer := some writer } := by
    rw [← serves.writer_eq]
  cases position : scan.nextFrom with
  | none =>
      simp only [next, position]
      refine ⟨⟨writer, same, unchanged, sound⟩, rfl, Or.inl ⟨rfl, ?_, position, rfl⟩⟩
      rw [ahead, position]
  | some least =>
      rcases serves.agree.firstFrom? least with
        ⟨missing, nothing⟩ | ⟨key, location, value, found, first, entries, holds, present⟩
      · simp only [next, position, locateFrom_eq_none serves.writer_eq missing]
        refine ⟨⟨writer, same, unchanged, sound.congr rfl rfl⟩, rfl,
          Or.inl ⟨rfl, ?_, rfl, rfl⟩⟩
        rw [ahead, position]
        exact KeyMap.between_eq_nil_of_firstFrom?_eq_none nothing scan.endTime
      · have settles := Writer.settles_ensureReadable serves.ready location.frame
        simp only [next, position, locateFrom_eq_some serves.writer_eq found]
        by_cases past : scan.endTime < key.timestamp
        · rw [if_pos past]
          refine ⟨⟨_, rfl, settles, (sound.settle settles).congr rfl rfl⟩, rfl,
            Or.inl ⟨rfl, ?_, rfl, rfl⟩⟩
          rw [ahead, position]
          exact KeyMap.between_eq_nil_of_past serves.ascending first past
        · rw [if_neg past]
          obtain ⟨later, fetched, laterSound, sameEnd⟩ :=
            fetch_spec (sound.settle settles) (holds.settle settles)
              (holds.readAt_ensureReadable serves.ready) present
          simp only [fetched]
          refine ⟨⟨_, rfl, settles, laterSound.congr rfl rfl⟩, sameEnd,
            Or.inr ⟨(key, value), rfl, ?_, rfl, rfl⟩⟩
          exact ahead_eq_cons serves.ascending position first past rfl sameEnd

/-! ## Many steps -/

/-- Many steps yield the entries ahead in order, and leave the log serving the
same map. -/
theorem take_spec
    (limit : Nat)
    {scan : Scan}
    {log : Log}
    {writer : Writer}
    {disk : Disk}
    {contents : KeyMap Bytes}
    (serves : Serves log writer disk contents)
    (sound : scan.Sound writer disk) :
    (scan.take limit log disk).1 = ((scan.ahead contents).take limit).map yieldOf ∧
      ∃ behind, (scan.take limit log disk).2.2.1 = { log with writer := some behind } ∧
        Writer.Settles writer disk behind (scan.take limit log disk).2.2.2 := by
  induction limit generalizing scan log writer disk with
  | zero =>
      refine ⟨rfl, writer, ?_, Writer.settles_self serves.ready⟩
      rw [← serves.writer_eq]
      rfl
  | succ limit inductionHypothesis =>
      obtain ⟨⟨behind, after_eq, settles, laterSound⟩, _, yields⟩ := advances_next serves sound
      rw [take]
      generalize scan.next log disk = step at after_eq settles laterSound yields ⊢
      obtain ⟨yielded, later, after, grown⟩ := step
      dsimp only at after_eq settles laterSound yields
      subst after_eq
      rcases yields with ⟨rfl, nothing, _, _⟩ | ⟨pair, rfl, parts, _, _⟩
      · rw [nothing]
        exact ⟨rfl, behind, rfl, settles⟩
      · obtain ⟨others, last, last_eq, lastSettles⟩ :=
          inductionHypothesis (serves.settle settles) laterSound
        refine ⟨?_, last, last_eq, settles.trans lastSettles⟩
        rw [parts, List.take_succ_cons, List.map_cons, ← others]

/-! ## Closed logs -/

/-- Steps leave a closed log as it is. -/
theorem next_of_closed
    {log : Log}
    (closed : log.writer = none)
    (scan : Scan)
    (disk : Disk) :
    (scan.next log disk).2.2 = (log, disk) := by
  rw [next]
  cases scan.nextFrom with
  | none => rfl
  | some least =>
      dsimp only
      rw [locateFrom, closed]

theorem take_of_closed
    {log : Log}
    (closed : log.writer = none)
    (limit : Nat)
    (scan : Scan)
    (disk : Disk) :
    (scan.take limit log disk).2.2 = (log, disk) := by
  induction limit generalizing scan with
  | zero => rfl
  | succ limit inductionHypothesis =>
      have same := next_of_closed closed scan disk
      rw [take]
      generalize scan.next log disk = step at same ⊢
      obtain ⟨yielded, later, after⟩ := step
      dsimp only at same
      subst same
      cases yielded with
      | none => rfl
      | some item => exact inductionHypothesis later

/-! ## Full scans -/

/-- All pairs of a map are ahead of a full scan. -/
theorem ahead_full (contents : KeyMap Bytes) :
    (between (Key.first 0) (Key.last 0xFFFFFFFFFFFFFFFF)).ahead contents = contents := by
  change contents.between (Key.first 0) (Key.last 0xFFFFFFFFFFFFFFFF).timestamp = contents
  rw [KeyMap.between, List.filter_eq_self]
  intro pair _
  have inTime : pair.1.timestamp ≤ (Key.last 0xFFFFFFFFFFFFFFFF).timestamp := by
    rw [Key.last, Key.timestamp_make, UInt64.le_iff_toNat_le]
    exact Nat.le_of_lt_succ pair.1.timestamp.toNat_lt
  simpa using ⟨Key.first_zero_le pair.1, inTime⟩

end Scan
end Log
end EventRelay
