import EventRelay.Proofs.Log.Refinement

/-!
# A cut keeps a prefix of the batches

The file of the newest segment of a closed log may lose any number of bytes from
its end.  The bytes that are left are the frames that lie wholly before the cut
and the proper beginning of the next one.  Opening keeps the batches of exactly
these frames and cuts the file to them, so whatever is appended later follows
the kept batches.
-/

namespace EventRelay
namespace Log

open EventRelay.Frame (Whole)
open Segment (ReadFrame Writer bytesOf placed discover name)

/-! ## Batches before a cut -/

/-- Whether the frame of a batch lies wholly before a cut of the newest segment. -/
def Record.isBefore (newest cut : Nat) (record : Record) : Bool :=
  decide (record.segment ≠ newest ∨ record.stop ≤ cut)

/-- Where the last batch of a segment ends; zero without batches. -/
def endOf (segment : Nat) (records : List Record) : Nat :=
  ((records.filter fun record => decide (record.segment = segment)).getLast?.map
    Record.stop).getD 0

/-- The longest prefix of the batches that lies wholly before a cut. -/
def Session.kept (session : Session) (newest cut : Nat) : List Record :=
  session.records.takeWhile (Record.isBefore newest cut)

/-- What a log shows that is opened after a cut. -/
structure Recovers
    (session : Session) (newest file cut : Nat) (reopened : Log) (opened : Disk) : Prop where
  isOpen : reopened.writer ≠ none
  /-- The map is that of the batches before the cut. -/
  shows : Shows reopened opened
    (KeyMap.ofEntries ((session.kept newest cut).flatMap Record.entries))
  /-- A segment is damaged only if the cut is not where a batch ends. -/
  truncatedTails_eq : reopened.truncatedTails =
    if cut = endOf newest (session.kept newest cut) then 0 else 1
  /-- The file is cut where the last kept batch ends. -/
  content_eq : opened.content file =
    (session.closed.content file).take (endOf newest (session.kept newest cut))

namespace Layout

/-- Frames end within their bytes. -/
theorem stop_le_of_mem_placed
    {offset : Nat}
    {frames : List Whole}
    {frame : ReadFrame}
    (present : frame ∈ placed offset frames) :
    frame.stop ≤ offset + (bytesOf frames).length := by
  induction frames generalizing offset with
  | nil => cases present
  | cons whole frames inductionHypothesis =>
      rw [Segment.bytesOf_cons, List.length_append]
      rcases List.mem_cons.mp present with rfl | later
      · dsimp only
        omega
      · have bound := inductionHypothesis later
        omega

theorem segment_lt_of_mem_records
    {first : Nat}
    {layout : Layout}
    {record : Record}
    (present : record ∈ records first layout) :
    record.segment < first + layout.length := by
  induction layout generalizing first with
  | nil => cases present
  | cons frames rest inductionHypothesis =>
      rw [List.length_cons]
      rcases List.mem_append.mp present with here | later
      · obtain ⟨frame, _, rfl⟩ := List.mem_map.mp here
        dsimp only [recordOf]
        omega
      · have bound := inductionHypothesis later
        omega

/-- The last batch of the last segment ends where the segment does. -/
theorem endOf_records (front : Layout) (last : List Whole) :
    endOf front.length (records 0 (front ++ [last])) = (bytesOf last).length := by
  have older : (records 0 front).filter
      (fun record => decide (record.segment = front.length)) = [] := by
    rw [List.filter_eq_nil_iff]
    intro record present
    have bound := segment_lt_of_mem_records present
    simp only [decide_eq_true_eq]
    omega
  have newer : ((placed 0 last).map (recordOf front.length)).filter
      (fun record => decide (record.segment = front.length)) =
        (placed 0 last).map (recordOf front.length) := by
    rw [List.filter_eq_self]
    intro record present
    obtain ⟨frame, _, rfl⟩ := List.mem_map.mp present
    exact decide_eq_true rfl
  rw [endOf, records_concat, List.filter_append, older, newer, List.nil_append]
  induction last using List.reverseRecOn with
  | nil => rfl
  | append_singleton frames whole _ =>
      rw [placed_concat, List.map_append, List.map_singleton, List.getLast?_concat]
      rfl

/-- The batches before a cut are those of the frames before it. -/
theorem takeWhile_records
    {front : Layout}
    {kept lost : List Whole}
    {cut : Nat}
    (before : (bytesOf kept).length ≤ cut)
    (behind : ∀ whole ∈ lost.head?, cut < (bytesOf kept).length + whole.bytes.length) :
    (records 0 (front ++ [kept ++ lost])).takeWhile (Record.isBefore front.length cut) =
      records 0 (front ++ [kept]) := by
  have older : ∀ record ∈ records 0 front, record.isBefore front.length cut = true := by
    intro record present
    have bound := segment_lt_of_mem_records present
    rw [Record.isBefore, decide_eq_true_eq]
    omega
  have keptBefore : ∀ record ∈ (placed 0 kept).map (recordOf front.length),
      record.isBefore front.length cut = true := by
    intro record present
    obtain ⟨frame, inKept, rfl⟩ := List.mem_map.mp present
    have bound := stop_le_of_mem_placed inKept
    rw [Record.isBefore, decide_eq_true_eq]
    dsimp only [recordOf]
    omega
  rw [records_concat, records_concat, Segment.placed_append, List.map_append,
    List.takeWhile_append_of_pos older, List.takeWhile_append_of_pos keptBefore, Nat.zero_add]
  cases lost with
  | nil =>
      rw [placed, List.map_nil, List.takeWhile_nil, List.append_nil]
  | cons whole lost =>
      have bound := behind whole rfl
      rw [placed, List.map_cons, List.takeWhile_cons_of_neg, List.append_nil]
      rw [Record.isBefore, decide_eq_true_eq]
      dsimp only [recordOf]
      omega

end Layout

/-! ## Cutting frames -/

/-- Cut frames are whole frames and the proper beginning of the next one. -/
theorem exists_cut
    {frames : List Whole}
    {cut : Nat}
    (inside : cut ≤ (bytesOf frames).length) :
    ∃ kept lost torn, frames = kept ++ lost ∧
      (bytesOf frames).take cut = bytesOf kept ++ torn ∧ Segment.Stuck torn ∧
      ∀ whole ∈ lost.head?, cut < (bytesOf kept).length + whole.bytes.length := by
  induction frames generalizing cut with
  | nil =>
      refine ⟨[], [], [], rfl, ?_, stuck_nil, by simp⟩
      rw [Segment.bytesOf_nil, List.take_nil, List.append_nil]
  | cons whole frames inductionHypothesis =>
      rw [Segment.bytesOf_cons, List.length_append] at inside
      by_cases within : cut < whole.bytes.length
      · refine ⟨[], whole :: frames, whole.bytes.take cut, rfl, ?_, ?_, ?_⟩
        · rw [Segment.bytesOf_cons, List.take_append_of_le_length (Nat.le_of_lt within),
            Segment.bytesOf_nil, List.nil_append]
        · refine Segment.Reader.stuck_of_beginning (List.take_prefix cut whole.bytes) ?_
          rw [List.length_take]
          omega
        · rintro first ⟨⟩
          rwa [Segment.bytesOf_nil, List.length_nil, Nat.zero_add]
      · obtain ⟨kept, lost, torn, rfl, parts, stuck, behind⟩ :=
          @inductionHypothesis (cut - whole.bytes.length) (by omega)
        refine ⟨whole :: kept, lost, torn, rfl, ?_, stuck, fun first isFirst => ?_⟩
        · rw [Segment.bytesOf_cons, List.take_append, List.take_of_length_le (by omega), parts,
            Segment.bytesOf_cons, List.append_assoc]
        · have bound := behind first isFirst
          rw [Segment.bytesOf_cons, List.length_append]
          omega

/-- A cut of the newest segment leaves whole frames and a rest. -/
theorem IsClosed.torn_of_cut
    {front : Layout}
    {last kept : List Whole}
    {torn : Bytes}
    {disk : Disk}
    {file cut : Nat}
    (isClosed : IsClosed front last disk)
    (found : disk.number? (name front.length) = some file)
    (inside : cut ≤ (bytesOf last).length)
    (parts : (bytesOf last).take cut = bytesOf kept ++ torn)
    (stuck : Segment.Stuck torn) :
    Torn front kept torn (disk.resize file cut) := by
  have whole := isClosed.laid.torn
  refine ⟨whole.discover_eq, whole.hasFiles, fun segment => ?_, stuck⟩
  rw [Disk.resize, Disk.segment_change isClosed.wellFormed found, isClosed.laid.bytes_eq]
  by_cases isLast : segment = front.length
  · subst isLast
    rw [if_pos rfl, if_pos rfl, Layout.bytesAt_concat_self, Layout.bytesAt_concat_self, parts,
      Nat.sub_eq_zero_of_le inside, List.replicate_zero, List.append_nil]
  · rw [if_neg isLast, if_neg isLast, List.append_nil, Layout.bytesAt_concat_of_ne isLast,
      Layout.bytesAt_concat_of_ne isLast]

/-- The newest segment of a closed log has a file with its frames. -/
theorem IsClosed.exists_newest
    {front : Layout}
    {last : List Whole}
    {disk : Disk}
    (isClosed : IsClosed front last disk) :
    ∃ file, (discover disk).getLast? = some front.length ∧
      disk.number? (name front.length) = some file ∧ disk.content file = bytesOf last := by
  have whole := isClosed.laid.torn
  have present : front.length ∈ List.range (front.length + 1) :=
    List.mem_range.mpr (Nat.lt_succ_self _)
  obtain ⟨file, found⟩ := Option.isSome_iff_exists.mp (whole.hasFiles front.length present)
  refine ⟨file, ?_, found, ?_⟩
  · rw [whole.discover_eq, List.range_succ, List.getLast?_concat]
  · rw [← Disk.segment_eq_content found, isClosed.laid.bytes_eq, Layout.bytesAt_concat_self]

/-! ## Opening after a cut -/

/-- Opening after a cut recovers the batches before it. -/
theorem Consistent.exists_recovers
    {front : Layout}
    {last : List Whole}
    {commands : Nat}
    {session : Session}
    (consistent : Consistent front last commands session)
    {file cut : Nat}
    (found : session.closed.number? (name front.length) = some file)
    (content_eq : session.closed.content file = bytesOf last)
    (inside : cut ≤ session.closed.size file)
    (settings : Settings) :
    ∃ reopened opened newLast,
      openIn settings (session.closed.resize file cut) = .ok (reopened, opened) ∧
      Recovers session front.length file cut reopened opened ∧
      Consistent front newLast commands ⟨reopened, opened, session.kept front.length cut⟩ := by
  obtain ⟨_, isClosed⟩ := consistent.close
  rw [Disk.size, content_eq] at inside
  obtain ⟨kept, lost, torn, parts, cutBytes, stuck, behind⟩ := exists_cut inside
  have tornCut := isClosed.torn_of_cut found inside cutBytes stuck
  have wellFormed : (session.closed.resize file cut).WellFormed :=
    isClosed.wellFormed.change file _
  obtain ⟨reopened, writer, opened, accepted, opens, tails, newConsistent⟩ :=
    exists_consistent_of_torn wellFormed isClosed.isDirectory tornCut consistent.numbered settings
  have lengths := congrArg List.length cutBytes
  rw [List.length_take, List.length_append, Nat.min_eq_left inside] at lengths
  have kept_eq : session.kept front.length cut = Layout.records 0 (front ++ [kept]) := by
    rw [Session.kept, consistent.records_eq, parts]
    exact Layout.takeWhile_records (by omega) behind
  have end_eq : endOf front.length (session.kept front.length cut) = (bytesOf kept).length := by
    rw [kept_eq, Layout.endOf_records]
  have shows := newConsistent.shows
  rw [← kept_eq] at newConsistent shows
  refine ⟨reopened, opened, kept, accepted, ⟨?_, shows, ?_, ?_⟩, newConsistent⟩
  · rw [opens.writer_eq]
    exact Option.some_ne_none writer
  · have whole : torn = [] ↔ cut = (bytesOf kept).length := by
      rw [lengths, Nat.add_eq_left, List.length_eq_zero_iff]
    rw [tails, end_eq]
    exact if_congr whole rfl rfl
  · have same : opened.number? (name front.length) = some file :=
      opens.number?_kept _ _ found
    rw [← Disk.segment_eq_content same, opens.bytes_eq, tornCut.discover_eq, List.range_succ,
      List.getLast?_concat, if_pos rfl, (tornCut.reading front.length).2.1,
      Layout.bytesAt_concat_self, end_eq, content_eq, parts, Segment.bytesOf_append,
      List.take_left]

/-- After any cut of the newest segment, opening keeps exactly the batches before
the cut, each of them whole, and later batches follow them.  Batches have less
than 2^32 entries, and the commands do not use up the 64-bit numbers of segments. -/
theorem recovers_of_cut
    {disk : Disk}
    (empty : disk.names = [])
    (isPlace : disk.place ≠ .file)
    (settings : Settings)
    {commands further : List Command}
    (counted : ∀ command ∈ commands, command.IsCounted)
    (furtherCounted : ∀ command ∈ further, command.IsCounted)
    (numbered : commands.length + further.length < 0x10000000000000000) :
    ∃ session newest file, Session.start settings disk commands = .ok session ∧
      (discover session.closed).getLast? = some newest ∧
      session.closed.number? (name newest) = some file ∧
      session.closed.size file = endOf newest session.records ∧
      ∀ cut ≤ session.closed.size file, ∀ repairing, ∃ reopened opened,
        openIn repairing (session.closed.resize file cut) = .ok (reopened, opened) ∧
        Recovers session newest file cut reopened opened ∧
        ∃ later, Session.run ⟨reopened, opened, session.kept newest cut⟩ further = .ok later ∧
          session.kept newest cut <+: later.records ∧
          ∀ again, ∃ final finalDisk, openIn again later.closed = .ok (final, finalDisk) ∧
            final.writer ≠ none ∧ final.truncatedTails = 0 ∧
            Shows final finalDisk (KeyMap.ofEntries later.entries) := by
  obtain ⟨session, front, last, finished, consistent⟩ :=
    exists_consistent_start empty isPlace settings counted numbered
  obtain ⟨_, isClosed⟩ := consistent.close
  obtain ⟨file, newest, found, content_eq⟩ := isClosed.exists_newest
  refine ⟨session, front.length, file, finished, newest, found, ?_, fun cut inside repairing => ?_⟩
  · rw [consistent.records_eq, Layout.endOf_records, ← content_eq, Disk.size]
  · obtain ⟨reopened, opened, newLast, accepted, recovers, newConsistent⟩ :=
      consistent.exists_recovers found content_eq inside repairing
    refine ⟨reopened, opened, accepted, recovers, ?_⟩
    obtain ⟨later, _, _, ran, laterConsistent, isPrefix⟩ :=
      @Consistent.exists_run _ _ further _ 0 newConsistent furtherCounted
    refine ⟨later, ran, isPrefix, fun again => ?_⟩
    obtain ⟨final, finalDisk, finalAccepted, isOpen, tails, _, shows⟩ :=
      laterConsistent.exists_reopened again
    exact ⟨final, finalDisk, finalAccepted, isOpen, tails, shows⟩

/-- A session with two batches, cut anywhere and then continued. -/
theorem recovers_of_cut_vacant :
    Disk.vacant.names = [] ∧ Disk.vacant.place ≠ .file ∧
      ∃ session newest file,
        Session.start Settings.standard Disk.vacant
          [.append [⟨Key.first 1, [7]⟩], .append [⟨Key.first 1, [8]⟩, ⟨Key.first 2, []⟩]] =
            .ok session ∧
        session.closed.number? (name newest) = some file ∧
        ∀ cut ≤ session.closed.size file, ∃ reopened opened,
          openIn Settings.standard (session.closed.resize file cut) = .ok (reopened, opened) ∧
          Recovers session newest file cut reopened opened := by
  refine ⟨rfl, by decide, ?_⟩
  obtain ⟨session, newest, file, finished, _, found, _, recovers⟩ :=
    @recovers_of_cut Disk.vacant rfl (by decide) Settings.standard
      [.append [⟨Key.first 1, [7]⟩], .append [⟨Key.first 1, [8]⟩, ⟨Key.first 2, []⟩]]
      [.append [⟨Key.first 3, []⟩]]
      (by simp [Command.IsCounted, Bytes.cardinality])
      (by simp [Command.IsCounted, Bytes.cardinality]) (by decide)
  refine ⟨session, newest, file, finished, found, fun cut inside => ?_⟩
  obtain ⟨reopened, opened, accepted, recovered, _⟩ := recovers cut inside Settings.standard
  exact ⟨reopened, opened, accepted, recovered⟩

end Log
end EventRelay
