import EventRelay.Proofs.Log.Layout
import EventRelay.Proofs.Log.Scan

/-!
# The log is a map in which the last write wins

A session opens the log of an empty directory, appends and scans, and closes and
reopens the log any number of times.  It never fails.  After any of its commands
the log shows the map of the entries of all accepted appends, inserted in order,
and opening it again rebuilds the index that it has.
-/

namespace EventRelay
namespace Log

open EventRelay.Frame (Whole)
open Segment (Writer)

/-! ## Sessions -/

/-- What is done with a log. -/
inductive Command where
  /-- Append entries. -/
  | append (entries : List Entry)
  /-- Carry out some steps of a new scan. -/
  | scan (start stop : Key) (limit : Nat)
  /-- Close the log. -/
  | close
  /-- Close the log and open it again. -/
  | reopen (settings : Settings)

/-- The number of entries of an append can be stored. -/
def Command.IsCounted : Command → Prop
  | .append entries => entries.length < Bytes.cardinality 4
  | _ => True

/-- A log, and the batches that were accepted so far. -/
structure Session where
  log : Log
  disk : Disk
  records : List Record

namespace Session

/-- The batch that an accepted append has added, with the end of the active segment of
the log after it; there is none if there are no entries. -/
def added (entries : List Entry) (log : Log) : List Record :=
  if entries.isEmpty then []
  else
    [{ segment := (log.writer.map Writer.segment).getD 0
       stop := (log.writer.map Writer.size).getD 0
       entries := entries }]

/-- Carry out a command.  A refused append leaves everything as it is. -/
def step (session : Session) : Command → Except LogError Session
  | .append entries =>
      match session.log.append session.disk entries with
      | .error _ => .ok session
      | .ok (log, disk) => .ok ⟨log, disk, session.records ++ added entries log⟩
  | .scan start stop limit =>
      let (_, _, log, disk) := (Scan.between start stop).take limit session.log session.disk
      .ok ⟨log, disk, session.records⟩
  | .close =>
      let (log, disk) := session.log.close session.disk
      .ok ⟨log, disk, session.records⟩
  | .reopen settings =>
      match openIn settings (session.log.close session.disk).2 with
      | .error error => .error error
      | .ok (log, disk) => .ok ⟨log, disk, session.records⟩

/-- Carry out commands in order. -/
def run (session : Session) : List Command → Except LogError Session
  | [] => .ok session
  | command :: rest =>
      match session.step command with
      | .error error => .error error
      | .ok session => session.run rest

/-- Open the log of a directory and carry out commands. -/
def start (settings : Settings) (disk : Disk) (commands : List Command) :
    Except LogError Session :=
  match openIn settings disk with
  | .error error => .error error
  | .ok (log, disk) => run ⟨log, disk, []⟩ commands

@[simp] theorem added_nil (log : Log) : added [] log = [] :=
  rfl

theorem added_of_writer_eq_some
    {entries : List Entry}
    (notEmpty : entries ≠ [])
    {log : Log}
    {writer : Writer}
    (opened : log.writer = some writer) :
    added entries log = [⟨writer.segment, writer.size, entries⟩] := by
  cases entries with
  | nil => exact absurd rfl notEmpty
  | cons entry others => simp [added, opened]

/-- The entries of the accepted batches, in order. -/
def entries (session : Session) : List Entry :=
  session.records.flatMap Record.entries

/-- Whatever becomes of the log, an accepted append adds exactly its entries. -/
theorem flatMap_entries_added (entries : List Entry) (log : Log) :
    (added entries log).flatMap Record.entries = entries := by
  cases entries <;> simp [added]

/-- An append that is accepted, and only such a one, adds its entries to those of the
session. -/
theorem entries_of_step_append
    {session after : Session}
    {entries : List Entry}
    (stepped : session.step (.append entries) = .ok after) :
    after.entries = session.entries ++
      if (session.log.append session.disk entries).isOk then entries else [] := by
  rw [step] at stepped
  cases accepted : session.log.append session.disk entries with
  | error error =>
      rw [accepted] at stepped
      cases stepped
      exact (List.append_nil _).symm
  | ok written =>
      rw [accepted] at stepped
      cases stepped
      rw [Session.entries, List.flatMap_append, flatMap_entries_added]
      rfl

/-- The disk after closing the log. -/
def closed (session : Session) : Disk :=
  (session.log.close session.disk).2

end Session

/-- A log shows a map: in its size, its last key, and a full scan while it is
open. -/
structure Shows (log : Log) (disk : Disk) (stored : KeyMap Bytes) : Prop where
  size_eq : log.size = stored.length
  lastKey?_eq : log.lastKey? = stored.lastKey?
  scan_eq : log.writer ≠ none → ∀ limit,
    ((Scan.between (Key.first 0) (Key.last 0xFFFFFFFFFFFFFFFF)).take limit log disk).1 =
      (stored.take limit).map Scan.yieldOf

/-- A log shows the map that it serves. -/
theorem Serves.shows
    {log : Log}
    {writer : Writer}
    {disk : Disk}
    {stored : KeyMap Bytes}
    (serves : Serves log writer disk stored) :
    Shows log disk stored := by
  refine ⟨serves.agree.length_eq, serves.agree.lastKey?_eq, fun _ limit => ?_⟩
  rw [(Scan.take_spec limit serves (Scan.sound_between _ _ writer disk)).1, Scan.ahead_full]

/-! ## The invariant -/

/-- An open log with a layout. -/
structure IsOpen
    (front : Layout) (last : List Whole) (log : Log) (writer : Writer) (disk : Disk) : Prop where
  serves : Serves log writer disk (KeyMap.ofEntries (Layout.entries (front ++ [last])))
  segment_eq : writer.segment = front.length
  laid : Laid (front ++ [last]) disk (writer.written disk)

/-- The files of a closed log with a layout. -/
structure IsClosed (front : Layout) (last : List Whole) (disk : Disk) : Prop where
  wellFormed : disk.WellFormed
  isDirectory : disk.place = .directory
  laid : Laid (front ++ [last]) disk disk.segment

/-- The log of a session has a layout with its batches, and segments can be
numbered for some more commands. -/
structure Consistent
    (front : Layout) (last : List Whole) (commands : Nat) (session : Session) : Prop where
  index_eq : session.log.index = Layout.enter 0 (front ++ [last]) []
  records_eq : session.records = Layout.records 0 (front ++ [last])
  numbered : front.length + commands < 0x10000000000000000
  isOpenOrClosed : (∃ writer, IsOpen front last session.log writer session.disk) ∨
    session.log.writer = none ∧ IsClosed front last session.disk

/-- Sending on what is buffered keeps a log open. -/
theorem IsOpen.settle
    {front : Layout}
    {last : List Whole}
    {log : Log}
    {writer after : Writer}
    {disk grown : Disk}
    (isOpen : IsOpen front last log writer disk)
    (settles : Writer.Settles writer disk after grown) :
    IsOpen front last { log with writer := some after } after grown where
  serves := isOpen.serves.settle settles
  segment_eq := settles.adds.segment_eq.trans isOpen.segment_eq
  laid := isOpen.laid.settle settles

/-- Closing an open log leaves its layout in the files. -/
theorem IsOpen.close
    {front : Layout}
    {last : List Whole}
    {log : Log}
    {writer : Writer}
    {disk : Disk}
    (isOpen : IsOpen front last log writer disk) :
    (log.close disk).1 = { log with writer := none } ∧
      IsClosed front last (log.close disk).2 := by
  have hasFile := isOpen.serves.ready.toHasFile
  have synced := Writer.adds_sync hasFile
  rw [close_eq isOpen.serves.writer_eq]
  exact ⟨rfl, synced.wellFormed, synced.isDirectory, isOpen.laid.close hasFile⟩

/-- Closing leaves the layout in the files, and the index as it is. -/
theorem Consistent.close
    {front : Layout}
    {last : List Whole}
    {commands : Nat}
    {session : Session}
    (consistent : Consistent front last commands session) :
    (session.log.close session.disk).1 = { session.log with writer := none } ∧
      IsClosed front last session.closed := by
  rcases consistent.isOpenOrClosed with ⟨writer, isOpen⟩ | ⟨noWriter, isClosed⟩
  · exact isOpen.close
  · rw [Session.closed, close_eq_self noWriter]
    refine ⟨?_, isClosed⟩
    rw [← noWriter]

/-- Opening files leaves their whole frames. -/
theorem exists_consistent_of_torn
    {front : Layout}
    {last : List Whole}
    {rest : Bytes}
    {disk : Disk}
    (wellFormed : disk.WellFormed)
    (isDirectory : disk.place = .directory)
    (torn : Torn front last rest disk)
    {commands : Nat}
    (numbered : front.length + commands < 0x10000000000000000)
    (settings : Settings) :
    ∃ log writer opened, openIn settings disk = .ok (log, opened) ∧
      Opens settings disk log writer opened ∧
      log.truncatedTails = (if rest = [] then 0 else 1) ∧
      Consistent front last commands ⟨log, opened, Layout.records 0 (front ++ [last])⟩ := by
  have isPlace : disk.place ≠ .file := by
    rw [isDirectory]
    decide
  have present : HasFiles disk (Segment.discover disk) := by
    rw [torn.discover_eq]
    exact torn.hasFiles
  have opens := opens_openedLog wellFormed present settings
  obtain ⟨segment_eq, laid⟩ := torn.laid_of_opens opens
  refine ⟨_, _, _, openIn_eq wellFormed isPlace present settings, opens, ?_, ?_⟩
  · rw [opens.truncatedTails_eq, torn.damagedCount_eq]
  · refine ⟨?_, rfl, numbered, Or.inl ⟨_, ?_, segment_eq, laid⟩⟩
    · exact opens.index_eq.trans torn.rebuild_eq
    · rw [← torn.recovered_eq]
      exact opens.serves

/-- Opening the files of a closed log leaves its layout. -/
theorem IsClosed.exists_consistent
    {front : Layout}
    {last : List Whole}
    {disk : Disk}
    (isClosed : IsClosed front last disk)
    {commands : Nat}
    (numbered : front.length + commands < 0x10000000000000000)
    (settings : Settings) :
    ∃ log opened, openIn settings disk = .ok (log, opened) ∧ log.writer ≠ none ∧
      log.truncatedTails = 0 ∧
      Consistent front last commands ⟨log, opened, Layout.records 0 (front ++ [last])⟩ := by
  obtain ⟨log, writer, opened, accepted, opens, tails, consistent⟩ := exists_consistent_of_torn
    isClosed.wellFormed isClosed.isDirectory isClosed.laid.torn numbered settings
  refine ⟨log, opened, accepted, ?_, tails, consistent⟩
  rw [opens.writer_eq]
  exact Option.some_ne_none writer

/-- Opening an empty directory leaves one empty segment. -/
theorem exists_consistent_of_empty
    {disk : Disk}
    (empty : disk.names = [])
    (isPlace : disk.place ≠ .file)
    {commands : Nat}
    (numbered : commands < 0x10000000000000000)
    (settings : Settings) :
    ∃ log opened, openIn settings disk = .ok (log, opened) ∧
      Consistent [] [] commands ⟨log, opened, []⟩ := by
  have wellFormed : disk.WellFormed := ⟨by simp [empty], by simp [empty]⟩
  have noSegments : Segment.discover disk = [] := by
    simp [Segment.discover, Disk.listing, empty]
  have present : HasFiles disk (Segment.discover disk) := by
    simp [HasFiles, noSegments]
  have opens := opens_openedLog wellFormed present settings
  have serves := opens.serves
  obtain ⟨segment_eq, index_eq, _, laid⟩ := laid_of_opens_empty empty opens
  rw [recovered, noSegments] at serves
  refine ⟨_, _, openIn_eq wellFormed isPlace present settings, index_eq, rfl, ?_,
    Or.inl ⟨_, serves, segment_eq, laid⟩⟩
  rwa [List.length_nil, Nat.zero_add]

/-! ## Commands -/

/-- An accepted batch adds its frame and its record. -/
theorem IsOpen.append
    {front : Layout}
    {last : List Whole}
    {log after : Log}
    {writer : Writer}
    {disk grown : Disk}
    {whole : Whole}
    (isOpen : IsOpen front last log writer disk)
    (small : writer.segment + 1 < 0x10000000000000000)
    (appends : Appends log writer disk whole after grown) :
    ∃ newFront newLast,
      Extends (front ++ [last]) (writer.write disk whole.bytes).1
        (writer.write disk whole.bytes).2.1 grown whole.entries newFront newLast ∧
      IsOpen newFront newLast after (writer.write disk whole.bytes).2.1 grown := by
  have stores := appends.stores isOpen.serves.ready small
  obtain ⟨newFront, newLast, extended⟩ := isOpen.laid.exists_extends isOpen.segment_eq stores
  have entries_eq : Layout.entries (newFront ++ [newLast]) =
      Layout.entries (front ++ [last]) ++ whole.entries := by
    rw [← Layout.flatMap_entries_records 0, extended.records_eq, List.flatMap_append,
      Layout.flatMap_entries_records, List.flatMap_singleton]
  refine ⟨newFront, newLast, extended, ?_, extended.segment_eq, extended.laid⟩
  rw [entries_eq, KeyMap.ofEntries_append]
  exact isOpen.serves.append small appends

/-- An append keeps a session consistent. -/
theorem Consistent.append
    {front : Layout}
    {last : List Whole}
    {commands : Nat}
    {session : Session}
    (consistent : Consistent front last (commands + 1) session)
    {entries : List Entry}
    {after : Log}
    {grown : Disk}
    (length_lt : entries.length < Bytes.cardinality 4)
    (accepted : session.log.append session.disk entries = .ok (after, grown)) :
    ∃ newFront newLast,
      Consistent newFront newLast commands
        ⟨after, grown, session.records ++ Session.added entries after⟩ := by
  obtain ⟨index_eq, records_eq, numbered, isOpenOrClosed⟩ := consistent
  cases entries with
  | nil =>
      rw [append_nil] at accepted
      cases accepted
      rw [Session.added_nil, List.append_nil]
      exact ⟨front, last, index_eq, records_eq, by omega, isOpenOrClosed⟩
  | cons entry others =>
      have notEmpty := List.cons_ne_nil entry others
      obtain ⟨writer, whole, entries_eq, appends⟩ := exists_appends notEmpty length_lt accepted
      rcases isOpenOrClosed with ⟨other, isOpen⟩ | ⟨noWriter, _⟩
      · obtain rfl : writer = other :=
          Option.some_inj.mp (appends.before_eq.symm.trans isOpen.serves.writer_eq)
        have segment_eq := isOpen.segment_eq
        have small : writer.segment + 1 < 0x10000000000000000 := by omega
        have follows := (appends.stores isOpen.serves.ready small).follows
        obtain ⟨newFront, newLast, extended, newOpen⟩ := isOpen.append small appends
        have newSegment := extended.segment_eq
        refine ⟨newFront, newLast, ?_, ?_, by omega, Or.inl ⟨_, newOpen⟩⟩
        · rw [extended.enter_eq, ← index_eq]
          exact appends.index_eq
        · rw [extended.records_eq, ← records_eq, entries_eq,
            Session.added_of_writer_eq_some notEmpty appends.writer_eq]
      · have opened := appends.before_eq
        rw [noWriter] at opened
        cases opened

/-- A consistent session may have fewer commands left. -/
theorem Consistent.fewer
    {front : Layout}
    {last : List Whole}
    {commands : Nat}
    {session : Session}
    (consistent : Consistent front last (commands + 1) session) :
    Consistent front last commands session := by
  have numbered := consistent.numbered
  exact ⟨consistent.index_eq, consistent.records_eq, by omega, consistent.isOpenOrClosed⟩

/-- A scan keeps a session consistent. -/
theorem Consistent.scan
    {front : Layout}
    {last : List Whole}
    {commands : Nat}
    {session : Session}
    (consistent : Consistent front last commands session)
    (start stop : Key)
    (limit : Nat) :
    ∃ after, session.step (.scan start stop limit) = .ok after ∧
      Consistent front last commands after ∧ after.records = session.records := by
  rw [Session.step]
  refine ⟨_, rfl, ?_, rfl⟩
  rcases consistent.isOpenOrClosed with ⟨writer, isOpen⟩ | ⟨noWriter, isClosed⟩
  · obtain ⟨_, behind, after_eq, settles⟩ := Scan.take_spec limit isOpen.serves
      (Scan.sound_between start stop writer session.disk)
    generalize (Scan.between start stop).take limit session.log session.disk = result at *
    obtain ⟨yielded, later, after, grown⟩ := result
    dsimp only at after_eq settles ⊢
    rw [after_eq]
    exact ⟨consistent.index_eq, consistent.records_eq, consistent.numbered,
      Or.inl ⟨behind, isOpen.settle settles⟩⟩
  · have same := Scan.take_of_closed noWriter limit (Scan.between start stop) session.disk
    generalize (Scan.between start stop).take limit session.log session.disk = result at *
    obtain ⟨yielded, later, after, grown⟩ := result
    cases same
    exact ⟨consistent.index_eq, consistent.records_eq, consistent.numbered,
      Or.inr ⟨noWriter, isClosed⟩⟩

/-- Every command succeeds, keeps a session consistent and keeps its batches. -/
theorem Consistent.exists_step
    {front : Layout}
    {last : List Whole}
    {commands : Nat}
    {session : Session}
    (consistent : Consistent front last (commands + 1) session)
    {command : Command}
    (counted : command.IsCounted) :
    ∃ after newFront newLast, session.step command = .ok after ∧
      Consistent newFront newLast commands after ∧ session.records <+: after.records := by
  have fewer := consistent.fewer
  have kept := List.prefix_refl session.records
  cases command with
  | append entries =>
      rw [Session.step]
      cases accepted : session.log.append session.disk entries with
      | error error => exact ⟨session, front, last, rfl, fewer, kept⟩
      | ok result =>
          obtain ⟨after, grown⟩ := result
          obtain ⟨newFront, newLast, newConsistent⟩ := consistent.append counted accepted
          exact ⟨_, newFront, newLast, rfl, newConsistent, List.prefix_append _ _⟩
  | scan start stop limit =>
      obtain ⟨after, stepped, newConsistent, records_eq⟩ := fewer.scan start stop limit
      exact ⟨after, front, last, stepped, newConsistent, records_eq.symm ▸ kept⟩
  | close =>
      obtain ⟨after_eq, isClosed⟩ := consistent.close
      have stepped : session.step .close =
          .ok ⟨(session.log.close session.disk).1, session.closed, session.records⟩ :=
        rfl
      refine ⟨_, front, last, stepped,
        ⟨?_, fewer.records_eq, fewer.numbered, Or.inr ⟨?_, isClosed⟩⟩, kept⟩
      · rw [after_eq]
        exact fewer.index_eq
      · rw [after_eq]
  | reopen settings =>
      obtain ⟨_, isClosed⟩ := consistent.close
      obtain ⟨log, opened, accepted, _, _, newConsistent⟩ :=
        isClosed.exists_consistent fewer.numbered settings
      rw [← consistent.records_eq] at newConsistent
      refine ⟨_, front, last, ?_, newConsistent, kept⟩
      rw [Session.closed] at accepted
      rw [Session.step, accepted]

/-- All commands succeed and keep a session consistent. -/
theorem Consistent.exists_run
    {front : Layout}
    {last : List Whole}
    {commands : List Command}
    {session : Session}
    {more : Nat}
    (consistent : Consistent front last (commands.length + more) session)
    (counted : ∀ command ∈ commands, command.IsCounted) :
    ∃ after newFront newLast, session.run commands = .ok after ∧
      Consistent newFront newLast more after ∧ session.records <+: after.records := by
  induction commands generalizing front last session with
  | nil =>
      rw [List.length_nil, Nat.zero_add] at consistent
      exact ⟨session, front, last, rfl, consistent, List.prefix_refl _⟩
  | cons command rest inductionHypothesis =>
      obtain ⟨first, others⟩ := List.forall_mem_cons.mp counted
      rw [List.length_cons, Nat.add_right_comm] at consistent
      obtain ⟨between, nextFront, nextLast, stepped, nextConsistent, nextKept⟩ :=
        consistent.exists_step first
      obtain ⟨after, newFront, newLast, finished, newConsistent, newKept⟩ :=
        inductionHypothesis nextConsistent others
      refine ⟨after, newFront, newLast, ?_, newConsistent, nextKept.trans newKept⟩
      rw [Session.run, stepped]
      exact finished

/-! ## What a session shows -/

/-- A consistent session shows the map of the entries of its batches. -/
theorem Consistent.shows
    {front : Layout}
    {last : List Whole}
    {commands : Nat}
    {session : Session}
    (consistent : Consistent front last commands session) :
    Shows session.log session.disk (KeyMap.ofEntries session.entries) := by
  have entries_eq : session.entries = Layout.entries (front ++ [last]) := by
    rw [Session.entries, consistent.records_eq, Layout.flatMap_entries_records]
  have agree : KeyMap.Matches (fun _ _ _ => True) session.log.index
      (KeyMap.ofEntries session.entries) := by
    rw [consistent.index_eq, entries_eq]
    exact Layout.matches_enter List.Forall₂.nil 0 (front ++ [last])
  refine ⟨agree.length_eq, agree.lastKey?_eq, fun isOpen limit => ?_⟩
  rcases consistent.isOpenOrClosed with ⟨writer, opened⟩ | ⟨noWriter, _⟩
  · have serves := opened.serves
    rw [← entries_eq] at serves
    exact serves.shows.scan_eq isOpen limit
  · exact absurd noWriter isOpen

/-- A consistent session is closed and opened again with the same index. -/
theorem Consistent.exists_reopened
    {front : Layout}
    {last : List Whole}
    {session : Session}
    (consistent : Consistent front last 0 session)
    (settings : Settings) :
    ∃ reopened opened, openIn settings session.closed = .ok (reopened, opened) ∧
      reopened.writer ≠ none ∧ reopened.truncatedTails = 0 ∧
      reopened.index = session.log.index ∧
      Shows reopened opened (KeyMap.ofEntries session.entries) := by
  obtain ⟨_, isClosed⟩ := consistent.close
  obtain ⟨reopened, opened, accepted, isOpen, tails, newConsistent⟩ :=
    isClosed.exists_consistent consistent.numbered settings
  have shows := newConsistent.shows
  rw [← consistent.records_eq] at shows
  exact ⟨reopened, opened, accepted, isOpen, tails,
    newConsistent.index_eq.trans consistent.index_eq.symm, shows⟩

/-- A session that starts in an empty directory succeeds and is consistent. -/
theorem exists_consistent_start
    {disk : Disk}
    (empty : disk.names = [])
    (isPlace : disk.place ≠ .file)
    (settings : Settings)
    {commands : List Command}
    {more : Nat}
    (counted : ∀ command ∈ commands, command.IsCounted)
    (numbered : commands.length + more < 0x10000000000000000) :
    ∃ session front last, Session.start settings disk commands = .ok session ∧
      Consistent front last more session := by
  obtain ⟨log, opened, accepted, consistent⟩ :=
    exists_consistent_of_empty empty isPlace numbered settings
  obtain ⟨session, front, last, finished, newConsistent, _⟩ := consistent.exists_run counted
  refine ⟨session, front, last, ?_, newConsistent⟩
  rw [Session.start, accepted]
  exact finished

/-- After any commands from an empty directory the log shows the map in which the
last accepted write of every key wins, and opening it again rebuilds its index.
Batches have less than 2^32 entries, and the commands do not use up the 64-bit
numbers of segments. -/
theorem refines_map
    {disk : Disk}
    (empty : disk.names = [])
    (isPlace : disk.place ≠ .file)
    (settings : Settings)
    {commands : List Command}
    (counted : ∀ command ∈ commands, command.IsCounted)
    (numbered : commands.length < 0x10000000000000000) :
    ∃ session, Session.start settings disk commands = .ok session ∧
      Shows session.log session.disk (KeyMap.ofEntries session.entries) ∧
      (KeyMap.ofEntries session.entries).Ascending ∧
      (∀ key value, (key, value) ∈ KeyMap.ofEntries session.entries ↔
        KeyMap.lastValue? session.entries key = some value) ∧
      ∀ later, ∃ reopened opened, openIn later session.closed = .ok (reopened, opened) ∧
        reopened.index = session.log.index ∧ reopened.writer ≠ none ∧
        Shows reopened opened (KeyMap.ofEntries session.entries) := by
  obtain ⟨session, front, last, finished, consistent⟩ :=
    @exists_consistent_start disk empty isPlace settings commands 0 counted numbered
  refine ⟨session, finished, consistent.shows, KeyMap.ascending_ofEntries _,
    KeyMap.mem_ofEntries_iff session.entries, fun later => ?_⟩
  obtain ⟨reopened, opened, accepted, isOpen, _, index_eq, shows⟩ :=
    consistent.exists_reopened later
  exact ⟨reopened, opened, accepted, index_eq, isOpen, shows⟩

/-- A session that overwrites a key after reopening the log. -/
theorem refines_map_vacant :
    Disk.vacant.names = [] ∧ Disk.vacant.place ≠ .file ∧
      ∃ session,
        Session.start Settings.standard Disk.vacant
          [.append [⟨Key.first 1, [7]⟩, ⟨Key.first 2, []⟩], .reopen Settings.standard,
            .append [⟨Key.first 1, [8]⟩]] = .ok session ∧
        Shows session.log session.disk (KeyMap.ofEntries session.entries) := by
  refine ⟨rfl, by decide, ?_⟩
  obtain ⟨session, finished, shows, _⟩ :=
    @refines_map Disk.vacant rfl (by decide) Settings.standard
      [.append [⟨Key.first 1, [7]⟩, ⟨Key.first 2, []⟩], .reopen Settings.standard,
        .append [⟨Key.first 1, [8]⟩]]
      (by simp [Command.IsCounted, Bytes.cardinality]) (by decide)
  exact ⟨session, finished, shows⟩

end Log
end EventRelay
