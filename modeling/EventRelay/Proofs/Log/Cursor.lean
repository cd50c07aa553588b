import EventRelay.Proofs.Log.Opening
import EventRelay.Proofs.Log.Scan

/-!
# A scan is a cursor over a growing log

A scan goes over an open log while entries are appended and other scans run.
Every step yields the least stored key that is not below the start and above
the key yielded last, with the value that is stored then, or nothing when that
key is missing or past the end.  Once a step has yielded nothing the scan is
over.  Until then a new scan from the successor of its last key yields the same
as the scan itself.
-/

namespace EventRelay
namespace Log

open Segment (Writer)

/-! ## Running -/

/-- What is done with a log while a scan goes over it. -/
inductive Call where
  /-- Append entries. -/
  | append (entries : List Entry)
  /-- Carry out a step of the scan. -/
  | next
  /-- Carry out some steps of another scan. -/
  | other (start stop : Key) (limit : Nat)

/-- A log with a scan that goes over it, and what came of the calls so far. -/
structure Traversal where
  log : Log
  disk : Disk
  scan : Scan
  /-- The entries of the accepted appends, in order. -/
  appended : List Entry
  /-- What the steps of the scan yielded, in order. -/
  yields : List Scan.Yield

/-- The keys that were yielded, in order. -/
def yieldedKeys (yields : List Scan.Yield) : List Key :=
  yields.filterMap fun
    | some (.ok entry) => some entry.key
    | _ => none

namespace Traversal

/-- A scan begins to go over a log. -/
def begin (log : Log) (disk : Disk) (start stop : Key) : Traversal where
  log := log
  disk := disk
  scan := Scan.between start stop
  appended := []
  yields := []

/-- Carry out a call.  A refused append leaves everything as it is. -/
def step (state : Traversal) : Call → Traversal
  | .append entries =>
      match state.log.append state.disk entries with
      | .error _ => state
      | .ok (log, disk) =>
          { state with log := log, disk := disk, appended := state.appended ++ entries }
  | .next =>
      let (yielded, scan, log, disk) := state.scan.next state.log state.disk
      { state with log := log, disk := disk, scan := scan, yields := state.yields ++ [yielded] }
  | .other start stop limit =>
      let (_, _, log, disk) := (Scan.between start stop).take limit state.log state.disk
      { state with log := log, disk := disk }

/-- Carry out calls in order. -/
def run (state : Traversal) (calls : List Call) : Traversal :=
  calls.foldl step state

/-- The map of what was stored before and of what was appended. -/
def stored (before : List Entry) (state : Traversal) : KeyMap Bytes :=
  KeyMap.ofEntries (before ++ state.appended)

end Traversal

/-! ## What is right -/

/-- A key is not below the start and above the key yielded last. -/
def Awaits (start : Key) (lastKey : Option Key) (key : Key) : Prop :=
  start ≤ key ∧ ∀ last ∈ lastKey, last < key

/-- What a step is to yield: the least awaited key with its stored value, if the
scan is not over and the key is not past the end; never an error. -/
def IsRight
    (stored : KeyMap Bytes) (start stop : Key) (lastKey : Option Key) (isOver : Prop) :
    Scan.Yield → Prop
  | some (.ok entry) =>
      ¬isOver ∧ (entry.key, entry.value) ∈ stored ∧ Awaits start lastKey entry.key ∧
        entry.key.timestamp ≤ stop.timestamp ∧
        ∀ other ∈ stored, Awaits start lastKey other.1 → entry.key ≤ other.1
  | some (.error _) => False
  | none =>
      isOver ∨ ∀ other ∈ stored, Awaits start lastKey other.1 →
        stop.timestamp < other.1.timestamp

/-- Where a new scan takes the place of one with the given last key. -/
def resumption (start : Key) : (lastKey : Option Key) → Option Key
  | none => some start
  | some key => key.successor

/-- What a new scan yields in the place of one with the given last key. -/
def restarted
    (start stop : Key) (lastKey : Option Key) (limit : Nat) (log : Log) (disk : Disk) :
    List (Except LogError Entry) :=
  match resumption start lastKey with
  | none => []
  | some least => ((Scan.between least stop).take limit log disk).1

/-- A scan from a start to an end is a cursor over the stored map. -/
structure IsCursor (before : List Entry) (start stop : Key) (state : Traversal) : Prop where
  /-- The scan knows the key yielded last. -/
  lastKey_eq : state.scan.lastKey = (yieldedKeys state.yields).getLast?
  /-- The yielded keys are strictly ascending. -/
  ascending : (yieldedKeys state.yields).Pairwise (· < ·)
  /-- The next step yields what is right, and nothing once it has yielded nothing. -/
  next_isRight : IsRight (state.stored before) start stop state.scan.lastKey
    (none ∈ state.yields) (state.scan.next state.log state.disk).1
  /-- A scan that is not over can be restarted from its last key. -/
  restarts : none ∉ state.yields → ∀ limit,
    (state.scan.take limit state.log state.disk).1 =
      restarted start stop state.scan.lastKey limit state.log state.disk

/-! ## Where the scan is -/

/-- A scan is where its yields have brought it. -/
structure Tracks (start stop : Key) (yields : List Scan.Yield) (scan : Scan) : Prop where
  endTime_eq : scan.endTime = stop.timestamp
  lastKey_eq : scan.lastKey = (yieldedKeys yields).getLast?
  ascending : (yieldedKeys yields).Pairwise (· < ·)
  start_le : ∀ key ∈ yieldedKeys yields, start ≤ key
  /-- The scan is over, or awaits the keys above its last one. -/
  nextFrom_eq : (none ∈ yields → scan.nextFrom = none) ∧
    (none ∉ yields → scan.nextFrom = resumption start scan.lastKey)

theorem tracks_between (start stop : Key) : Tracks start stop [] (Scan.between start stop) where
  endTime_eq := rfl
  lastKey_eq := rfl
  ascending := List.Pairwise.nil
  start_le := by simp [yieldedKeys]
  nextFrom_eq := ⟨by simp, fun _ => rfl⟩

/-- The awaited keys are those from the place where the scan is resumed. -/
theorem awaits_iff
    {start : Key}
    {lastKey : Option Key}
    (start_le : ∀ last ∈ lastKey, start ≤ last)
    (key : Key) :
    Awaits start lastKey key ↔ ∃ least ∈ resumption start lastKey, least ≤ key := by
  cases lastKey with
  | none => simp [Awaits, resumption]
  | some last =>
      have bound : start ≤ last := start_le last rfl
      have above : Awaits start (some last) key ↔ last < key := by
        constructor
        · exact fun awaits => awaits.2 last rfl
        · rintro less
          refine ⟨Key.le_trans bound (Key.le_of_lt less), ?_⟩
          rintro other ⟨⟩
          exact less
      rw [above, resumption]
      cases following : last.successor with
      | none => simp [Key.not_lt_of_successor_eq_none following key]
      | some next => simp [Key.successor_le_iff following]

/-- What is ahead of a scan that is not over is awaited and not past the end. -/
theorem Tracks.mem_ahead_iff
    {start stop : Key}
    {yields : List Scan.Yield}
    {scan : Scan}
    (tracks : Tracks start stop yields scan)
    (goesOn : none ∉ yields)
    (contents : KeyMap Bytes)
    (pair : Key × Bytes) :
    pair ∈ scan.ahead contents ↔
      pair ∈ contents ∧ Awaits start scan.lastKey pair.1 ∧
        pair.1.timestamp ≤ stop.timestamp := by
  have start_le : ∀ last ∈ scan.lastKey, start ≤ last := by
    intro last isLast
    rw [tracks.lastKey_eq] at isLast
    exact tracks.start_le last (List.mem_of_getLast? isLast)
  rw [Scan.ahead, tracks.nextFrom_eq.2 goesOn, awaits_iff start_le]
  cases resumption start scan.lastKey with
  | none => simp
  | some least => simp [KeyMap.mem_between_iff, tracks.endTime_eq]

/-- What is above the last of ascending keys is above all of them. -/
theorem lt_of_lt_getLast?
    {keys : List Key}
    (ascending : keys.Pairwise (· < ·))
    {key upper : Key}
    (present : key ∈ keys)
    (above : ∀ last ∈ keys.getLast?, last < upper) :
    key < upper := by
  cases last : keys.getLast? with
  | none =>
      rw [List.getLast?_eq_none_iff.mp last] at present
      cases present
  | some greatest =>
      have bound := above greatest last
      obtain ⟨front, rfl⟩ := List.getLast?_eq_some_iff.mp last
      rcases List.mem_append.mp present with inFront | isLast
      · exact Key.lt_trans
          ((List.pairwise_append.mp ascending).2.2 key inFront greatest List.mem_cons_self) bound
      · rwa [List.mem_singleton.mp isLast]

/-- A step that yields what is ahead yields what is right. -/
theorem Tracks.isRight
    {start stop : Key}
    {yields : List Scan.Yield}
    {scan later : Scan}
    {log after : Log}
    {writer : Writer}
    {disk grown : Disk}
    {contents : KeyMap Bytes}
    {yielded : Scan.Yield}
    (tracks : Tracks start stop yields scan)
    (ascending : contents.Ascending)
    (advances : Scan.Advances scan log writer disk contents yielded later after grown) :
    IsRight contents start stop scan.lastKey (none ∈ yields) yielded := by
  by_cases isOver : none ∈ yields
  · have nothing : scan.ahead contents = [] := by
      rw [Scan.ahead, tracks.nextFrom_eq.1 isOver]
    rcases advances.yields with ⟨rfl, _⟩ | ⟨pair, rfl, parts, _⟩
    · exact Or.inl isOver
    · rw [nothing] at parts
      cases parts
  · have mem_ahead := tracks.mem_ahead_iff isOver contents
    rcases advances.yields with ⟨rfl, nothing, _⟩ | ⟨pair, rfl, parts, _⟩
    · refine Or.inr fun other present awaits => ?_
      rw [← UInt64.not_le]
      intro inTime
      have member := (mem_ahead other).mpr ⟨present, awaits, inTime⟩
      rw [nothing] at member
      cases member
    · have first : pair ∈ scan.ahead contents := by
        rw [parts]
        exact List.mem_cons_self
      obtain ⟨present, awaits, inTime⟩ := (mem_ahead pair).mp first
      refine ⟨isOver, present, awaits, inTime, fun other otherPresent otherAwaits => ?_⟩
      by_contra lower
      have below : other.1 < pair.1 := Key.not_le.mp lower
      have otherInTime : other.1.timestamp ≤ stop.timestamp :=
        UInt64.le_trans (Key.timestamp_le_of_le (Key.le_of_lt below)) inTime
      have member := (mem_ahead other).mpr ⟨otherPresent, otherAwaits, otherInTime⟩
      have sorted := Scan.ascending_ahead ascending scan
      rw [parts] at member sorted
      rcases List.mem_cons.mp member with rfl | later
      · exact Key.lt_irrefl _ below
      · exact Key.lt_asymm below (List.rel_of_pairwise_cons sorted later)

/-- A scan stays where its yields bring it. -/
theorem Tracks.advance
    {start stop : Key}
    {yields : List Scan.Yield}
    {scan later : Scan}
    {log after : Log}
    {writer : Writer}
    {disk grown : Disk}
    {contents : KeyMap Bytes}
    {yielded : Scan.Yield}
    (tracks : Tracks start stop yields scan)
    (advances : Scan.Advances scan log writer disk contents yielded later after grown) :
    Tracks start stop (yields ++ [yielded]) later := by
  have endTime_eq := advances.endTime_eq.trans tracks.endTime_eq
  rcases advances.yields with ⟨rfl, _, isOver, sameKey⟩ | ⟨pair, rfl, parts, next, lastKey⟩
  · have sameKeys : yieldedKeys (yields ++ [none]) = yieldedKeys yields := by
      simp [yieldedKeys]
    refine ⟨endTime_eq, ?_, ?_, ?_, fun _ => isOver, fun goesOn => absurd (by simp) goesOn⟩
    · rw [sameKeys, sameKey, tracks.lastKey_eq]
    · rw [sameKeys]
      exact tracks.ascending
    · rw [sameKeys]
      exact tracks.start_le
  · have goesOn : none ∉ yields := by
      intro isOver
      rw [Scan.ahead, tracks.nextFrom_eq.1 isOver] at parts
      cases parts
    have moreKeys : yieldedKeys (yields ++ [some (Scan.yieldOf pair)]) =
        yieldedKeys yields ++ [pair.1] := by
      simp [yieldedKeys, Scan.yieldOf]
    have member : pair ∈ scan.ahead contents := by
      rw [parts]
      exact List.mem_cons_self
    obtain ⟨_, ⟨reached, above⟩, _⟩ := (tracks.mem_ahead_iff goesOn contents pair).mp member
    refine ⟨endTime_eq, ?_, ?_, ?_, fun isOver => ?_, fun _ => ?_⟩
    · rw [moreKeys, List.getLast?_concat, lastKey]
    · rw [moreKeys, List.pairwise_append]
      refine ⟨tracks.ascending, List.pairwise_singleton _ _, fun key present other isPair => ?_⟩
      rw [List.mem_singleton.mp isPair]
      exact lt_of_lt_getLast? tracks.ascending present (tracks.lastKey_eq ▸ above)
    · rw [moreKeys]
      intro key present
      rcases List.mem_append.mp present with old | new
      · exact tracks.start_le key old
      · rw [List.mem_singleton.mp new]
        exact reached
    · rcases List.mem_append.mp isOver with old | new
      · exact absurd old goesOn
      · cases List.mem_singleton.mp new
    · rw [lastKey]
      exact next

/-- A scan that is not over yields what a new one yields in its place. -/
theorem Tracks.restarts
    {start stop : Key}
    {yields : List Scan.Yield}
    {scan : Scan}
    {log : Log}
    {writer : Writer}
    {disk : Disk}
    {contents : KeyMap Bytes}
    (tracks : Tracks start stop yields scan)
    (goesOn : none ∉ yields)
    (serves : Serves log writer disk contents)
    (sound : scan.Sound writer disk)
    (limit : Nat) :
    (scan.take limit log disk).1 = restarted start stop scan.lastKey limit log disk := by
  rw [(Scan.take_spec limit serves sound).1, restarted, Scan.ahead,
    tracks.nextFrom_eq.2 goesOn]
  cases resumption start scan.lastKey with
  | none => simp
  | some least =>
      have fresh := Scan.take_spec limit serves (Scan.sound_between least stop writer disk)
      dsimp only
      rw [fresh.1, tracks.endTime_eq]
      rfl

/-! ## Every run -/

/-- What holds after every call: the log serves what was stored, what the scan
keeps is right, and segments can still be numbered for some more calls. -/
structure Traversal.Invariant
    (before : List Entry) (start stop : Key) (calls : Nat) (state : Traversal) : Prop where
  serves : ∃ writer, Serves state.log writer state.disk (state.stored before) ∧
    state.scan.Sound writer state.disk ∧ writer.segment + calls < 0x10000000000000000
  tracks : Tracks start stop state.yields state.scan

theorem Traversal.Invariant.isCursor
    {before : List Entry}
    {start stop : Key}
    {calls : Nat}
    {state : Traversal}
    (invariant : Invariant before start stop calls state) :
    IsCursor before start stop state := by
  obtain ⟨writer, serves, sound, _⟩ := invariant.serves
  have tracks := invariant.tracks
  refine ⟨tracks.lastKey_eq, tracks.ascending, ?_, fun goesOn limit => ?_⟩
  · exact tracks.isRight serves.ascending (Scan.advances_next serves sound)
  · exact tracks.restarts goesOn serves sound limit

/-- The number of entries of an append can be stored. -/
def Call.IsCounted : Call → Prop
  | .append entries => entries.length < Bytes.cardinality 4
  | _ => True

/-- An append keeps the invariant. -/
theorem Traversal.Invariant.append
    {before : List Entry}
    {start stop : Key}
    {calls : Nat}
    {state : Traversal}
    (invariant : Invariant before start stop (calls + 1) state)
    {entries : List Entry}
    (counted : entries.length < Bytes.cardinality 4) :
    Invariant before start stop calls (state.step (.append entries)) := by
  obtain ⟨⟨writer, serves, sound, small⟩, tracks⟩ := invariant
  rw [Traversal.step]
  cases accepted : state.log.append state.disk entries with
  | error error => exact ⟨⟨writer, serves, sound, by omega⟩, tracks⟩
  | ok result =>
      obtain ⟨after, grown⟩ := result
      refine ⟨?_, tracks⟩
      dsimp only [stored]
      rw [← List.append_assoc, KeyMap.ofEntries_append]
      by_cases empty : entries = []
      · subst empty
        rw [append_nil] at accepted
        cases accepted
        exact ⟨writer, serves, sound, by omega⟩
      · obtain ⟨other, whole, rfl, appends⟩ := exists_appends empty counted accepted
        obtain rfl : other = writer :=
          Option.some_inj.mp (appends.before_eq.symm.trans serves.writer_eq)
        have stores := appends.stores serves.ready (by omega)
        refine ⟨_, serves.append (by omega) appends, sound.write stores, ?_⟩
        have follows := stores.follows
        omega

/-- A step of the scan keeps the invariant. -/
theorem Traversal.Invariant.next
    {before : List Entry}
    {start stop : Key}
    {calls : Nat}
    {state : Traversal}
    (invariant : Invariant before start stop (calls + 1) state) :
    Invariant before start stop calls (state.step .next) := by
  obtain ⟨⟨writer, serves, sound, small⟩, tracks⟩ := invariant
  have advances := Scan.advances_next serves sound
  rw [Traversal.step]
  generalize state.scan.next state.log state.disk = result at advances
  obtain ⟨yielded, later, after, grown⟩ := result
  obtain ⟨behind, after_eq, settles, laterSound⟩ := advances.settled
  dsimp only at after_eq settles laterSound
  have sameSegment := settles.adds.segment_eq
  refine ⟨⟨behind, ?_, laterSound, by omega⟩, tracks.advance advances⟩
  dsimp only
  rw [after_eq]
  exact serves.settle settles

/-- Another scan keeps the invariant. -/
theorem Traversal.Invariant.other
    {before : List Entry}
    {start stop : Key}
    {calls : Nat}
    {state : Traversal}
    (invariant : Invariant before start stop (calls + 1) state)
    (otherStart otherStop : Key)
    (limit : Nat) :
    Invariant before start stop calls (state.step (.other otherStart otherStop limit)) := by
  obtain ⟨⟨writer, serves, sound, small⟩, tracks⟩ := invariant
  obtain ⟨_, behind, after_eq, settles⟩ := Scan.take_spec limit serves
    (Scan.sound_between otherStart otherStop writer state.disk)
  rw [Traversal.step]
  generalize (Scan.between otherStart otherStop).take limit state.log state.disk = result at *
  obtain ⟨yielded, later, after, grown⟩ := result
  dsimp only at after_eq settles
  have sameSegment := settles.adds.segment_eq
  refine ⟨⟨behind, ?_, sound.settle settles, by omega⟩, tracks⟩
  dsimp only
  rw [after_eq]
  exact serves.settle settles

/-- Every call keeps the invariant. -/
theorem Traversal.Invariant.step
    {before : List Entry}
    {start stop : Key}
    {calls : Nat}
    {state : Traversal}
    (invariant : Invariant before start stop (calls + 1) state)
    {call : Call}
    (counted : call.IsCounted) :
    Invariant before start stop calls (state.step call) := by
  cases call with
  | append entries => exact invariant.append counted
  | next => exact invariant.next
  | other otherStart otherStop limit => exact invariant.other otherStart otherStop limit

theorem Traversal.Invariant.run
    {before : List Entry}
    {start stop : Key}
    {calls : List Call}
    {state : Traversal}
    (invariant : Invariant before start stop calls.length state)
    (counted : ∀ call ∈ calls, call.IsCounted) :
    Invariant before start stop 0 (state.run calls) := by
  induction calls generalizing state with
  | nil => exact invariant
  | cons call rest inductionHypothesis =>
      obtain ⟨first, others⟩ := List.forall_mem_cons.mp counted
      exact inductionHypothesis (invariant.step first) others

/-- A scan of any opened log is a cursor after all calls.  Batches have less than
2^32 entries, and the calls do not use up the 64-bit numbers of segments. -/
theorem isCursor_run
    {settings : Settings}
    {disk opened : Disk}
    {log : Log}
    (wellFormed : disk.WellFormed)
    (accepted : openIn settings disk = .ok (log, opened))
    (start stop : Key)
    {calls : List Call}
    (counted : ∀ call ∈ calls, call.IsCounted)
    (numbered : (Segment.discover disk).getLast?.getD 0 + calls.length < 0x10000000000000000) :
    IsCursor (recovered disk) start stop
      ((Traversal.begin log opened start stop).run calls) := by
  obtain ⟨writer, opens⟩ := exists_opens_of_openIn_eq_ok wellFormed accepted
  have started : Traversal.Invariant (recovered disk) start stop calls.length
      (Traversal.begin log opened start stop) := by
    refine ⟨⟨writer, ?_, Scan.sound_between start stop writer opened, ?_⟩,
      tracks_between start stop⟩
    · rw [Traversal.stored, Traversal.begin, List.append_nil]
      exact opens.serves
    · rw [opens.segment_eq]
      exact numbered
  exact (started.run counted).isCursor

/-- A scan of a new log that is appended to on the way. -/
theorem isCursor_run_vacant :
    Disk.vacant.WellFormed ∧
      openIn Settings.standard Disk.vacant =
        .ok (openedLog Settings.standard Disk.vacant, (activated Disk.vacant).1) ∧
      IsCursor (recovered Disk.vacant) (Key.first 1) (Key.last 9)
        ((Traversal.begin (openedLog Settings.standard Disk.vacant) (activated Disk.vacant).1
          (Key.first 1) (Key.last 9)).run
            [.append [⟨Key.first 1, []⟩], .next, .append [⟨Key.first 2, []⟩]]) :=
  ⟨wellFormed_vacant, openIn_vacant Settings.standard,
    isCursor_run wellFormed_vacant (openIn_vacant Settings.standard) (Key.first 1) (Key.last 9)
      (by simp [Call.IsCounted, Bytes.cardinality]) (by decide +kernel)⟩

/-- A scan that is over stays over when an entry is appended ahead of its last
key, but a new scan from the successor of that key yields the entry. -/
theorem restarted_ne_of_over :
    let state :=
      (Traversal.begin (openedLog Settings.standard Disk.vacant) (activated Disk.vacant).1
        (Key.first 1) (Key.last 9)).run
          [.append [⟨Key.first 1, []⟩], .next, .next, .append [⟨Key.first 2, []⟩]]
    state.yields = [some (.ok ⟨Key.first 1, []⟩), none] ∧
      (state.scan.take 1 state.log state.disk).1 = [] ∧
      restarted (Key.first 1) (Key.last 9) state.scan.lastKey 1 state.log state.disk =
        [.ok ⟨Key.first 2, []⟩] := by
  decide +kernel

end Log
end EventRelay
