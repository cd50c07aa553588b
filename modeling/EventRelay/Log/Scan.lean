import EventRelay.Log.Basic

/-!
# Scanning the log

A scan yields the entries from a key on, in ascending key order, up to the last
one whose time is not past the time of an end key.  It looks at the index anew
for every entry, so it sees what is written ahead of it.  It keeps the frame it
read last and the file it has open.
-/

namespace EventRelay
namespace Log

/-- The state of a scan. -/
structure Scan where
  /-- The least key that may be yielded next, unless the scan is over. -/
  nextFrom : Option Key
  /-- The greatest time of a key that is yielded. -/
  endTime : UInt64
  /-- The key yielded last. -/
  lastKey : Option Key
  /-- The segment whose file is open, and the file. -/
  source : Option (Nat × Nat)
  /-- The frame read last, and its entries. -/
  cached : Option (Segment.Position × List Entry)
deriving Repr

namespace Scan

/-- A scan from a key to the time of another key. -/
def between (start stop : Key) : Scan where
  nextFrom := some start
  endTime := stop.timestamp
  lastKey := none
  source := none
  cached := none

/-- The file of a segment: the one that is open, or the one of the segment's
name. -/
def openSource (scan : Scan) (disk : Disk) (segment : Nat) : Except LogError Nat :=
  match scan.source with
  | some (opened, file) =>
      if opened = segment then .ok file
      else
        match disk.number? (Segment.name segment) with
        | some file => .ok file
        | none => .error (.disk .notFound)
  | none =>
      match disk.number? (Segment.name segment) with
      | some file => .ok file
      | none => .error (.disk .notFound)

/-- The entries of the frame at a position: those kept, or those read. -/
def frameEntries (scan : Scan) (disk : Disk) (position : Segment.Position) :
    Except LogError (List Entry × Scan) :=
  match scan.cached with
  | some (kept, entries) =>
      if kept = position then .ok (entries, scan) else readEntries
  | none => readEntries
where
  /-- Read the frame from its file. -/
  readEntries : Except LogError (List Entry × Scan) :=
    match scan.openSource disk position.segment with
    | .error error => .error error
    | .ok file =>
        match Frame.readAt (disk.content file) position.offset with
        | .error error => .error (.ofFrame position error)
        | .ok entries =>
            .ok (entries, { scan with
              source := some (position.segment, file)
              cached := some (position, entries) })

/-- The value stored under a key at a location. -/
def fetch (scan : Scan) (disk : Disk) (key : Key) (location : Location) :
    Except LogError (Bytes × Scan) :=
  match scan.frameEntries disk location.frame with
  | .error error => .error error
  | .ok (entries, scan) =>
      match entries[location.slot]? with
      | some entry =>
          if entry.key = key then .ok (entry.value, scan) else mismatch
      | none => mismatch
where
  /-- The frame does not hold the key in its place. -/
  mismatch : Except LogError (Bytes × Scan) :=
    .error (.corruption location.frame.segment location.frame.offset
      (.mismatch key location.slot))

/-- The scan when it is over. -/
def ended (scan : Scan) : Scan :=
  { scan with nextFrom := none }

end Scan

/-- The first place from a key on, made readable. -/
def locateFrom (log : Log) (disk : Disk) (least : Key) :
    Except LogError (Option (Key × Location) × Log × Disk) :=
  match log.writer with
  | none => .error .closed
  | some writer =>
      match log.index.firstFrom? least with
      | none => .ok (none, log, disk)
      | some (key, location) =>
          let (writer, disk) := writer.ensureReadable disk location.frame
          .ok (some (key, location), { log with writer := some writer }, disk)

/-- What a step of a scan yields: nothing when the scan is over, else an entry
or an error, which ends the scan. -/
abbrev Scan.Yield := Option (Except LogError Entry)

/-- Carry out one step of a scan. -/
def Scan.next (scan : Scan) (log : Log) (disk : Disk) : Scan.Yield × Scan × Log × Disk :=
  match scan.nextFrom with
  | none => (none, scan, log, disk)
  | some least =>
      match log.locateFrom disk least with
      | .error error => (some (.error error), scan.ended, log, disk)
      | .ok (none, log, disk) => (none, scan.ended, log, disk)
      | .ok (some (key, location), log, disk) =>
          if scan.endTime < key.timestamp then (none, scan.ended, log, disk)
          else
            match scan.fetch disk key location with
            | .error error => (some (.error error), scan.ended, log, disk)
            | .ok (value, scan) =>
                (some (.ok ⟨key, value⟩),
                  { scan with nextFrom := key.successor, lastKey := some key }, log, disk)

/-- Carry out at most a number of steps of a scan, up to its end. -/
def Scan.take : (limit : Nat) → Scan → Log → Disk →
    List (Except LogError Entry) × Scan × Log × Disk
  | 0, scan, log, disk => ([], scan, log, disk)
  | limit + 1, scan, log, disk =>
      match scan.next log disk with
      | (none, scan, log, disk) => ([], scan, log, disk)
      | (some yielded, scan, log, disk) =>
          let (others, scan, log, disk) := Scan.take limit scan log disk
          (yielded :: others, scan, log, disk)

end Log
end EventRelay
