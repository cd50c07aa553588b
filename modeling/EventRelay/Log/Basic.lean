import EventRelay.Key.Map
import EventRelay.Segment.Reader

/-!
# The durable log

The log stores entries in the frames of segments and keeps an index from each
key to the place of its latest entry.  Opening a log reads all segments to
rebuild the index, and cuts what is damaged off the end of the latest segment.
-/

namespace EventRelay

/-- What is wrong with a stored entry. -/
inductive Corruption where
  /-- Its frame cannot be written or read. -/
  | frame (error : FrameError)
  /-- Its frame holds something else in its place. -/
  | mismatch (key : Key) (slot : Nat)
deriving DecidableEq, Repr

/-- Why the log refuses an operation. -/
inductive LogError where
  /-- A file operation fails. -/
  | disk (fault : DiskFault)
  /-- The log is closed. -/
  | closed
  /-- A stored entry is damaged. -/
  | corruption (segment offset : Nat) (cause : Corruption)
  /-- A frame cannot be compressed or restored. -/
  | compression (fault : Zstandard.Fault)
  /-- A value is too large. -/
  | entryTooLarge (size : Nat)
deriving DecidableEq, Repr

/-- The text of what is wrong. -/
def Corruption.message : Corruption → String
  | .frame error => error.message
  | .mismatch key slot =>
      "index entry " ++ key.text ++ " does not match frame slot " ++ toString slot

namespace Log

/-- The greatest size of a value: 16 MiB. -/
def maxValueSize : Nat := 16777216

end Log

/-- The name of the kind of error. -/
def LogError.kind : LogError → String
  | .disk _ => "IoFailure"
  | .closed => "Closed"
  | .corruption _ _ _ => "Corruption"
  | .compression _ => "Compression"
  | .entryTooLarge _ => "EntryTooLarge"

/-- The text of the error. -/
def LogError.message : LogError → String
  | .disk fault => "IO failure: " ++ fault.message
  | .closed => "Log is closed"
  | .corruption segment offset cause =>
      "Corruption in segment " ++ toString segment ++ " at byte offset " ++ toString offset ++
        ": " ++ cause.message
  | .compression fault => "Compression error: " ++ fault.message
  | .entryTooLarge size =>
      "Entry too large: " ++ toString size ++ " bytes, maximum is " ++ toString Log.maxValueSize

/-- The error of the log for the error of a frame at a position. -/
def LogError.ofFrame (position : Segment.Position) : FrameError → LogError
  | .disk fault => .disk fault
  | .compression fault => .compression fault
  | error => .corruption position.segment position.offset (.frame error)

namespace Log

/-- How a log works. -/
structure Settings where
  /-- The size at which a segment is left for the next one. -/
  maxSegmentSize : Nat
  /-- The number of frames after which the buffer is sent on. -/
  flushEvery : Nat
  /-- Whether every frame is sent on and made durable at once. -/
  syncWrites : Bool
  /-- When bodies are compressed. -/
  compression : Frame.Compression
deriving DecidableEq, Repr

/-- Segments of 256 MiB, sent on every 64 frames. -/
def Settings.standard : Settings where
  maxSegmentSize := 268435456
  flushEvery := 64
  syncWrites := false
  compression := .standard

/-- How the log's writer works. -/
def Settings.writer (settings : Settings) : Segment.WriterSettings where
  maxSegmentSize := settings.maxSegmentSize
  flush := if settings.syncWrites then .everyWrite else .every (max settings.flushEvery 1)
  sync := if settings.syncWrites then .everyWrite else .onRotation

/-- Where an entry is stored. -/
structure Location where
  /-- Where its frame starts. -/
  frame : Segment.Position
  /-- Its index in the frame. -/
  slot : Nat
deriving DecidableEq, Repr

/-- The place of the latest entry of every key. -/
abbrev Index := KeyMap Location

/-- Enter the entries of a frame into the index, the first of which has the
given slot. -/
def Index.addFrom (frame : Segment.Position) : (slot : Nat) → List Entry → Index → Index
  | _, [], index => index
  | slot, entry :: rest, index =>
      addFrom frame (slot + 1) rest (KeyMap.insert entry.key ⟨frame, slot⟩ index)

/-- Enter the entries of a frame into the index. -/
def Index.add (index : Index) (frame : Segment.Position) (entries : List Entry) : Index :=
  addFrom frame 0 entries index

end Log

/-- An open or closed log. -/
structure Log where
  /-- How the log works. -/
  settings : Log.Settings
  /-- The writer of the active segment, unless the log is closed. -/
  writer : Option Segment.Writer
  /-- The place of the latest entry of every key. -/
  index : Log.Index
  /-- The number of frames written since the log was opened. -/
  framesWritten : Nat
  /-- The size of these frames. -/
  bytesWritten : Nat
  /-- The number of segments found damaged when the log was opened. -/
  truncatedTails : Nat
deriving Repr

namespace Log

/-! ## Opening -/

/-- What is recovered from segments. -/
structure Recovery where
  /-- The index. -/
  index : Index
  /-- The number of damaged segments. -/
  truncatedTails : Nat

/-- Nothing is recovered yet. -/
def Recovery.initial : Recovery where
  index := []
  truncatedTails := 0

/-- Enter the frames of a segment into the index. -/
def Index.addFrames (index : Index) (segment : Nat) (frames : List Segment.ReadFrame) : Index :=
  frames.foldl (fun index frame => Index.add index ⟨segment, frame.offset⟩ frame.entries) index

/-- Recover a segment.  If it is damaged and is the latest one, its file is cut
to its valid frames. -/
def Recovery.addSegment (recovery : Recovery) (segment : Nat) (isLast : Bool) (disk : Disk) :
    Except LogError (Recovery × Disk) :=
  match disk.number? (Segment.name segment) with
  | none => .error (.disk .notFound)
  | some file =>
      let (frames, stopped) := (Segment.Reader.ofBytes (disk.content file)).readAll
      let index := Index.addFrames recovery.index segment frames
      if stopped.corruption.isSome then
        let disk := if isLast then disk.resize file stopped.offset else disk
        .ok (⟨index, recovery.truncatedTails + 1⟩, disk)
      else .ok (⟨index, recovery.truncatedTails⟩, disk)

/-- Recover segments in order; the last of them is the latest one. -/
def Recovery.addSegments (recovery : Recovery) :
    (segments : List Nat) → Disk → Except LogError (Recovery × Disk)
  | [], disk => .ok (recovery, disk)
  | segment :: rest, disk =>
      match recovery.addSegment segment rest.isEmpty disk with
      | .error error => .error error
      | .ok (recovery, disk) => recovery.addSegments rest disk

/-- Open the log of a directory, which is made if it is not there. -/
def openIn (settings : Settings) (disk : Disk) : Except LogError (Log × Disk) :=
  match disk.makeDirectory with
  | .error fault => .error (.disk fault)
  | .ok disk =>
      let segments := Segment.discover disk
      match Recovery.initial.addSegments segments disk with
      | .error error => .error error
      | .ok (recovery, disk) =>
          let active := segments.getLast?.getD 0
          match Segment.Writer.openAt settings.writer active disk with
          | .error error => .error (.ofFrame ⟨active, 0⟩ error)
          | .ok (writer, disk) =>
              .ok ({
                settings := settings
                writer := some writer
                index := recovery.index
                framesWritten := 0
                bytesWritten := 0
                truncatedTails := recovery.truncatedTails }, disk)

/-! ## Writing -/

/-- The first value that is too large. -/
def oversized? (entries : List Entry) : Option Entry :=
  entries.find? fun entry => decide (maxValueSize < entry.value.length)

/-- Store entries as one frame: all of them or none survive a cut.  Nothing
changes when the entries are refused. -/
def append (log : Log) (disk : Disk) (entries : List Entry) : Except LogError (Log × Disk) :=
  if entries.isEmpty then .ok (log, disk)
  else
    match oversized? entries with
    | some entry => .error (.entryTooLarge entry.value.length)
    | none =>
        match Frame.encode entries log.settings.compression with
        | .error error => .error (.ofFrame ⟨0, 0⟩ error)
        | .ok frame =>
            match log.writer with
            | none => .error .closed
            | some writer =>
                let (position, writer, disk) := writer.write disk frame
                .ok ({ log with
                  writer := some writer
                  index := Index.add log.index position entries
                  framesWritten := log.framesWritten + 1
                  bytesWritten := log.bytesWritten + frame.length }, disk)

/-- Close the log, making everything written durable.  A closed log stays
closed. -/
def close (log : Log) (disk : Disk) : Log × Disk :=
  match log.writer with
  | none => (log, disk)
  | some writer =>
      let (writer, disk) := writer.sync disk
      ({ log with writer := none }, writer.close disk)

/-! ## Looking at the log -/

/-- The number of keys. -/
def size (log : Log) : Nat :=
  log.index.length

/-- The greatest key. -/
def lastKey? (log : Log) : Option Key :=
  log.index.lastKey?

/-- Figures about a log. -/
structure Stats where
  /-- The number of keys. -/
  entries : Nat
  /-- The number of segments in the directory. -/
  segments : Nat
  /-- The segment that is written; zero when the log is closed. -/
  activeSegment : Nat
  /-- The size of the segments' files. -/
  bytesOnDisk : Nat
  /-- The number of frames written since the log was opened. -/
  framesWritten : Nat
  /-- The size of these frames. -/
  bytesWritten : Nat
  /-- The number of segments found damaged when the log was opened. -/
  truncatedTails : Nat
deriving DecidableEq, Repr

/-- The size of the files of segments. -/
def sizeOfSegments (disk : Disk) : List Nat → Except LogError Nat
  | [] => .ok 0
  | segment :: rest =>
      match disk.number? (Segment.name segment) with
      | none => .error (.disk .notFound)
      | some file =>
          match sizeOfSegments disk rest with
          | .error error => .error error
          | .ok size => .ok (disk.size file + size)

/-- The figures about a log. -/
def stats (log : Log) (disk : Disk) : Except LogError Stats := do
  let segments := Segment.discover disk
  let bytesOnDisk ← sizeOfSegments disk segments
  return {
    entries := log.size
    segments := segments.length
    activeSegment := (log.writer.map Segment.Writer.segment).getD 0
    bytesOnDisk := bytesOnDisk
    framesWritten := log.framesWritten
    bytesWritten := log.bytesWritten
    truncatedTails := log.truncatedTails }

end Log
end EventRelay
