import EventRelay.Frame.Basic
import EventRelay.Segment.Name

/-!
# Writing segments

Frames are added to the active segment through a buffer of 8192 bytes.  A frame
that does not fit the free part of the buffer first sends the buffer to the
file, and a frame as large as the buffer goes straight to the file.  A writer
sends its buffer on, and makes what it sent durable, as often as its policies
say.  A segment that has reached its greatest size is left for the next one.
-/

namespace EventRelay
namespace Segment

/-- Where a frame starts. -/
structure Position where
  /-- The segment. -/
  segment : Nat
  /-- The offset in the segment's file. -/
  offset : Nat
deriving DecidableEq, Repr

/-- When a writer sends its buffer to the file. -/
inductive FlushPolicy where
  /-- After every frame. -/
  | everyWrite
  /-- After a number of frames. -/
  | every (count : Nat)
deriving DecidableEq, Repr

/-- When a writer makes what it sent durable. -/
inductive SyncPolicy where
  /-- After every frame. -/
  | everyWrite
  /-- After a number of frames. -/
  | every (count : Nat)
  /-- Only when a segment is left. -/
  | onRotation
deriving DecidableEq, Repr

/-- How a writer works. -/
structure WriterSettings where
  /-- The size at which a segment is left for the next one. -/
  maxSegmentSize : Nat
  /-- When the buffer is sent to the file. -/
  flush : FlushPolicy
  /-- When what was sent is made durable. -/
  sync : SyncPolicy
deriving DecidableEq, Repr

/-- The size of the buffer in front of a file. -/
def bufferSize : Nat := 8192

/-- A writer of segments. -/
structure Writer where
  /-- How the writer works. -/
  settings : WriterSettings
  /-- The file of the active segment. -/
  file : Nat
  /-- The bytes that are not yet sent to the file. -/
  buffer : Bytes
  /-- The active segment. -/
  segment : Nat
  /-- The size of the active segment, with the buffer. -/
  size : Nat
  /-- The size of the active segment when the buffer was last sent on. -/
  flushedSize : Nat
  /-- The number of frames since the buffer was last sent on. -/
  unflushed : Nat
  /-- The number of frames since what was sent was last made durable. -/
  unsynced : Nat
deriving Repr

namespace Writer

/-- Open a segment for writing at its end, with its directory. -/
def openAt (settings : WriterSettings) (segment : Nat) (disk : Disk) :
    Except FrameError (Writer × Disk) :=
  match disk.makeDirectory with
  | .error fault => .error (.disk fault)
  | .ok disk =>
      let (disk, file) := disk.openOrCreate (name segment)
      .ok ({
        settings := settings
        file := file
        buffer := []
        segment := segment
        size := disk.size file
        flushedSize := disk.size file
        unflushed := 0
        unsynced := 0 }, disk)

/-- Send the buffer to the file. -/
def spill (writer : Writer) (disk : Disk) : Writer × Disk :=
  ({ writer with buffer := [] }, disk.append writer.file writer.buffer)

/-- Make everything written readable. -/
def flush (writer : Writer) (disk : Disk) : Writer × Disk :=
  let (writer, disk) := writer.spill disk
  ({ writer with flushedSize := writer.size, unflushed := 0 }, disk)

/-- Make everything written readable and durable. -/
def sync (writer : Writer) (disk : Disk) : Writer × Disk :=
  let (writer, disk) := writer.flush disk
  ({ writer with unsynced := 0 }, disk)

/-- Put bytes into the buffer, or past it into the file. -/
def put (writer : Writer) (disk : Disk) (bytes : Bytes) : Writer × Disk :=
  let (writer, disk) :=
    if bufferSize < writer.buffer.length + bytes.length then writer.spill disk
    else (writer, disk)
  if bufferSize ≤ bytes.length then (writer, disk.append writer.file bytes)
  else ({ writer with buffer := writer.buffer ++ bytes }, disk)

/-- Leave the active segment for the next one.  Segments have numbers below `2 ^ 64`, so
the last of these numbers has no next one. -/
def rotate (writer : Writer) (disk : Disk) : Writer × Disk :=
  let (writer, disk) := writer.sync disk
  let segment := writer.segment + 1
  let (disk, file) := disk.openOrCreate (name segment)
  ({ writer with
      file := file
      segment := segment
      size := 0
      flushedSize := 0 }, disk)

/-- Whether the active segment has reached its greatest size. -/
def isFull (writer : Writer) : Bool :=
  decide (0 < writer.size ∧ writer.settings.maxSegmentSize ≤ writer.size)

/-- Whether the buffer is to be sent on. -/
def mustFlush (writer : Writer) : Bool :=
  match writer.settings.flush with
  | .everyWrite => true
  | .every count => decide (count ≤ writer.unflushed)

/-- Whether what was sent is to be made durable. -/
def mustSync (writer : Writer) : Bool :=
  match writer.settings.sync with
  | .everyWrite => true
  | .every count => decide (count ≤ writer.unsynced)
  | .onRotation => false

/-- Add a frame at the end of the active segment, which is first left for the
next one if it is full.  The result holds where the frame starts. -/
def write (writer : Writer) (disk : Disk) (frame : Bytes) : Position × Writer × Disk :=
  let (writer, disk) := if writer.isFull then writer.rotate disk else (writer, disk)
  let position : Position := ⟨writer.segment, writer.size⟩
  let (writer, disk) := writer.put disk frame
  let writer := { writer with
    size := writer.size + frame.length
    unflushed := writer.unflushed + 1
    unsynced := writer.unsynced + 1 }
  let (writer, disk) := if writer.mustFlush then writer.flush disk else (writer, disk)
  let (writer, disk) := if writer.mustSync then writer.sync disk else (writer, disk)
  (position, writer, disk)

/-- Make the frame at a position readable. -/
def ensureReadable (writer : Writer) (disk : Disk) (position : Position) : Writer × Disk :=
  if position.segment = writer.segment ∧ writer.flushedSize ≤ position.offset then
    writer.flush disk
  else (writer, disk)

/-- Give up the writer, sending its buffer to the file. -/
def close (writer : Writer) (disk : Disk) : Disk :=
  (writer.spill disk).2

end Writer
end Segment
end EventRelay
