import EventRelay.Zstandard.Literals
import EventRelay.Zstandard.Sequences

/-!
# Blocks of a frame

A block stores bytes as they are, as one repeated byte, or as literals and
sequences.  A coded block may refer to the content before it and to the codes
and distances of the blocks before it.
-/

namespace EventRelay
namespace Zstandard

/-- The content of a frame so far, with what later blocks may refer to. -/
structure Content where
  /-- The bytes. -/
  bytes : Array UInt8
  /-- The latest prefix code of literals. -/
  literalCode : Option PrefixCode
  /-- The latest codes of sequences. -/
  sequenceCodes : SequenceCodes
  /-- The last three distances. -/
  distances : Distances

namespace Content

/-- The content of a frame without blocks. -/
def initial : Content where
  bytes := #[]
  literalCode := none
  sequenceCodes := .none
  distances := .initial

/-- Add bytes at the end. -/
def add (content : Content) (bytes : Bytes) : Content :=
  { content with bytes := content.bytes ++ bytes }

@[simp] theorem bytes_add (content : Content) (bytes : Bytes) :
    (content.add bytes).bytes.toList = content.bytes.toList ++ bytes := by
  simp [add]

/-- Add a byte a number of times. -/
def fill (byte : UInt8) : (count : Nat) → Array UInt8 → Array UInt8
  | 0, bytes => bytes
  | count + 1, bytes => fill byte count (bytes.push byte)

/-- Add one byte a number of times at the end. -/
def addRepeated (content : Content) (byte : UInt8) (count : Nat) : Content :=
  { content with bytes := fill byte count content.bytes }

/-- Copy bytes from a distance back to the end, one after the other, so that
bytes just copied may be copied again. -/
def copy (distance : Nat) : (count : Nat) → Array UInt8 → Array UInt8
  | 0, bytes => bytes
  | count + 1, bytes =>
      copy distance count (bytes.push (bytes.getD (bytes.size - distance) 0))

/-- Carry out sequences on the bytes so far, with room for a number of bytes.
The result also holds the literals and the room left over. -/
def execute :
    List Sequence → (free : Nat) → (literals : Bytes) → Array UInt8 →
      Except Fault (Nat × Bytes × Array UInt8)
  | [], free, literals, bytes => .ok (free, literals, bytes)
  | sequence :: rest, free, literals, bytes =>
      if free < sequence.literals + sequence.size then .error .outOfRoom
      else
        match Bytes.split? sequence.literals literals with
        | none => .error .corrupt
        | some (taken, literals) =>
            let bytes := bytes ++ taken
            if sequence.distance = 0 ∨ bytes.size < sequence.distance then .error .corrupt
            else
              execute rest (free - (sequence.literals + sequence.size)) literals
                (copy sequence.distance sequence.size bytes)

/-- The room for what a block of literals and sequences stands for.  A frame
that is taken at once keeps the literals behind that room if they fit there. -/
def roomBefore (room : Room) (literals : Nat) : Nat :=
  if room.atOnce ∧ room.limit + literals + 64 < room.free then room.limit + 32 else room.free

/-- Add a block of literals and sequences. -/
def addCoded (content : Content) (room : Room) (block : Bytes) : Except Fault Content := do
  let (literals, literalCode, rest) ← Literals.read room content.literalCode block
  let reading ← Sequences.read room content.sequenceCodes content.distances rest
  let (free, literals, bytes) ←
    execute reading.sequences (roomBefore room literals.length) literals content.bytes
  let distances ← orCorrupt reading.distances
  if free < literals.length then .error .outOfRoom
  return { bytes := bytes ++ literals, literalCode := literalCode,
           sequenceCodes := reading.codes, distances := distances }

end Content

/-- What precedes a block. -/
structure BlockHeader where
  /-- Whether the block is the last one of its frame. -/
  isLast : Bool
  /-- The number of the block's kind. -/
  kind : Nat
  /-- The number of bytes that are stored or repeated. -/
  size : Nat

/-- Read what precedes a block: three bytes, least significant first. -/
def BlockHeader.read? : Bytes → Option (BlockHeader × Bytes)
  | first :: second :: third :: rest =>
      let fields := first.toNat + 256 * second.toNat + 65536 * third.toNat
      some ({ isLast := fields % 2 = 1, kind := fields / 2 % 4, size := fields / 8 }, rest)
  | _ => none

theorem BlockHeader.length_of_read?_eq_some
    {header : BlockHeader}
    {bytes rest : Bytes}
    (read : BlockHeader.read? bytes = some (header, rest)) :
    rest.length < bytes.length := by
  unfold BlockHeader.read? at read
  split at read
  · cases read
    simp only [List.length_cons]
    omega
  · cases read

/-- Cut off a number of bytes that the data must still hold. -/
def takeStored (count : Nat) (bytes : Bytes) : Except Fault (Bytes × Bytes) :=
  match Bytes.split? count bytes with
  | some parts => .ok parts
  | none => .error .cutOff

/-- The number of bytes that are stored for a block. -/
def BlockHeader.stored (header : BlockHeader) : Nat :=
  if header.kind = 1 then 1 else header.size

/-- Add the stored bytes of a block to the content.  The bytes may be cut off;
then those that are there have to fit. -/
def BlockHeader.add (header : BlockHeader) (room : Room) (content : Content) (stored : Bytes) :
    Except Fault Content :=
  if header.kind = 0 then
    if room.free < stored.length then .error .outOfRoom else .ok (content.add stored)
  else if stored.length < header.stored then .error .cutOff
  else if header.kind = 1 then
    if room.free < header.size then .error .outOfRoom
    else .ok (content.addRepeated (stored.headD 0) header.size)
  else if header.stored = 0 ∧ !room.atOnce then .ok content
  else content.addCoded room stored

/-- Add the block after its header to the content.  A frame that is taken at
once bounds what coded blocks are stored in; otherwise all blocks are bounded,
both what they are stored in and what they stand for. -/
def BlockHeader.addStored
    (header : BlockHeader)
    (room : Room)
    (content : Content)
    (bytes : Bytes) :
    Except Fault Content := do
  require (header.kind ≠ 3)
  if room.limit < header.stored then
    if !room.atOnce then .error .corrupt
    else if header.kind = 2 then .error .wrongSize
  let stored := bytes.take header.stored
  let added ← header.add room content stored
  if stored.length < header.stored then .error .cutOff
  require (room.atOnce ∨ added.bytes.size ≤ room.start + room.limit)
  return added

/-- Read the block after its header.  The result holds the content with the
block and the bytes after the block. -/
def BlockHeader.readBlock
    (header : BlockHeader)
    (room : Room)
    (content : Content)
    (bytes : Bytes) :
    Except Fault (Content × Bytes) :=
  match header.addStored room content bytes with
  | .ok added => .ok (added, bytes.drop header.stored)
  | .error fault => .error fault

theorem BlockHeader.length_of_readBlock_eq_ok
    {header : BlockHeader}
    {room : Room}
    {content added : Content}
    {bytes rest : Bytes}
    (read : header.readBlock room content bytes = .ok (added, rest)) :
    rest.length ≤ bytes.length := by
  unfold readBlock at read
  split at read
  · cases read
    simp
  · cases read

/-! ## The blocks of a frame -/

/-- How the blocks of a frame are taken in. -/
structure Intake where
  /-- The greatest number of bytes that a block stands for. -/
  limit : Nat
  /-- Whether the frame is taken at once. -/
  atOnce : Bool
  /-- The size of the buffer for the content. -/
  size : Nat
  /-- Whether the buffer is filled again from its start when a block may not fit
  into its rest. -/
  wraps : Bool

/-- The room for the next block after a number of bytes, when the buffer is
filled up to some place. -/
def Intake.room (intake : Intake) (filled start : Nat) : Room where
  start := start
  limit := intake.limit
  free := intake.size - filled
  atOnce := intake.atOnce

/-- The place up to which the buffer is filled after a number of bytes. -/
def Intake.fill (intake : Intake) (filled count : Nat) : Nat :=
  if intake.wraps ∧ 0 < count ∧ intake.size < filled + count + intake.limit then 0
  else filled + count

/-- Read the blocks of a frame up to the last one.  The result also tells
whether bytes are stored for the last block. -/
def readBlocks (intake : Intake) (filled : Nat) (content : Content) (bytes : Bytes) :
    Except Fault (Content × Bool × Bytes) :=
  match _parted : BlockHeader.read? bytes with
  | none => .error .cutOff
  | some (header, afterHeader) =>
      let room := intake.room filled content.bytes.size
      match _read : header.readBlock room content afterHeader with
      | .error fault => .error fault
      | .ok (content, rest) =>
          if header.isLast then .ok (content, header.stored ≠ 0, rest)
          else
            readBlocks intake (intake.fill filled (content.bytes.size - room.start)) content rest
  termination_by bytes.length
  decreasing_by
    have shorter := BlockHeader.length_of_read?_eq_some _parted
    have shorterStill := BlockHeader.length_of_readBlock_eq_ok _read
    omega

end Zstandard
end EventRelay
