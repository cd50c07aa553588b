import EventRelay.Zstandard.Block
import EventRelay.Zstandard.ContentHash

/-!
# Compressed frames

Compressed data is a sequence of frames.  A frame starts with a mark.  After the
mark of a compressed frame come what precedes its blocks, the blocks, and
perhaps a hash of the content; after the mark of a skipped frame come a size
and that many bytes without meaning.
-/

namespace EventRelay
namespace Zstandard

/-- The mark of a compressed frame. -/
def mark : Bytes := [0x28, 0xB5, 0x2F, 0xFD]

/-- The last three bytes of the mark of a skipped frame. -/
def skippedTail : Bytes := [0x2A, 0x4D, 0x18]

/-- The last three bytes of the mark of a frame of any version. -/
def markTail : Bytes := mark.drop 1

/-- What becomes of a frame of an old version, by the first byte of its mark.
Frames of the first versions are refused; those of later ones are not read
either and count as cut off. -/
def oldFault? (first : UInt8) : Option Fault :=
  if first = 0x1E ∨ first = 0x22 ∨ first = 0x23 then some .oldVersion
  else if 0x24 ≤ first ∧ first ≤ 0x27 then some .cutOff
  else none

/-- Whether a byte may start the mark of a skipped frame. -/
def startsSkipped (byte : UInt8) : Bool :=
  byte.toNat / 16 = 5

/-- Whether a mark, of which the end may be missing, is that of a skipped
frame. -/
def isSkippedMark : Bytes → Bool
  | [] => false
  | first :: rest => startsSkipped first && rest == skippedTail.take rest.length

/-- The greatest window for which memory is set aside. -/
def maxWindow : Nat := 0x8000001

/-- The greatest exponent in the description of a window. -/
def maxWindowExponent : Nat := 21

/-- The number of bytes of content that are given out at a time. -/
def portion : Nat := 8192

/-- What precedes the blocks of a frame. -/
structure FrameHeader where
  /-- The size of the window into which blocks may refer. -/
  window : Nat
  /-- The size of the content, where it is given. -/
  contentSize : Option Nat
  /-- Whether a hash of the content follows the blocks. -/
  hashed : Bool
  /-- The number of the dictionary needed; zero stands for none. -/
  dictionary : Nat

namespace FrameHeader

/-- The size of a window from its description: an exponent and eighths. -/
def windowOf (description : Nat) : Nat :=
  let base := 1 <<< (10 + description / 8)
  base + base / 8 * (description % 8)

/-- The number of bytes of the dictionary's number. -/
def dictionaryWidth (description : Nat) : Nat :=
  match description % 4 with
  | 0 => 0
  | 1 => 1
  | 2 => 2
  | _ => 4

/-- The number of bytes of the content's size. -/
def sizeWidth (description : Nat) : Nat :=
  match description / 64 with
  | 0 => if description / 32 % 2 = 1 then 1 else 0
  | 1 => 2
  | 2 => 4
  | _ => 8

/-- The size that stands for none. -/
def unknownSize : Nat := 0xFFFFFFFFFFFFFFFF

/-- Read what precedes the blocks, after the mark. -/
def read (bytes : Bytes) : Except Fault (FrameHeader × Bytes) := do
  let (first, rest) ← takeStored 1 bytes
  let description := Bytes.toNatLE first
  let single := description / 32 % 2 = 1
  let windowWidth := if single then 0 else 1
  let width := sizeWidth description
  let (fields, rest) ←
    takeStored (windowWidth + dictionaryWidth description + width) rest
  if description / 8 % 2 = 1 then .error .unsupported
  if windowWidth = 1 ∧ maxWindowExponent < Bytes.toNatLE (fields.take 1) / 8 then
    .error .windowTooLarge
  let afterWindow := fields.drop windowWidth
  let size := Bytes.toNatLE (afterWindow.drop (dictionaryWidth description))
  let size := if width = 2 then size + 256 else size
  let contentSize := if width = 0 ∨ size = unknownSize then none else some size
  let window := if single then size else windowOf (Bytes.toNatLE (fields.take windowWidth))
  return ({
    window := window
    contentSize := contentSize
    hashed := description / 4 % 2 = 1
    dictionary := Bytes.toNatLE (afterWindow.take (dictionaryWidth description)) }, rest)

/-- The greatest number of bytes that a block of the frame stands for. -/
def blockLimit (header : FrameHeader) : Nat :=
  min header.window maxBlockSize

/-- Check the hash that follows the blocks, where there is one. -/
def checkHash (header : FrameHeader) (content : Content) (bytes : Bytes) :
    Except Fault Bytes := do
  if header.hashed then
    let (stored, rest) ← takeStored 4 bytes
    let hash := ContentHash.hash content.bytes.toList
    if Bytes.toNatLE stored = hash.toNat % 0x100000000 then return rest
    else .error .wrongHash
  else return bytes

end FrameHeader

/-- Whether the data holds all blocks of a frame and what follows them. -/
def holdsBlocks (hashed : Bool) (bytes : Bytes) : Bool :=
  match _parted : BlockHeader.read? bytes with
  | none => false
  | some (header, afterHeader) =>
      if header.kind = 3 then false
      else
        match _taken : Bytes.split? header.stored afterHeader with
        | none => false
        | some (_, rest) =>
            if header.isLast then !hashed || 4 ≤ rest.length
            else holdsBlocks hashed rest
  termination_by bytes.length
  decreasing_by
    obtain ⟨_, rfl⟩ := Bytes.split?_eq_some_iff.mp _taken
    have shorter := BlockHeader.length_of_read?_eq_some _parted
    simp only [List.length_append] at shorter
    omega

/-- Whether a frame is taken at once: its content has a size that fits into the
room for it, and the data holds the whole frame. -/
def FrameHeader.isTakenAtOnce (header : FrameHeader) (room : Nat) (bytes : Bytes) : Bool :=
  header.contentSize.any (· ≤ room) && holdsBlocks header.hashed bytes

/-- The size of the buffer for a frame that is not taken at once: a window and
two blocks, with some bytes more, but no more than the content. -/
def FrameHeader.bufferSize (header : FrameHeader) : Nat :=
  let size := max header.window 1024 + 2 * header.blockLimit + 64
  min size (header.contentSize.getD size)

/-- How the blocks of a frame are taken in, with room for a number of bytes if
it is taken at once. -/
def FrameHeader.intake (header : FrameHeader) (room : Nat) (atOnce : Bool) : Intake where
  limit := header.blockLimit
  atOnce := atOnce
  size := if atOnce then room else header.bufferSize
  wraps := !atOnce && header.contentSize.all (header.bufferSize < ·)

/-- Read a frame after its mark.  The result holds the frame's content and the
bytes after the frame.  Memory is set aside only for a frame that is not taken
at once; the size of such a frame is not checked if its last block is empty. -/
def readFrame (room : Nat) (bytes : Bytes) : Except Fault (Array UInt8 × Bytes) := do
  let (header, rest) ← FrameHeader.read bytes
  if header.dictionary ≠ 0 then .error .dictionaryMissing
  let atOnce := header.isTakenAtOnce room rest
  if !atOnce ∧ maxWindow < header.window then .error .windowTooLarge
  let (content, checksSize, rest) ← readBlocks (header.intake room atOnce) 0 .initial rest
  require (!(atOnce || checksSize) ||
    header.contentSize.all fun size => size == content.bytes.size)
  let rest ← header.checkHash content rest
  return (content.bytes, rest)

/-- Read a skipped frame after its mark. -/
def skipFrame (bytes : Bytes) : Except Fault (Array UInt8 × Bytes) := do
  let (size, rest) ← takeStored 4 bytes
  let (_, rest) ← takeStored (Bytes.toNatLE size) rest
  return (#[], rest)

/-- Read the next frame: its content and the bytes after it.  Data too short
for a mark is cut off if a mark may start like it. -/
def readNext (room : Nat) (bytes : Bytes) : Except Fault (Array UInt8 × Bytes) :=
  let front := bytes.take 4
  let rest := bytes.drop 4
  if front.length < 4 then
    if front == mark.take front.length || isSkippedMark front then .error .cutOff
    else .error .unknownMark
  else if front = mark then readFrame room rest
  else if isSkippedMark front then skipFrame rest
  else if front.drop 1 = markTail then
    .error ((oldFault? (front.headD 0)).getD .unknownMark)
  else .error .unknownMark

/-- The room for the content of a frame that starts after a number of bytes of
content. -/
def roomAfter (size : Nat) : Nat :=
  if size < portion then portion - size else portion

/-- Read frames up to the end of the data, and add their contents.  Every frame
has a mark of four bytes, so there are fewer frames than bytes, which the fuel
must exceed. -/
def readFrames : (fuel : Nat) → (content : Array UInt8) → Bytes → Except Fault (Array UInt8)
  | 0, _, _ => .error .corrupt
  | fuel + 1, content, bytes =>
      if bytes.isEmpty then .ok content
      else
        match readNext (roomAfter content.size) bytes with
        | .error fault => .error fault
        | .ok (added, rest) =>
            readFrames fuel (if content.isEmpty then added else content ++ added) rest

/-- Read compressed data, which holds at least one frame. -/
def read (bytes : Bytes) : Except Fault (Array UInt8) :=
  if bytes.isEmpty then .error .cutOff else readFrames (bytes.length + 1) #[] bytes

/-- The content of compressed data. -/
def decode (bytes : Bytes) : Except Fault Bytes :=
  (read bytes).map Array.toList

theorem decode_of_read_eq_ok
    {bytes : Bytes}
    {content : Array UInt8}
    (done : read bytes = .ok content) :
    decode bytes = .ok content.toList := by
  simp only [decode, done, Except.map]

end Zstandard
end EventRelay
