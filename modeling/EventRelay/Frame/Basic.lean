import EventRelay.Checksum
import EventRelay.Disk.Fault
import EventRelay.Key.Basic
import EventRelay.Text.Hex
import EventRelay.Zstandard.Encoder

/-!
# Frames of the log

Entries are stored in frames.  A frame is the size of its body, flags, the
checksum of its body, and the body.  The body is the number of its entries and
then each entry's key, the size of its value, and the value; a flag says that
the body is compressed.  Entries written together share a frame, so that a cut
keeps all of them or none.
-/

namespace EventRelay

/-- A key and the value stored under it. -/
structure Entry where
  /-- The key. -/
  key : Key
  /-- The value. -/
  value : Bytes
deriving DecidableEq, Repr

/-- How a frame's body breaks the rules. -/
inductive BodyFault where
  /-- There is no number of entries. -/
  | noCount
  /-- The body ends within what precedes an entry's value. -/
  | entryHead (index size : Nat)
  /-- The body ends within an entry's value. -/
  | entryValue (index size remaining : Nat)
  /-- The body goes on after its last entry. -/
  | trailing (size count : Nat)
deriving DecidableEq, Repr

/-- Why a frame cannot be written or read. -/
inductive FrameError where
  /-- A file operation fails. -/
  | disk (fault : DiskFault)
  /-- The data ends within the frame. -/
  | truncated (needed available : Nat)
  /-- The body is said to be larger than any body. -/
  | oversized (size : Nat)
  /-- The stored checksum is not that of the body. -/
  | checksumMismatch (stored computed : UInt32)
  /-- The compressed body cannot be read. -/
  | compression (fault : Zstandard.Fault)
  /-- The body breaks the rules. -/
  | malformed (fault : BodyFault)
deriving DecidableEq, Repr

/-- The text of a body's fault. -/
def BodyFault.message : BodyFault → String
  | .noCount => "missing entry count"
  | .entryHead index size =>
      "entry " ++ toString index ++ " header exceeds body (" ++ toString size ++ " bytes)"
  | .entryValue index size remaining =>
      "entry " ++ toString index ++ " value_len " ++ toString size ++
        " exceeds remaining body (" ++ toString remaining ++ " bytes)"
  | .trailing size count =>
      toString size ++ " trailing bytes after " ++ toString count ++ " entries"

/-- The name of the kind of error. -/
def FrameError.kind : FrameError → String
  | .disk _ => "Io"
  | .truncated _ _ => "Truncated"
  | .oversized _ => "Implausible"
  | .checksumMismatch _ _ => "ChecksumMismatch"
  | .compression _ => "Compression"
  | .malformed _ => "Malformed"

/-- The text of the error. -/
def FrameError.message : FrameError → String
  | .disk fault => "IO error: " ++ fault.message
  | .truncated needed available =>
      "Incomplete frame: need " ++ toString needed ++ " bytes, have " ++ toString available
  | .oversized size =>
      "Implausible frame body length: " ++ toString size ++ " (likely corruption)"
  | .checksumMismatch stored computed =>
      "Checksum mismatch: stored " ++ Hex.marked 8 stored.toNat ++
        ", computed " ++ Hex.marked 8 computed.toNat
  | .compression fault => "Compression error: " ++ fault.message
  | .malformed fault => "Malformed frame body: " ++ fault.message

namespace Frame

/-- When bodies are compressed. -/
structure Compression where
  /-- How hard to compress. -/
  level : Int
  /-- The least size of a body that is compressed. -/
  minSize : Nat
deriving DecidableEq, Repr

/-- Bodies of at least 512 bytes are compressed. -/
def Compression.standard : Compression where
  level := 3
  minSize := 512

/-- The size of what precedes a body. -/
def headerSize : Nat := 9

/-- The greatest size of a stored body: 64 MiB. -/
def maxBodySize : Nat := 67108864

/-- What precedes a body. -/
structure Header where
  /-- The size of the stored body. -/
  bodySize : Nat
  /-- The flags. -/
  flags : UInt8
  /-- The checksum of the stored body. -/
  checksum : UInt32
deriving DecidableEq, Repr

/-- Whether the body is compressed: the lowest flag. -/
def Header.isCompressed (header : Header) : Bool :=
  header.flags.toNat % 2 = 1

end Frame
end EventRelay
