/-!
# Faults of compressed frames

Why a byte string is no sequence of compressed frames, and the text of each
cause.
-/

namespace EventRelay
namespace Zstandard

/-- Why compressed data cannot be read. -/
inductive Fault where
  /-- A frame starts with no known mark. -/
  | unknownMark
  /-- The data ends within a frame. -/
  | cutOff
  /-- A frame is of a version that is too old. -/
  | oldVersion
  /-- A frame's header sets a reserved bit. -/
  | unsupported
  /-- A frame asks for too large a window. -/
  | windowTooLarge
  /-- A frame needs a dictionary. -/
  | dictionaryMissing
  /-- A block breaks the rules of the format. -/
  | corrupt
  /-- The literals of a block are too few for their storage. -/
  | wrongLiterals
  /-- The literals of a block are in a code that was not described. -/
  | codeMissing
  /-- A part of a block has not the size that it should have. -/
  | wrongSize
  /-- A block stands for more bytes than there is room for. -/
  | outOfRoom
  /-- The content is not the one that was hashed. -/
  | wrongHash
deriving DecidableEq, Repr

/-- The text of the fault. -/
def Fault.message : Fault → String
  | .unknownMark => "Unknown frame descriptor"
  | .cutOff => "incomplete frame"
  | .oldVersion => "Version not supported"
  | .unsupported => "Unsupported frame parameter"
  | .windowTooLarge => "Frame requires too much memory for decoding"
  | .dictionaryMissing => "Dictionary mismatch"
  | .corrupt => "Data corruption detected"
  | .wrongLiterals => "Header of Literals' block doesn't respect format specification"
  | .codeMissing => "Dictionary is corrupted"
  | .wrongSize => "Src size is incorrect"
  | .outOfRoom => "Destination buffer is too small"
  | .wrongHash => "Restored data doesn't match checksum"

/-- The value of an option, and corruption where there is none. -/
def orCorrupt {α : Type} : Option α → Except Fault α
  | some value => .ok value
  | none => .error .corrupt

/-- Corruption unless a condition holds. -/
def require (condition : Bool) : Except Fault Unit :=
  if condition then .ok () else .error .corrupt

end Zstandard
end EventRelay
