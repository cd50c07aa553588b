import EventRelay.Frame.Encoding
import EventRelay.Segment.Writer

/-!
# Reading segments

A reader takes the frames of a segment one after the other.  It stops for good
at the end of the segment or at the first frame that is damaged; in the latter
case it keeps what is wrong, and where.  The frames before that place are valid.
-/

namespace EventRelay
namespace Segment

/-- What is wrong with a frame of a segment. -/
inductive Damage where
  /-- The segment ends within what precedes a body. -/
  | tornHeader (remaining : Nat)
  /-- The segment ends within a body. -/
  | tornBody (needed remaining : Nat)
  /-- The checksum is wrong. -/
  | checksum (stored computed : UInt32)
  /-- The frame breaks the rules in another way. -/
  | malformed (error : FrameError)
deriving DecidableEq, Repr

/-- The name of the kind of damage. -/
def Damage.kind : Damage → String
  | .tornHeader _ => "TruncatedFrame"
  | .tornBody _ _ => "TruncatedFrame"
  | .checksum _ _ => "ChecksumMismatch"
  | .malformed _ => "MalformedBody"

/-- The text of the damage. -/
def Damage.message : Damage → String
  | .tornHeader remaining =>
      "Torn frame header: " ++ toString remaining ++ " bytes remaining"
  | .tornBody needed remaining =>
      "Torn frame: need " ++ toString needed ++ " bytes, " ++ toString remaining ++ " remaining"
  | .checksum stored computed =>
      "CRC32C mismatch: stored=" ++ Hex.marked 8 stored.toNat ++
        ", computed=" ++ Hex.marked 8 computed.toNat
  | .malformed error => error.message

/-- What stops a reader. -/
structure Corruption where
  /-- Where the damaged frame starts. -/
  offset : Nat
  /-- What is wrong with it. -/
  damage : Damage
deriving DecidableEq, Repr

/-- A frame that was read. -/
structure ReadFrame where
  /-- Where the frame starts. -/
  offset : Nat
  /-- Where the frame ends. -/
  stop : Nat
  /-- Its entries. -/
  entries : List Entry
deriving DecidableEq, Repr

/-- A reader of one segment. -/
structure Reader where
  /-- The bytes that are not yet read. -/
  rest : Bytes
  /-- The size of the valid frames read so far. -/
  offset : Nat
  /-- What stopped the reader. -/
  corruption : Option Corruption
deriving Repr

namespace Reader

/-- A reader at the start of a segment. -/
def ofBytes (bytes : Bytes) : Reader where
  rest := bytes
  offset := 0
  corruption := none

/-- Keep what is wrong with the frame that comes next. -/
def mark (reader : Reader) (damage : Damage) : Reader :=
  { reader with corruption := some ⟨reader.offset, damage⟩ }

/-- The damage that a frame error in a body amounts to. -/
def damageOf : FrameError → Damage
  | .checksumMismatch stored computed => .checksum stored computed
  | error => .malformed error

/-- Read the frame at the front of a segment's rest.  The result also holds the
frame's size. -/
def readFront (rest : Bytes) : Except Damage (List Entry × Nat) :=
  match Bytes.split? Frame.headerSize rest with
  | none => .error (.tornHeader rest.length)
  | some (head, afterHead) =>
      match Frame.Header.read head with
      | .error error => .error (.malformed error)
      | .ok header =>
          match Bytes.split? header.bodySize afterHead with
          | none => .error (.tornBody (Frame.headerSize + header.bodySize) rest.length)
          | some (stored, _) =>
              match Frame.decodeBody header stored with
              | .error error => .error (damageOf error)
              | .ok entries => .ok (entries, Frame.headerSize + header.bodySize)

theorem size_of_readFront_eq_ok
    {rest : Bytes}
    {entries : List Entry}
    {size : Nat}
    (read : readFront rest = .ok (entries, size)) :
    Frame.headerSize ≤ size ∧ size ≤ rest.length := by
  unfold readFront at read
  split at read
  · cases read
  · rename_i head afterHead parted
    obtain ⟨headSize, rfl⟩ := Bytes.split?_eq_some_iff.mp parted
    split at read
    · cases read
    · rename_i header _
      split at read
      · cases read
      · rename_i stored after storedParted
        obtain ⟨storedSize, rfl⟩ := Bytes.split?_eq_some_iff.mp storedParted
        split at read
        · cases read
        · cases read
          simp only [List.length_append]
          omega

/-- Read the next frame, if one is left and nothing is wrong with it. -/
def next (reader : Reader) : Option ReadFrame × Reader :=
  if reader.corruption.isSome ∨ reader.rest.isEmpty then (none, reader)
  else
    match readFront reader.rest with
    | .error damage => (none, reader.mark damage)
    | .ok (entries, size) =>
        (some ⟨reader.offset, reader.offset + size, entries⟩,
          { reader with rest := reader.rest.drop size, offset := reader.offset + size })

theorem length_rest_of_next_eq_some
    {reader after : Reader}
    {frame : ReadFrame}
    (read : reader.next = (some frame, after)) :
    after.rest.length < reader.rest.length := by
  unfold next at read
  split at read
  · cases read
  · split at read
    · cases read
    · rename_i entries size front
      have bounds := size_of_readFront_eq_ok front
      cases read
      simp only [Frame.headerSize, List.length_drop] at bounds ⊢
      omega

/-- Read frames until none is left.  The result also holds the reader that
stopped. -/
def readAll (reader : Reader) : List ReadFrame × Reader :=
  match _read : reader.next with
  | (none, stopped) => ([], stopped)
  | (some frame, after) =>
      let (frames, stopped) := after.readAll
      (frame :: frames, stopped)
  termination_by reader.rest.length
  decreasing_by exact length_rest_of_next_eq_some ‹_›

end Reader
end Segment
end EventRelay
