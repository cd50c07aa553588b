import EventRelay.Event.Basic
import EventRelay.Text.Lossy

/-!
# Keys of logged events

A key has sixteen bytes: the time most significant byte first, then the first
eight bytes of the symbol, filled up with zeros.  Keys are compared byte by
byte, so they are ordered by time first.  Symbols of more than eight bytes that
begin alike share a key at the same time.
-/

namespace EventRelay

/-- The key under which an event is stored. -/
structure Key where
  /-- The sixteen bytes. -/
  bytes : Bytes
  /-- There are sixteen of them. -/
  length_bytes : bytes.length = 16
deriving DecidableEq, Repr

namespace Key

/-- The number of bytes in a key. -/
def size : Nat := 16

/-- The number of bytes of the symbol that a key holds. -/
def labelSize : Nat := 8

/-- The first `labelSize` bytes of a symbol, filled up with zeros. -/
def label (symbol : Bytes) : Bytes :=
  symbol.take labelSize ++ List.replicate (labelSize - symbol.length) 0

@[simp] theorem length_label (symbol : Bytes) :
    (label symbol).length = labelSize := by
  simp [label, labelSize]
  omega

/-- The key of a time and a symbol. -/
def make (timestamp : UInt64) (symbol : Bytes) : Key where
  bytes := Bytes.ofNatBE 8 timestamp.toNat ++ label symbol
  length_bytes := by simp [labelSize]

/-- The key of an event. -/
def ofEvent (event : Event) : Key :=
  make event.timestamp event.symbol.bytes

/-- The least key of a time. -/
def first (timestamp : UInt64) : Key :=
  make timestamp []

/-- The greatest key of a time. -/
def last (timestamp : UInt64) : Key :=
  make timestamp (List.replicate labelSize 0xFF)

/-- The key of sixteen bytes. -/
def ofBytes? (bytes : Bytes) : Option Key :=
  if length_bytes : bytes.length = 16 then some ⟨bytes, length_bytes⟩ else none

/-- The time of a key. -/
def timestamp (key : Key) : UInt64 :=
  UInt64.ofNat (Bytes.toNatBE (key.bytes.take 8))

/-- The bytes of the symbol that a key holds, with their filling. -/
def symbolPart (key : Key) : Bytes :=
  key.bytes.drop 8

/-- Keys are compared byte by byte. -/
def compare (left right : Key) : Ordering :=
  Bytes.compare left.bytes right.bytes

/-- Add one to a number written most significant byte first; nothing remains
when every byte is already the greatest. -/
def increment : Bytes → Option Bytes
  | [] => none
  | byte :: rest =>
      match increment rest with
      | some raised => some (byte :: raised)
      | none =>
          if byte = 0xFF then none
          else some ((byte + 1) :: List.replicate rest.length 0)

theorem length_of_increment_eq_some
    {bytes raised : Bytes}
    (incremented : increment bytes = some raised) :
    raised.length = bytes.length := by
  induction bytes generalizing raised with
  | nil => cases incremented
  | cons byte rest inductionHypothesis =>
      unfold increment at incremented
      split at incremented
      · rename_i raisedRest restIncremented
        cases incremented
        simp [inductionHypothesis restIncremented]
      · split at incremented
        · cases incremented
        · cases incremented
          simp

/-- The next key in byte order, unless the key is the greatest. -/
def successor (key : Key) : Option Key :=
  match incremented : increment key.bytes with
  | some raised =>
      some ⟨raised, (length_of_increment_eq_some incremented).trans key.length_bytes⟩
  | none => none

/-- The text of a key: its time and its symbol up to the first zero byte. -/
def text (key : Key) : String :=
  toString key.timestamp.toNat ++ ":" ++ Lossy.text (key.symbolPart.takeWhile (· ≠ 0))

end Key
end EventRelay
