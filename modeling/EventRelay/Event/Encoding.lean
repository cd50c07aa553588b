import EventRelay.Checksum
import EventRelay.Event.Basic
import EventRelay.Text.Hex

/-!
# The encoding of an event

An event is encoded as a mark, a version, the number of its kind, the size and
bytes of its symbol, sixteen bytes of price, eight of volume and eight of time,
all least significant byte first, and the checksum of all these bytes.
-/

namespace EventRelay
namespace Event

/-- The first byte of every encoding. -/
def mark : UInt8 := 0xE7

/-- The version of the encoding. -/
def version : UInt8 := 1

/-- The number of bytes before the symbol. -/
def headSize : Nat := 4

/-- The number of bytes after the symbol. -/
def tailSize : Nat := 36

/-- The size of the encoding of an event with the longest symbol. -/
def maxEncodedSize : Nat := headSize + maxSymbolSize + tailSize

/-- The size of an event's encoding. -/
def encodedSize (event : Event) : Nat :=
  headSize + event.symbol.bytes.length + tailSize

/-- The encoding of an event without its checksum. -/
def encodeBody (event : Event) : Bytes :=
  [mark, version, event.kind.tag, UInt8.ofNat event.symbol.bytes.length] ++
    event.symbol.bytes ++ event.price.pack ++
    Bytes.ofUInt64LE event.volume ++ Bytes.ofUInt64LE event.timestamp

/-- The encoding of an event. -/
def encode (event : Event) : Bytes :=
  event.encodeBody ++ Bytes.ofUInt32LE (Checksum.crc32c event.encodeBody)

/-- Read the fields of a body whose size and checksum are right. -/
def decodeFields (tag : UInt8) (symbolSize : Nat) (fields : Bytes) : Except EventError Event := do
  let kind ← Kind.ofTag tag
  let text ← match textOfBytes? (fields.take symbolSize) with
    | some text => .ok text
    | none => .error .invalidText
  let symbol ← Symbol.ofText text
  let numbers := fields.drop symbolSize
  return {
    kind := kind
    symbol := symbol
    price := Decimal.unpack (numbers.take 16)
    volume := UInt64.ofNat (Bytes.toNatLE ((numbers.drop 16).take 8))
    timestamp := UInt64.ofNat (Bytes.toNatLE ((numbers.drop 24).take 8)) }

/-- Read an encoded event.  Marks, sizes and the checksum are checked before
any field is read. -/
def decode (data : Bytes) : Except EventError Event :=
  match data with
  | first :: second :: tag :: size :: rest =>
      if first ≠ mark then .error (.badMark first)
      else if second ≠ version then .error (.unsupportedVersion second)
      else
        let total := headSize + size.toNat + tailSize
        if data.length < total then .error (.truncated total data.length)
        else if total < data.length then .error (.trailingBytes (data.length - total))
        else
          let stored := UInt32.ofNat (Bytes.toNatLE (data.drop (total - 4)))
          let computed := Checksum.crc32c (data.take (total - 4))
          if stored ≠ computed then .error (.checksumMismatch stored computed)
          else decodeFields tag size.toNat rest
  | _ => .error (.truncated headSize data.length)

end Event

/-- The name of the kind of error. -/
def EventError.kind : EventError → String
  | .emptySymbol => "EmptySymbol"
  | .symbolTooLong _ => "SymbolTooLong"
  | .truncated _ _ => "Truncated"
  | .badMark _ => "BadMagic"
  | .unsupportedVersion _ => "UnsupportedVersion"
  | .unknownKind _ => "UnknownKind"
  | .invalidText => "InvalidUtf8"
  | .checksumMismatch _ _ => "ChecksumMismatch"
  | .trailingBytes _ => "TrailingBytes"

/-- The text of the error. -/
def EventError.message : EventError → String
  | .emptySymbol => "Symbol must not be empty"
  | .symbolTooLong size =>
      "Symbol too long: " ++ toString size ++ " bytes, maximum is " ++ toString maxSymbolSize
  | .truncated needed available =>
      "Truncated frame: need " ++ toString needed ++ " bytes, have " ++ toString available
  | .badMark mark => "Bad magic byte: " ++ Hex.marked 2 mark.toNat
  | .unsupportedVersion version => "Unsupported codec version: " ++ toString version.toNat
  | .unknownKind tag => "Unknown event kind tag: " ++ toString tag.toNat
  | .invalidText => "Symbol is not valid UTF-8"
  | .checksumMismatch stored computed =>
      "Checksum mismatch: stored " ++ Hex.marked 8 stored.toNat ++
        ", computed " ++ Hex.marked 8 computed.toNat
  | .trailingBytes count => toString count ++ " trailing bytes after frame"

end EventRelay
