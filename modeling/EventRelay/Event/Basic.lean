import EventRelay.Decimal.Basic

/-!
# Market events

An event is one market tick, trade print or order update: its kind, the symbol
of its instrument, an exact price, a volume, and the time at which its producer
made it.  A symbol holds the proof that its text has between one and 32 bytes.
-/

namespace EventRelay

/-- Why an event cannot be built, or its encoding cannot be read. -/
inductive EventError where
  /-- The symbol has no text. -/
  | emptySymbol
  /-- The symbol's text has too many bytes. -/
  | symbolTooLong (size : Nat)
  /-- The encoding ends early. -/
  | truncated (needed available : Nat)
  /-- The encoding starts with another byte than the mark. -/
  | badMark (mark : UInt8)
  /-- The encoding is of another version. -/
  | unsupportedVersion (version : UInt8)
  /-- No kind of event has this tag. -/
  | unknownKind (tag : UInt8)
  /-- The symbol's bytes are not UTF-8. -/
  | invalidText
  /-- The stored checksum is not the one computed. -/
  | checksumMismatch (stored computed : UInt32)
  /-- The encoding goes on after its end. -/
  | trailingBytes (count : Nat)
deriving DecidableEq, Repr

/-- The greatest number of bytes in a symbol's text. -/
def maxSymbolSize : Nat := 32

/-- The symbol of an instrument: a text of one to 32 bytes. -/
structure Symbol where
  /-- The text. -/
  text : String
  /-- The text is not empty. -/
  size_pos : 0 < text.utf8ByteSize
  /-- The text has at most 32 bytes. -/
  size_le : text.utf8ByteSize ≤ 32

namespace Symbol

@[ext] theorem ext
    {left right : Symbol}
    (text_eq : left.text = right.text) :
    left = right := by
  cases left
  cases right
  cases text_eq
  rfl

instance : DecidableEq Symbol := fun left right =>
  if equal : left.text = right.text then isTrue (ext equal)
  else isFalse fun same => equal (congrArg Symbol.text same)

instance : Repr Symbol where
  reprPrec symbol := reprPrec symbol.text

/-- The symbol of a text. -/
def ofText (text : String) : Except EventError Symbol :=
  if size_pos : 0 < text.utf8ByteSize then
    if size_le : text.utf8ByteSize ≤ 32 then .ok ⟨text, size_pos, size_le⟩
    else .error (.symbolTooLong text.utf8ByteSize)
  else .error .emptySymbol

/-- The UTF-8 bytes of a symbol's text. -/
def bytes (symbol : Symbol) : Bytes :=
  textBytes symbol.text

/-- The order of symbols is that of their bytes. -/
def compare (left right : Symbol) : Ordering :=
  Bytes.compare left.bytes right.bytes

theorem length_bytes (symbol : Symbol) :
    symbol.bytes.length = symbol.text.utf8ByteSize :=
  rfl

end Symbol

/-- The family of an event. -/
inductive Kind where
  /-- A top-of-book or last-price tick. -/
  | tick
  /-- An executed trade. -/
  | trade
  /-- An update in an order's life. -/
  | orderUpdate
deriving DecidableEq, Repr, Inhabited

namespace Kind

/-- The number of a kind in an encoded event. -/
def tag : Kind → UInt8
  | .tick => 0
  | .trade => 1
  | .orderUpdate => 2

/-- The name of a kind. -/
def label : Kind → String
  | .tick => "tick"
  | .trade => "trade"
  | .orderUpdate => "order_update"

/-- The kind with a given number. -/
def ofTag (tag : UInt8) : Except EventError Kind :=
  if tag = 0 then .ok .tick
  else if tag = 1 then .ok .trade
  else if tag = 2 then .ok .orderUpdate
  else .error (.unknownKind tag)

/-- The kind with a given name. -/
def ofLabel? (label : String) : Option Kind :=
  if label = "tick" then some .tick
  else if label = "trade" then some .trade
  else if label = "order_update" then some .orderUpdate
  else none

@[simp] theorem ofTag_tag (kind : Kind) :
    ofTag kind.tag = .ok kind := by
  cases kind <;> rfl

@[simp] theorem ofLabel?_label (kind : Kind) :
    ofLabel? kind.label = some kind := by
  cases kind <;> rfl

end Kind

/-- One market event. -/
structure Event where
  /-- The family. -/
  kind : Kind
  /-- The instrument. -/
  symbol : Symbol
  /-- The price. -/
  price : Decimal
  /-- The volume. -/
  volume : UInt64
  /-- The producer's time in nanoseconds since 1970. -/
  timestamp : UInt64
deriving DecidableEq, Repr

/-- Whether two events agree, prices being compared as numbers. -/
def Event.agrees (left right : Event) : Bool :=
  left.kind == right.kind && left.symbol == right.symbol &&
    left.price.sameNumber right.price && left.volume == right.volume &&
    left.timestamp == right.timestamp

end EventRelay
