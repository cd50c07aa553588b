import EventRelay.Decimal.Reader
import EventRelay.Event.Encoding
import EventRelay.Json.Number

/-!
# Events as JSON documents

An event is written as one JSON object without blanks, its price as a string.
It is read back from an object whose fields come in any order, with unknown
fields skipped, or from a list of its five fields in the order in which they
are written.
-/

namespace EventRelay
namespace Event

open Json

/-! ## Writing -/

/-- The form of one character inside a string. -/
def writeCharacter (character : Char) : List Char :=
  let code := character.toNat
  if character = quote || character = backslash then [backslash, character]
  else if code = 8 then [backslash, 'b']
  else if code = 9 then [backslash, 't']
  else if code = 10 then [backslash, 'n']
  else if code = 12 then [backslash, 'f']
  else if code = 13 then [backslash, 'r']
  else if code < 0x20 then [backslash, 'u'] ++ Hex.digits 4 code
  else [character]

/-- A string between quotes. -/
def writeString (text : String) : List Char :=
  quote :: text.toList.flatMap writeCharacter ++ [quote]

/-- A field of an object: its name, a colon and its value. -/
def writeField (name : String) (value : List Char) : List Char :=
  writeString name ++ ':' :: value

/-- The fields of an event with their written values, in order. -/
def writtenFields (event : Event) : List (String × List Char) :=
  [("kind", writeString event.kind.label),
    ("symbol", writeString event.symbol.text),
    ("price", writeString event.price.text),
    ("volume", (toString event.volume.toNat).toList),
    ("timestamp", (toString event.timestamp.toNat).toList)]

/-- The JSON text of an event. -/
def document (event : Event) : String :=
  let fields := event.writtenFields.map fun field => writeField field.1 field.2
  String.ofList (openBrace :: [','].intercalate fields ++ [closeBrace])

/-! ## Reading -/

/-- What messages call an event. -/
def documentName : String := "struct Event"

/-- The front of a text without blanks, and the rest. -/
def next (text : List Char) : Except Fault (Char × List Char) :=
  match skipBlanks text with
  | [] => .error .cutOff
  | character :: rest => .ok (character, rest)

/-- Read a string where `expected` says what was wanted. -/
def readTextValue (expected : String) (text : List Char) : Except Fault (String × List Char) := do
  let (first, rest) ← next text
  if first = quote then
    let (shown, rest) ← readString rest
    return (String.ofList shown, rest)
  else .error (unexpected expected (first :: rest))

/-- The kind with a given name. -/
def kindOfName (name : String) : Except Fault Kind :=
  match Kind.ofLabel? name with
  | some kind => .ok kind
  | none =>
      .error (.mismatch (.unknownName name
        (([.tick, .trade, .orderUpdate] : List Kind).map Kind.label)))

/-- Take a given character after blanks. -/
def expect (wanted : Char) (text : List Char) : Except Fault (List Char) := do
  let (first, rest) ← next text
  if first = wanted then return rest else .error .malformed

/-- Read the null value. -/
def readNull (text : List Char) : Except Fault (List Char) := do
  let (first, rest) ← next text
  if first = 'n' then readWord ['u', 'l', 'l'] rest
  else .error (unexpected "unit" (first :: rest))

/-- Read a kind: its name, or an object that maps its name to null. -/
def readKind (text : List Char) : Except Fault (Kind × List Char) := do
  let (first, rest) ← next text
  if first = openBrace then
    let (name, rest) ← readString (← expect quote rest)
    let kind ← kindOfName (String.ofList name)
    let rest ← expect ':' rest
    let rest ← readNull rest
    let rest ← expect closeBrace rest
    return (kind, rest)
  else if first = quote then
    let (name, rest) ← readString rest
    return (← kindOfName (String.ofList name), rest)
  else .error .malformed

/-- Read a symbol. -/
def readSymbol (text : List Char) : Except Fault (Symbol × List Char) := do
  let (shown, rest) ← readTextValue "a string" text
  match Symbol.ofText shown with
  | .ok symbol => return (symbol, rest)
  | .error error => .error (.mismatch (.rule error.message))

/-- What messages call a price. -/
def priceName : String := "a Decimal type representing a fixed-point number"

/-- Read a price, which must be a string. -/
def readPrice (text : List Char) : Except Fault (Decimal × List Char) := do
  let (shown, rest) ← readTextValue priceName text
  match Decimal.read shown with
  | .ok price => return (price, rest)
  | .error _ => .error (.mismatch (.value (.text shown) priceName))

/-- Read a 64-bit word. -/
def readCount (text : List Char) : Except Fault (UInt64 × List Char) := do
  let (first, rest) ← next text
  if first = '-' || isDigit first then
    let (number, rest) ← readNumber (first :: rest)
    match number with
    | .word value => return (UInt64.ofNat value, rest)
    | .negative value => .error (.mismatch (.value (.integer value) "u64"))
    | .floating value => .error (.mismatch (.kind (.floating value) "u64"))
  else .error (unexpected "u64" (first :: rest))

/-- The fields of an event that have been read. -/
structure Fields where
  /-- The kind, if it was read. -/
  kind : Option Kind
  /-- The symbol, if it was read. -/
  symbol : Option Symbol
  /-- The price, if it was read. -/
  price : Option Decimal
  /-- The volume, if it was read. -/
  volume : Option UInt64
  /-- The time, if it was read. -/
  timestamp : Option UInt64

/-- No field read yet. -/
def Fields.none : Fields :=
  ⟨.none, .none, .none, .none, .none⟩

/-- The fault of a field that comes twice. -/
def duplicate (name : String) : Fault :=
  .mismatch (.duplicateField name)

/-- Read the value of a field after its name.  A field that was read before is
refused before its colon. -/
def Fields.readField
    (fields : Fields)
    (name : String)
    (text : List Char) : Except Fault (Fields × List Char) := do
  if name = "kind" then
    if fields.kind.isSome then .error (duplicate name)
    let (kind, rest) ← readKind (← expect ':' text)
    return ({ fields with kind := some kind }, rest)
  else if name = "symbol" then
    if fields.symbol.isSome then .error (duplicate name)
    let (symbol, rest) ← readSymbol (← expect ':' text)
    return ({ fields with symbol := some symbol }, rest)
  else if name = "price" then
    if fields.price.isSome then .error (duplicate name)
    let (price, rest) ← readPrice (← expect ':' text)
    return ({ fields with price := some price }, rest)
  else if name = "volume" then
    if fields.volume.isSome then .error (duplicate name)
    let (volume, rest) ← readCount (← expect ':' text)
    return ({ fields with volume := some volume }, rest)
  else if name = "timestamp" then
    if fields.timestamp.isSome then .error (duplicate name)
    let (timestamp, rest) ← readCount (← expect ':' text)
    return ({ fields with timestamp := some timestamp }, rest)
  else
    let rest ← skipValue (← expect ':' text)
    return (fields, rest)

/-- The value of a field that must have been read. -/
def required (name : String) : Option Value → Except Fault Value
  | some value => .ok value
  | Option.none => .error (.mismatch (.missingField name))

/-- The event of the fields read; the first field that is missing is reported. -/
def Fields.event (fields : Fields) : Except Fault Event := do
  let kind ← required "kind" fields.kind
  let symbol ← required "symbol" fields.symbol
  let price ← required "price" fields.price
  let volume ← required "volume" fields.volume
  let timestamp ← required "timestamp" fields.timestamp
  return ⟨kind, symbol, price, volume, timestamp⟩

/-- Find the start of the next field's name, past the comma that must precede
every field but the first; `none` at the end of the object. -/
def nextName (isFirst : Bool) (text : List Char) :
    Except Fault (Option (List Char) × List Char) := do
  let (first, rest) ← next text
  if first = closeBrace then return (.none, rest)
  else if isFirst then
    if first = quote then return (some rest, []) else .error .malformed
  else if first = ',' then
    let (second, rest) ← next rest
    if second = quote then return (some rest, []) else .error .malformed
  else .error .malformed

/-- Read the fields of an object up to its closing brace.  The fuel bounds the
number of fields; a text has fewer fields than characters. -/
def readFields :
    (fuel : Nat) → (isFirst : Bool) → Fields → List Char → Except Fault (Fields × List Char)
  | 0, _, _, _ => .error .malformed
  | fuel + 1, isFirst, fields, text => do
      match ← nextName isFirst text with
      | (.none, rest) => return (fields, rest)
      | (some named, _) =>
          let (name, rest) ← readString named
          let (fields, rest) ← fields.readField (String.ofList name) rest
          readFields fuel false fields rest

/-- Go to the next item of a list of which `count` items have been read. -/
def nextItem (count : Nat) (text : List Char) : Except Fault (List Char) := do
  let (first, rest) ← next text
  if first = ']' then
    .error (.mismatch (.shortSequence count (documentName ++ " with 5 elements")))
  else if count = 0 then return first :: rest
  else if first = ',' then
    let (second, rest) ← next rest
    if second = ']' then .error .malformed else return second :: rest
  else .error .malformed

/-- Read an event from the items of a list. -/
def readItems (text : List Char) : Except Fault (Event × List Char) := do
  let (kind, rest) ← readKind (← nextItem 0 text)
  let (symbol, rest) ← readSymbol (← nextItem 1 rest)
  let (price, rest) ← readPrice (← nextItem 2 rest)
  let (volume, rest) ← readCount (← nextItem 3 rest)
  let (timestamp, rest) ← readCount (← nextItem 4 rest)
  let rest ← expect ']' rest
  return (⟨kind, symbol, price, volume, timestamp⟩, rest)

/-- Read an event from the front of a text. -/
def readValue (text : List Char) : Except Fault (Event × List Char) := do
  let (first, rest) ← next text
  if first = '[' then readItems rest
  else if first = openBrace then
    let (fields, rest) ← readFields (rest.length + 1) true .none rest
    return (← fields.event, rest)
  else .error (unexpected documentName (first :: rest))

/-- Read the event of a JSON document.  Only blanks may follow the event. -/
def ofDocument (document : String) : Except Fault Event := do
  let (event, rest) ← readValue document.toList
  if (skipBlanks rest).isEmpty then return event else .error .malformed

end Event
end EventRelay
