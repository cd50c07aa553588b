import EventRelay.Proofs.Checksum
import EventRelay.Proofs.Event.RoundTrip

/-!
# Which byte strings are events

A byte string is read as an event exactly if its mark, its version, the number of
its kind, its size, its symbol and its checksum are in order.  The event fixes
every byte but those of the price, of which several may stand for one price: the
sixteen price bytes are free, and the checksum follows from the rest.  As the
checksum is that of all bytes before it, no damage within four consecutive bytes
goes unnoticed.
-/

namespace EventRelay

/-! ## Texts, symbols and kinds -/

theorem textOfBytes?_eq_some_iff
    {bytes : Bytes}
    {text : String} :
    textOfBytes? bytes = some text ↔ bytes = textBytes text := by
  constructor
  · intro read
    unfold textOfBytes? String.fromUTF8? at read
    split at read
    · cases read
      rfl
    · cases read
  · rintro rfl
    exact textOfBytes?_textBytes text

theorem Symbol.ofText_eq_ok_iff
    {text : String}
    {symbol : Symbol} :
    Symbol.ofText text = .ok symbol ↔ text = symbol.text := by
  constructor
  · intro read
    unfold Symbol.ofText at read
    split at read
    · split at read
      · cases read
        rfl
      · cases read
    · cases read
  · rintro rfl
    exact symbol.ofText_text

theorem Kind.ofTag_eq_ok_iff
    {tag : UInt8}
    {kind : Kind} :
    Kind.ofTag tag = .ok kind ↔ tag = kind.tag := by
  constructor
  · intro read
    unfold Kind.ofTag at read
    split at read
    · cases read
      assumption
    · split at read
      · cases read
        assumption
      · split at read
        · cases read
          assumption
        · cases read
  · rintro rfl
    exact kind.ofTag_tag

namespace Event

/-! ## Reading -/

/-- Reading succeeds exactly if the mark, the version, the size and the checksum are
right and the fields can be read. -/
theorem decode_eq_ok_iff_fields
    {data : Bytes}
    {event : Event} :
    decode data = .ok event ↔
      ∃ tag size rest, data = mark :: version :: tag :: size :: rest ∧
        rest.length = size.toNat + tailSize ∧ Checksum.Sealed data ∧
        decodeFields tag size.toNat rest = .ok event := by
  constructor
  · intro read
    unfold decode at read
    split at read
    · rename_i first second tag size rest
      split at read
      · cases read
      rename_i isMark
      split at read
      · cases read
      rename_i isVersion
      dsimp only at read
      split at read
      · cases read
      rename_i notShort
      split at read
      · cases read
      rename_i notLong
      split at read
      · cases read
      rename_i sameSum
      have length_eq : (first :: second :: tag :: size :: rest).length =
          headSize + size.toNat + tailSize := by
        omega
      rw [not_not] at isMark isVersion sameSum
      rw [← length_eq] at sameSum
      subst isMark isVersion
      have length_rest : rest.length = size.toNat + tailSize := by
        simp only [List.length_cons, headSize] at length_eq
        omega
      refine ⟨tag, size, rest, rfl, length_rest, ?_, read⟩
      rw [Checksum.Sealed, ← sameSum, Bytes.ofUInt32LE_ofNat_toNatLE]
      rw [List.length_drop, length_eq, headSize, tailSize]
      omega
    · cases read
  · rintro ⟨tag, size, rest, rfl, length_rest, isSealed, read⟩
    have length_eq : (mark :: version :: tag :: size :: rest).length =
        headSize + size.toNat + tailSize := by
      simp only [List.length_cons, length_rest, headSize]
      omega
    rw [Checksum.Sealed, length_eq] at isSealed
    unfold decode
    simp only [length_eq, isSealed, Bytes.ofNat_toNatLE_ofUInt32LE, ne_eq, not_true_eq_false,
      if_false, Nat.lt_irrefl, read]

/-- The fields are read as those of an event exactly if they are its fields. -/
theorem decodeFields_eq_ok_iff
    {tag : UInt8}
    {symbolSize : Nat}
    {fields : Bytes}
    {event : Event} :
    decodeFields tag symbolSize fields = .ok event ↔
      tag = event.kind.tag ∧ fields.take symbolSize = event.symbol.bytes ∧
        Decimal.unpack ((fields.drop symbolSize).take 16) = event.price ∧
        UInt64.ofNat (Bytes.toNatLE (((fields.drop symbolSize).drop 16).take 8)) =
          event.volume ∧
        UInt64.ofNat (Bytes.toNatLE (((fields.drop symbolSize).drop 24).take 8)) =
          event.timestamp := by
  unfold decodeFields
  constructor
  · intro read
    cases kindRead : Kind.ofTag tag with
    | error error => rw [kindRead] at read; cases read
    | ok kind =>
        cases textRead : textOfBytes? (fields.take symbolSize) with
        | none => rw [kindRead, textRead] at read; cases read
        | some text =>
            cases symbolRead : Symbol.ofText text with
            | error error =>
                rw [kindRead, textRead] at read
                simp only [bind, Except.bind, symbolRead] at read
                cases read
            | ok symbol =>
                rw [kindRead, textRead] at read
                simp only [bind, Except.bind, symbolRead] at read
                cases read
                rw [Symbol.ofText_eq_ok_iff] at symbolRead
                rw [textOfBytes?_eq_some_iff, symbolRead] at textRead
                exact ⟨Kind.ofTag_eq_ok_iff.mp kindRead, textRead, rfl, rfl, rfl⟩
  · rintro ⟨rfl, symbol_eq, price_eq, volume_eq, timestamp_eq⟩
    have symbolRead : textOfBytes? event.symbol.bytes = some event.symbol.text :=
      textOfBytes?_textBytes event.symbol.text
    simp only [Kind.ofTag_tag, symbol_eq, symbolRead, Symbol.ofText_text, price_eq, volume_eq,
      timestamp_eq, bind, Except.bind]
    rfl

/-! ## The bytes of an event -/

/-- The bytes of an event before its price. -/
def front (event : Event) : Bytes :=
  [mark, version, event.kind.tag, UInt8.ofNat event.symbol.bytes.length] ++ event.symbol.bytes

/-- The bytes of an event between its price and its checksum. -/
def back (event : Event) : Bytes :=
  Bytes.ofUInt64LE event.volume ++ Bytes.ofUInt64LE event.timestamp

/-- The bytes of an event before its checksum, when given bytes stand for its price. -/
def encodeBodyWith (event : Event) (price : Bytes) : Bytes :=
  event.front ++ (price ++ event.back)

/-- The encoding of an event in which given bytes stand for its price. -/
def encodeWith (event : Event) (price : Bytes) : Bytes :=
  event.encodeBodyWith price ++
    Bytes.ofUInt32LE (Checksum.crc32c (event.encodeBodyWith price))

@[simp] theorem length_front (event : Event) :
    event.front.length = headSize + event.symbol.bytes.length := by
  rw [front, List.length_append]
  rfl

@[simp] theorem length_back (event : Event) : event.back.length = 16 := by
  rw [back, List.length_append, Bytes.length_ofUInt64LE, Bytes.length_ofUInt64LE]

theorem encode_eq_encodeWith (event : Event) :
    event.encode = event.encodeWith event.price.pack := by
  have body : event.encodeBodyWith event.price.pack = event.encodeBody := by
    simp only [encodeBodyWith, front, back, encodeBody, List.append_assoc]
  rw [encodeWith, body, encode]

theorem sealed_encodeWith (event : Event) (price : Bytes) :
    Checksum.Sealed (event.encodeWith price) :=
  (Checksum.sealed_append_iff (Bytes.length_ofUInt32LE _)).mpr rfl

theorem toNat_ofNat_length_symbol (symbol : Symbol) :
    (UInt8.ofNat symbol.bytes.length).toNat = symbol.bytes.length := by
  have bound := symbol.size_le
  rw [← Symbol.length_bytes] at bound
  rw [UInt8.toNat_ofNat']
  omega

/-- What stands behind a symbol is sixteen bytes of price, twice eight bytes, and
the rest. -/
theorem numbers_parted (numbers : Bytes) :
    numbers = numbers.take 16 ++ ((numbers.drop 16).take 8 ++
      ((numbers.drop 24).take 8 ++ numbers.drop 32)) := by
  rw [show (32 : Nat) = 24 + 8 from rfl, ← List.drop_drop, List.take_append_drop,
    show (24 : Nat) = 16 + 8 from rfl, ← List.drop_drop, List.take_append_drop,
    List.take_append_drop]

/-- What is read as an event is its encoding, with some bytes that stand for its
price. -/
theorem exists_price_of_decode_eq_ok
    {data : Bytes}
    {event : Event}
    (read : decode data = .ok event) :
    ∃ price, price.length = 16 ∧ Decimal.unpack price = event.price ∧
      data = event.encodeWith price := by
  obtain ⟨tag, size, rest, rfl, length_rest, isSealed, fieldsRead⟩ :=
    decode_eq_ok_iff_fields.mp read
  obtain ⟨rfl, symbol_eq, price_eq, volume_eq, timestamp_eq⟩ :=
    decodeFields_eq_ok_iff.mp fieldsRead
  have length_symbol : event.symbol.bytes.length = size.toNat := by
    rw [← symbol_eq, List.length_take_of_le (by omega)]
  have size_eq : size = UInt8.ofNat event.symbol.bytes.length := by
    rw [length_symbol, UInt8.ofNat_toNat]
  have rest_eq := List.take_append_drop size.toNat rest
  have length_numbers : (rest.drop size.toNat).length = 36 := by
    rw [List.length_drop, length_rest, Nat.add_sub_cancel_left, tailSize]
  rw [symbol_eq] at rest_eq
  generalize rest.drop size.toNat = numbers at *
  have volumeBytes : (numbers.drop 16).take 8 = Bytes.ofUInt64LE event.volume := by
    rw [← volume_eq, Bytes.ofUInt64LE_ofNat_toNatLE]
    rw [List.length_take_of_le]
    rw [List.length_drop]
    omega
  have timestampBytes : (numbers.drop 24).take 8 = Bytes.ofUInt64LE event.timestamp := by
    rw [← timestamp_eq, Bytes.ofUInt64LE_ofNat_toNatLE]
    rw [List.length_take_of_le]
    rw [List.length_drop]
    omega
  have data_eq : mark :: version :: event.kind.tag :: size :: rest =
      event.encodeBodyWith (numbers.take 16) ++ numbers.drop 32 := by
    rw [← rest_eq, size_eq]
    conv_lhs => rw [numbers_parted numbers, volumeBytes, timestampBytes]
    simp only [encodeBodyWith, front, back, List.append_assoc, List.cons_append, List.nil_append]
  have length_sum : (numbers.drop 32).length = 4 := by
    rw [List.length_drop, length_numbers]
  rw [data_eq, Checksum.sealed_append_iff length_sum] at isSealed
  refine ⟨numbers.take 16, List.length_take_of_le (by omega), price_eq, ?_⟩
  rw [data_eq, isSealed, encodeWith]

/-- An encoding of an event is read as this event, with any bytes that stand for
its price. -/
theorem decode_encodeWith
    {event : Event}
    {price : Bytes}
    (length_price : price.length = 16)
    (price_eq : Decimal.unpack price = event.price) :
    decode (event.encodeWith price) = .ok event := by
  refine decode_eq_ok_iff_fields.mpr ⟨event.kind.tag, UInt8.ofNat event.symbol.bytes.length,
    event.symbol.bytes ++ (price ++ (Bytes.ofUInt64LE event.volume ++
      (Bytes.ofUInt64LE event.timestamp ++
        Bytes.ofUInt32LE (Checksum.crc32c (event.encodeBodyWith price))))),
    ?_, ?_, event.sealed_encodeWith price, ?_⟩
  · simp only [encodeWith, encodeBodyWith, front, back, List.append_assoc, List.cons_append,
      List.nil_append]
  · simp only [List.length_append, length_price, Bytes.length_ofUInt64LE,
      Bytes.length_ofUInt32LE, toNat_ofNat_length_symbol, tailSize]
  · rw [toNat_ofNat_length_symbol, decodeFields_eq_ok_iff, List.take_left, List.drop_left,
      show (24 : Nat) = 16 + 8 from rfl, ← List.drop_drop, List.take_left' length_price,
      List.drop_left' length_price, List.take_left' (Bytes.length_ofUInt64LE _),
      List.drop_left' (Bytes.length_ofUInt64LE _), List.take_left' (Bytes.length_ofUInt64LE _),
      Bytes.ofNat_toNatLE_ofUInt64LE, Bytes.ofNat_toNatLE_ofUInt64LE]
    exact ⟨rfl, rfl, price_eq, rfl, rfl⟩

/-! ## The rules -/

/-- The size of the symbol of encoded data: its fourth byte. -/
def symbolSize (data : Bytes) : Nat :=
  (data.getD 3 0).toNat

/-- The sixteen bytes that stand for the price of encoded data. -/
def priceBytes (data : Bytes) : Bytes :=
  (data.drop (4 + symbolSize data)).take 16

/-- The rules that encoded data keeps. -/
structure IsEncoding (data : Bytes) : Prop where
  mark_eq : data[0]? = some 0xE7
  version_eq : data[1]? = some 1
  tag_eq : data[2]? = some 0 ∨ data[2]? = some 1 ∨ data[2]? = some 2
  symbolSize_pos : 1 ≤ symbolSize data
  symbolSize_le : symbolSize data ≤ 32
  length_eq : data.length = 40 + symbolSize data
  /-- The bytes of the symbol are UTF-8. -/
  isText : (textOfBytes? ((data.drop 4).take (symbolSize data))).isSome = true
  /-- The last four bytes are the checksum of those before them. -/
  isSealed : Checksum.Sealed data

theorem symbolSize_encodeWith (event : Event) (price : Bytes) :
    symbolSize (event.encodeWith price) = event.symbol.bytes.length :=
  toNat_ofNat_length_symbol event.symbol

theorem length_encodeWith
    (event : Event)
    {price : Bytes}
    (length_price : price.length = 16) :
    (event.encodeWith price).length = 40 + event.symbol.bytes.length := by
  rw [encodeWith, encodeBodyWith, List.length_append, List.length_append, List.length_append,
    length_front, length_price, length_back, Bytes.length_ofUInt32LE, headSize]
  omega

theorem priceBytes_encodeWith
    (event : Event)
    {price : Bytes}
    (length_price : price.length = 16) :
    priceBytes (event.encodeWith price) = price := by
  have beginning : event.front.length = 4 + event.symbol.bytes.length := event.length_front
  rw [priceBytes, symbolSize_encodeWith, encodeWith, encodeBodyWith, List.append_assoc,
    List.append_assoc, List.drop_left' beginning, List.take_left' length_price]

theorem isEncoding_encodeWith
    (event : Event)
    {price : Bytes}
    (length_price : price.length = 16) :
    IsEncoding (event.encodeWith price) := by
  have size_pos := event.symbol.size_pos
  have size_le := event.symbol.size_le
  rw [← Symbol.length_bytes] at size_pos size_le
  have size_eq := event.symbolSize_encodeWith price
  have length_eq := event.length_encodeWith length_price
  rw [← size_eq] at size_pos size_le length_eq
  refine ⟨rfl, rfl, ?_, size_pos, size_le, length_eq, ?_, event.sealed_encodeWith price⟩
  · cases kind : event.kind <;> simp [encodeWith, encodeBodyWith, front, kind, Kind.tag]
  · have symbolBytes : ((event.encodeWith price).drop 4).take
        (symbolSize (event.encodeWith price)) = event.symbol.bytes := by
      rw [size_eq]
      simp only [encodeWith, encodeBodyWith, front, List.append_assoc, List.cons_append,
        List.nil_append, List.drop_succ_cons, List.drop_zero, List.take_left]
    rw [symbolBytes, Symbol.bytes, textOfBytes?_textBytes]
    rfl

/-- What keeps the rules is read. -/
theorem IsEncoding.exists_decode_eq_ok
    {data : Bytes}
    (isEncoding : IsEncoding data) :
    ∃ event, decode data = .ok event := by
  obtain ⟨mark_eq, version_eq, tag_eq, size_pos, size_le, length_eq, isText, isSealed⟩ :=
    isEncoding
  match data with
  | [] | [_] | [_, _] | [_, _, _] => simp [symbolSize] at length_eq
  | first :: second :: tag :: size :: rest =>
      have size_eq : symbolSize (first :: second :: tag :: size :: rest) = size.toNat := rfl
      rw [size_eq] at size_pos size_le length_eq isText
      obtain ⟨kind, rfl⟩ : ∃ kind : Kind, tag = kind.tag := by
        rcases tag_eq with tick | trade | orderUpdate
        · exact ⟨.tick, Option.some.inj tick⟩
        · exact ⟨.trade, Option.some.inj trade⟩
        · exact ⟨.orderUpdate, Option.some.inj orderUpdate⟩
      have length_rest : rest.length = size.toNat + tailSize := by
        simp only [List.length_cons] at length_eq
        rw [tailSize]
        omega
      obtain ⟨text, isTextOf⟩ := Option.isSome_iff_exists.mp isText
      have bytes_eq : rest.take size.toNat = textBytes text :=
        textOfBytes?_eq_some_iff.mp isTextOf
      have length_text : text.utf8ByteSize = size.toNat := by
        change (textBytes text).length = _
        rw [← bytes_eq, List.length_take_of_le (by omega)]
      refine ⟨⟨kind, ⟨text, by omega, by omega⟩, _, _, _⟩, decode_eq_ok_iff_fields.mpr
        ⟨kind.tag, size, rest, ?_, length_rest, isSealed, decodeFields_eq_ok_iff.mpr
          ⟨rfl, bytes_eq, rfl, rfl, rfl⟩⟩⟩
      rw [show mark = first from (Option.some.inj mark_eq).symm,
        show version = second from (Option.some.inj version_eq).symm]

theorem isEncoding_iff_exists_decode_eq_ok (data : Bytes) :
    IsEncoding data ↔ ∃ event, decode data = .ok event := by
  refine ⟨IsEncoding.exists_decode_eq_ok, ?_⟩
  rintro ⟨event, read⟩
  obtain ⟨price, length_price, _, rfl⟩ := exists_price_of_decode_eq_ok read
  exact event.isEncoding_encodeWith length_price

/-! ## Both directions -/

/-- Encodings of an event that differ in the bytes of its price agree before them,
and after them up to the checksum. -/
theorem getElem?_encodeWith_eq
    (event : Event)
    {left right : Bytes}
    (length_left : left.length = 16)
    (length_right : right.length = 16)
    {index : Nat}
    (outside : index < 4 + event.symbol.bytes.length ∨ 20 + event.symbol.bytes.length ≤ index)
    (before : index < 36 + event.symbol.bytes.length) :
    (event.encodeWith left)[index]? = (event.encodeWith right)[index]? := by
  have length_front : event.front.length = 4 + event.symbol.bytes.length := event.length_front
  have inFront (price : Bytes) (within : index < 4 + event.symbol.bytes.length) :
      (event.encodeWith price)[index]? = event.front[index]? := by
    rw [encodeWith, encodeBodyWith, List.append_assoc,
      List.getElem?_append_left (by omega)]
  have inBack (price : Bytes) (length_price : price.length = 16)
      (behind : 20 + event.symbol.bytes.length ≤ index) :
      (event.encodeWith price)[index]? =
        event.back[index - (20 + event.symbol.bytes.length)]? := by
    have length_beginning : (event.front ++ price).length = 20 + event.symbol.bytes.length := by
      rw [List.length_append, length_front, length_price]
      omega
    rw [encodeWith, encodeBodyWith, ← List.append_assoc, List.append_assoc,
      List.getElem?_append_right (by omega), length_beginning,
      List.getElem?_append_left (by rw [length_back]; omega)]
  rcases outside with within | behind
  · rw [inFront left within, inFront right within]
  · rw [inBack left length_left behind, inBack right length_right behind]

/-- Encoding and reading are exact.  Every event is read back as it is from an
encoding of the size that is told in advance.  What is read are just the byte
strings that keep the rules; the event that is read gives back every byte outside
the price and the checksum, and the whole string if and only if the bytes of the
price are those that a decimal is packed into. -/
theorem decode_exact :
    (∀ event : Event, decode event.encode = .ok event ∧
      event.encode.length = event.encodedSize ∧ event.encodedSize ≤ maxEncodedSize) ∧
    ∀ data : Bytes,
      ((∃ event, decode data = .ok event) ↔ IsEncoding data) ∧
      ∀ event, decode data = .ok event →
        Decimal.unpack (priceBytes data) = event.price ∧
        (∀ index, index < 4 + symbolSize data ∨ 20 + symbolSize data ≤ index →
          index < 36 + symbolSize data → event.encode[index]? = data[index]?) ∧
        (event.encode = data ↔
          (Decimal.unpack (priceBytes data)).pack = priceBytes data) := by
  refine ⟨fun event => ⟨event.decode_encode, event.length_encode, event.encodedSize_le⟩,
    fun data => ⟨(isEncoding_iff_exists_decode_eq_ok data).symm, fun event read => ?_⟩⟩
  obtain ⟨price, length_price, price_eq, rfl⟩ := exists_price_of_decode_eq_ok read
  rw [priceBytes_encodeWith event length_price, symbolSize_encodeWith, encode_eq_encodeWith]
  refine ⟨price_eq, fun index outside before => ?_, ?_⟩
  · exact event.getElem?_encodeWith_eq event.price.length_pack length_price outside before
  · rw [price_eq]
    constructor
    · intro same
      have packed := event.priceBytes_encodeWith event.price.length_pack
      rw [same, priceBytes_encodeWith event length_price] at packed
      exact packed.symm
    · intro canonical
      rw [canonical]

/-- A tick of which the price is 1.50. -/
def sample : Event where
  kind := .tick
  symbol := ⟨"ETH", by decide, by decide⟩
  price := ⟨false, 2, 150, by decide, by decide⟩
  volume := 7
  timestamp := 9

/-- The same price with a bit set that is not read. -/
def spareBit : Bytes :=
  [1, 0, 2, 0, 150, 0, 0, 0, 0, 0, 0, 0, 0, 0, 0, 0]

/-- Bytes of a price that are not packed are read, and are not given back. -/
theorem decode_exact_spareBit :
    decode (sample.encodeWith spareBit) = .ok sample ∧
      sample.encode ≠ sample.encodeWith spareBit := by
  have read : decode (sample.encodeWith spareBit) = .ok sample :=
    decode_encodeWith rfl (by decide)
  refine ⟨read, fun same => ?_⟩
  have canonical := ((decode_exact.2 _).2 sample read).2.2.mp same
  rw [priceBytes_encodeWith sample rfl] at canonical
  exact absurd canonical (by decide)

/-! ## Damage -/

/-- Damage within four consecutive bytes of an encoded event is noticed, wherever
the four bytes are. -/
theorem decode_eq_error_of_burst
    {event : Event}
    {damaged : Bytes}
    (burst : Bytes.Burst event.encode damaged)
    (different : damaged ≠ event.encode) :
    ∃ error, decode damaged = .error error := by
  cases read : decode damaged with
  | error error => exact ⟨error, rfl⟩
  | ok other =>
      have damagedRules := (isEncoding_iff_exists_decode_eq_ok damaged).mpr ⟨other, read⟩
      have rules := (isEncoding_iff_exists_decode_eq_ok event.encode).mpr
        ⟨event, event.decode_encode⟩
      exact absurd (rules.isSealed.eq_of_burst damagedRules.isSealed burst).symm different

/-- The encoding of the sample with other bytes at the end of the time and at the
start of the checksum. -/
def straddled : Bytes :=
  sample.encode.overwrite 37 [1, 2, 3, 4]

theorem decode_eq_error_of_burst_straddled :
    Bytes.Burst sample.encode straddled ∧ straddled ≠ sample.encode ∧
      ∃ error, decode straddled = .error error := by
  have burst : Bytes.Burst sample.encode straddled :=
    Bytes.burst_overwrite (by decide) (by decide +kernel)
  have different : straddled ≠ sample.encode := by decide +kernel
  exact ⟨burst, different, decode_eq_error_of_burst burst different⟩

end Event
end EventRelay
