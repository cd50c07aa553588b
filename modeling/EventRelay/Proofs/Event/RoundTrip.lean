import EventRelay.Event.Encoding
import EventRelay.Proofs.Bytes

/-!
# Events are read back

The encoding of an event is read back as just this event: the sign and the scale
of its price are kept, and not only the number that the price stands for.
-/

namespace EventRelay

theorem textOfBytes?_textBytes (text : String) :
    textOfBytes? (textBytes text) = some text := by
  unfold textOfBytes? textBytes
  rw [Array.toArray_toList]
  exact dif_pos text.isValidUTF8

@[simp] theorem Symbol.ofText_text (symbol : Symbol) :
    Symbol.ofText symbol.text = .ok symbol := by
  unfold Symbol.ofText
  rw [dif_pos symbol.size_pos, dif_pos symbol.size_le]

/-! ## Prices -/

theorem Decimal.flags_lt (decimal : Decimal) :
    decimal.flags < Bytes.cardinality 4 := by
  have scale_le := decimal.scale_le
  simp only [Decimal.flags, Bytes.cardinality]
  split <;> omega

/-- A price is unpacked with its sign and its scale. -/
theorem Decimal.unpack_pack (decimal : Decimal) :
    Decimal.unpack decimal.pack = decimal := by
  have flagsRead : Bytes.toNatLE (decimal.pack.take 4) = decimal.flags := by
    rw [Decimal.pack, List.take_left' (Bytes.length_ofNatLE _ _), Bytes.toNatLE_ofNatLE,
      Nat.mod_eq_of_lt decimal.flags_lt]
  have coefficientRead :
      Bytes.toNatLE ((decimal.pack.drop 4).take 12) = decimal.coefficient := by
    rw [Decimal.pack, List.drop_left' (Bytes.length_ofNatLE _ _),
      List.take_of_length_le (Nat.le_of_eq (Bytes.length_ofNatLE _ _)), Bytes.toNatLE_ofNatLE]
    exact Nat.mod_eq_of_lt decimal.coefficient_lt
  have scale_le := decimal.scale_le
  have scaleRead : decimal.flags / 0x10000 % 32 = decimal.scale := by
    simp only [Decimal.flags]
    split <;> omega
  have signRead : decide (decimal.flags / 0x80000000 % 2 = 1) = decimal.negative := by
    have bound : decimal.scale * 0x10000 < 0x80000000 := by omega
    cases sign : decimal.negative <;> simp [Decimal.flags, sign] <;> omega
  unfold Decimal.unpack Decimal.ofWords
  simp only [flagsRead, coefficientRead, scaleRead, signRead, scale_le, dite_true]

/-! ## Encodings -/

namespace Event

theorem length_encodeBody (event : Event) :
    event.encodeBody.length = event.encodedSize - 4 := by
  simp only [encodeBody, encodedSize, headSize, tailSize, List.length_append, List.length_cons,
    List.length_nil, Decimal.length_pack, Bytes.length_ofUInt64LE]
  omega

@[simp] theorem length_encode (event : Event) :
    event.encode.length = event.encodedSize := by
  rw [encode, List.length_append, length_encodeBody, Bytes.length_ofUInt32LE, encodedSize, tailSize]
  omega

theorem encodedSize_le (event : Event) : event.encodedSize ≤ maxEncodedSize := by
  have bound := event.symbol.size_le
  rw [← Symbol.length_bytes] at bound
  simp only [encodedSize, maxEncodedSize, maxSymbolSize]
  omega

/-- The fields of an event are read back, whatever stands behind them. -/
theorem decodeFields_encode (event : Event) (rest : Bytes) :
    decodeFields event.kind.tag event.symbol.bytes.length
        (event.symbol.bytes ++ (event.price.pack ++ (Bytes.ofUInt64LE event.volume ++
          (Bytes.ofUInt64LE event.timestamp ++ rest)))) = .ok event := by
  have symbolRead : textOfBytes? event.symbol.bytes = some event.symbol.text :=
    textOfBytes?_textBytes event.symbol.text
  unfold decodeFields
  rw [List.take_left, List.drop_left]
  generalize numbers_eq : event.price.pack ++ (Bytes.ofUInt64LE event.volume ++
    (Bytes.ofUInt64LE event.timestamp ++ rest)) = numbers
  have priceRead : numbers.take 16 = event.price.pack := by
    rw [← numbers_eq, List.take_left' event.price.length_pack]
  have behindPrice : numbers.drop 16 = Bytes.ofUInt64LE event.volume ++
      (Bytes.ofUInt64LE event.timestamp ++ rest) := by
    rw [← numbers_eq, List.drop_left' event.price.length_pack]
  have volumeRead : (numbers.drop 16).take 8 = Bytes.ofUInt64LE event.volume := by
    rw [behindPrice, List.take_left' (Bytes.length_ofUInt64LE _)]
  have timestampRead : (numbers.drop 24).take 8 = Bytes.ofUInt64LE event.timestamp := by
    rw [show (24 : Nat) = 16 + 8 from rfl, ← List.drop_drop, behindPrice,
      List.drop_left' (Bytes.length_ofUInt64LE _), List.take_left' (Bytes.length_ofUInt64LE _)]
  simp only [Kind.ofTag_tag, symbolRead, Symbol.ofText_text, priceRead, volumeRead, timestampRead,
    Decimal.unpack_pack, Bytes.ofNat_toNatLE_ofUInt64LE, bind, Except.bind]
  rfl

/-- An encoded event is read back. -/
theorem decode_encode (event : Event) : decode event.encode = .ok event := by
  have sizeRead : (UInt8.ofNat event.symbol.bytes.length).toNat = event.symbol.bytes.length := by
    have bound := event.symbol.size_le
    rw [← Symbol.length_bytes] at bound
    rw [UInt8.toNat_ofNat']
    omega
  have total : headSize + event.symbol.bytes.length + tailSize = event.encodedSize := rfl
  have body : event.encode.take (event.encodedSize - 4) = event.encodeBody := by
    rw [encode, List.take_left' event.length_encodeBody]
  have sum : event.encode.drop (event.encodedSize - 4) =
      Bytes.ofUInt32LE (Checksum.crc32c event.encodeBody) := by
    rw [encode, List.drop_left' event.length_encodeBody]
  have parts : event.encode = mark :: version :: event.kind.tag ::
      UInt8.ofNat event.symbol.bytes.length :: (event.symbol.bytes ++ (event.price.pack ++
        (Bytes.ofUInt64LE event.volume ++ (Bytes.ofUInt64LE event.timestamp ++
          Bytes.ofUInt32LE (Checksum.crc32c event.encodeBody))))) := by
    simp only [encode, encodeBody, List.append_assoc, List.cons_append, List.nil_append]
  unfold decode
  split
  · rename_i first second tag size rest isEncoding
    rw [parts] at isEncoding
    injection isEncoding with isMark isEncoding
    injection isEncoding with isVersion isEncoding
    injection isEncoding with isTag isEncoding
    injection isEncoding with isSize isRest
    rw [← isMark, ← isVersion, ← isTag, ← isSize, ← isRest, sizeRead, total]
    simp only [body, sum, Bytes.ofNat_toNatLE_ofUInt32LE, length_encode, decodeFields_encode,
      ne_eq, not_true_eq_false, if_false, Nat.lt_irrefl]
  · rename_i short
    exact absurd parts (short _ _ _ _ _)

end Event
end EventRelay
