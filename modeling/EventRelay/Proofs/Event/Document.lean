import EventRelay.Proofs.Decimal.Text
import EventRelay.Proofs.Event.RoundTrip
import EventRelay.Proofs.Json.Number
import EventRelay.Proofs.Json.Text

/-!
# Events are read back from their documents

Each value of a document is read up to what follows it.  So a document is read field by
field, and every event comes back, with the scale of its price; only a price of zero
loses its sign.  A document whose symbol has no bytes or too many is refused.
-/

namespace EventRelay

/-- An event as it is read: a price of zero has no sign. -/
def Event.withoutZeroSign (event : Event) : Event :=
  { event with price := event.price.withoutZeroSign }

namespace Event

open Json

/-! ## Single values -/

theorem next_cons
    {first : Char}
    (notBlank : isBlank first = false)
    (rest : List Char) :
    next (first :: rest) = .ok (first, rest) := by
  rw [next, skipBlanks, List.dropWhile_cons_of_neg (by simp [notBlank])]

theorem next_quote (rest : List Char) : next (quote :: rest) = .ok (quote, rest) :=
  next_cons (by decide) rest

theorem expect_colon (rest : List Char) : expect ':' (':' :: rest) = .ok rest := by
  simp only [expect, next_cons (show isBlank ':' = false by decide), bind, Except.bind, if_true]
  rfl

theorem writeString_append (text : String) (rest : List Char) :
    writeString text ++ rest =
      quote :: (text.toList.flatMap writeCharacter ++ quote :: rest) := by
  simp [writeString]

theorem readTextValue_writeString (expected text : String) (rest : List Char) :
    readTextValue expected (writeString text ++ rest) = .ok (text, rest) := by
  simp only [readTextValue, writeString_append, next_quote, bind, Except.bind, if_true,
    readString_flatMap, String.ofList_toList]
  rfl

theorem readKind_writeString (kind : Kind) (rest : List Char) :
    readKind (writeString kind.label ++ rest) = .ok (kind, rest) := by
  have notBrace : quote ≠ openBrace := by decide
  simp only [readKind, writeString_append, next_quote, bind, Except.bind, if_neg notBrace,
    if_true, readString_flatMap, String.ofList_toList, kindOfName, Kind.ofLabel?_label]
  rfl

theorem readSymbol_writeString (text : String) (rest : List Char) :
    readSymbol (writeString text ++ rest) =
      match Symbol.ofText text with
      | .ok symbol => .ok (symbol, rest)
      | .error error => .error (.mismatch (.rule error.message)) := by
  simp only [readSymbol, readTextValue_writeString, bind, Except.bind]
  rfl

theorem readPrice_writeString (price : Decimal) (rest : List Char) :
    readPrice (writeString price.text ++ rest) = .ok (price.withoutZeroSign, rest) := by
  simp only [readPrice, readTextValue_writeString, bind, Except.bind, Decimal.read_text]
  rfl

theorem isBlank_of_isDigit
    {character : Char}
    (digit : isDigit character = true) :
    isBlank character = false := by
  rw [Bool.eq_false_iff]
  intro blank
  simp only [isBlank, Bool.or_eq_true, decide_eq_true_iff] at blank
  rcases blank with ((rfl | rfl) | rfl) | rfl <;> exact absurd digit (by decide)

theorem readCount_toDigits
    {rest : List Char}
    (ends : EndsNumber rest)
    (count : UInt64) :
    readCount (Nat.toDigits 10 count.toNat ++ rest) = .ok (count, rest) := by
  have numberRead := readNumber_toDigits count.toNat_lt ends
  have areDigits := areDigits_toDigits count.toNat
  cases digits : Nat.toDigits 10 count.toNat with
  | nil => exact absurd digits Nat.toDigits_ne_nil
  | cons first others =>
      rw [digits, List.cons_append] at numberRead
      rw [digits, areDigits_cons, ← isDigit_eq] at areDigits
      simp only [readCount, List.cons_append, next_cons (isBlank_of_isDigit areDigits.1), bind,
        Except.bind, areDigits.1, Bool.or_true, if_true, numberRead, UInt64.ofNat_toNat]
      rfl

/-! ## Single fields -/

/-- Reading a field, given by its name and its written value, takes the fields that were
read before to those that are read after it. -/
def ReadsField (before : Fields) (field : String × List Char) (after : Fields) : Prop :=
  ∀ rest, EndsNumber rest →
    before.readField field.1 (':' :: (field.2 ++ rest)) = .ok (after, rest)

section Fields

variable {fields : Fields}

theorem readsField_kind (unread : fields.kind = none) (kind : Kind) :
    ReadsField fields ("kind", writeString kind.label) { fields with kind := some kind } := by
  intro rest _
  simp [Fields.readField, unread, expect_colon, readKind_writeString, bind, Except.bind]
  rfl

theorem readsField_symbol
    (unread : fields.symbol = none)
    {text : String}
    {symbol : Symbol}
    (valid : Symbol.ofText text = .ok symbol) :
    ReadsField fields ("symbol", writeString text) { fields with symbol := some symbol } := by
  intro rest _
  simp [Fields.readField, unread, expect_colon, readSymbol_writeString, valid, bind, Except.bind]
  rfl

theorem readsField_price (unread : fields.price = none) (price : Decimal) :
    ReadsField fields ("price", writeString price.text)
      { fields with price := some price.withoutZeroSign } := by
  intro rest _
  simp [Fields.readField, unread, expect_colon, readPrice_writeString, bind, Except.bind]
  rfl

theorem readsField_volume (unread : fields.volume = none) (volume : UInt64) :
    ReadsField fields ("volume", (toString volume.toNat).toList)
      { fields with volume := some volume } := by
  intro rest ends
  simp [Fields.readField, unread, expect_colon, readCount_toDigits ends, bind, Except.bind]
  rfl

theorem readsField_timestamp (unread : fields.timestamp = none) (timestamp : UInt64) :
    ReadsField fields ("timestamp", (toString timestamp.toNat).toList)
      { fields with timestamp := some timestamp } := by
  intro rest ends
  simp [Fields.readField, unread, expect_colon, readCount_toDigits ends, bind, Except.bind]
  rfl

/-- A symbol without bytes, or with too many, is refused by its rule. -/
theorem readField_symbol_eq_error
    (unread : fields.symbol = none)
    {text : String}
    {error : EventError}
    (invalid : Symbol.ofText text = .error error)
    (rest : List Char) :
    fields.readField "symbol" (':' :: (writeString text ++ rest)) =
      .error (.mismatch (.rule error.message)) := by
  simp [Fields.readField, unread, expect_colon, readSymbol_writeString, invalid, bind,
    Except.bind]

end Fields

/-! ## Objects -/

/-- Written fields up to the closing brace, with a comma before each but the first. -/
def written : (isFirst : Bool) → List (String × List Char) → List Char
  | _, [] => [closeBrace]
  | isFirst, field :: fields =>
      (if isFirst then [] else [',']) ++ (writeField field.1 field.2 ++ written false fields)

theorem endsNumber_written (fields : List (String × List Char)) (rest : List Char) :
    EndsNumber (written false fields ++ rest) := by
  cases fields with
  | nil => exact (endsNumber_cons _).mpr (by decide)
  | cons field fields => exact (endsNumber_cons _).mpr (by decide)

theorem length_lt_length_written (isFirst : Bool) (fields : List (String × List Char)) :
    fields.length < (written isFirst fields).length := by
  induction fields generalizing isFirst with
  | nil => exact Nat.one_pos
  | cons field fields inductionHypothesis =>
      have shorter := inductionHypothesis false
      simp only [written, writeField, writeString, List.length_append, List.length_cons]
      omega

/-- Fields are read one after the other. -/
inductive ReadsFields : Fields → List (String × List Char) → Fields → Prop
  | nil (fields : Fields) : ReadsFields fields [] fields
  | cons {before between after : Fields} {field : String × List Char}
      {fields : List (String × List Char)} :
      ReadsField before field between → ReadsFields between fields after →
        ReadsFields before (field :: fields) after

theorem nextName_quote (isFirst : Bool) (rest : List Char) :
    nextName isFirst ((if isFirst then [] else [',']) ++ quote :: rest) =
      .ok (some rest, []) := by
  have notBrace : quote ≠ closeBrace := by decide
  cases isFirst with
  | true =>
      simp only [nextName, if_true, List.nil_append, next_quote, bind, Except.bind,
        if_neg notBrace]
      rfl
  | false =>
      have commaFound := next_cons (show isBlank ',' = false by decide) (quote :: rest)
      have notComma : ',' ≠ closeBrace := by decide
      simp only [nextName, Bool.false_eq_true, if_false, List.singleton_append, commaFound, bind,
        Except.bind, if_neg notComma, if_true, next_quote]
      rfl

theorem nextName_closeBrace (isFirst : Bool) (rest : List Char) :
    nextName isFirst (closeBrace :: rest) = .ok (none, rest) := by
  simp only [nextName, next_cons (show isBlank closeBrace = false by decide), bind, Except.bind,
    if_true]
  rfl

/-- The next field is the one that is written first. -/
theorem readFields_written_cons
    (fuel : Nat)
    (isFirst : Bool)
    (before : Fields)
    (field : String × List Char)
    (fields : List (String × List Char))
    (rest : List Char) :
    readFields (fuel + 1) isFirst before (written isFirst (field :: fields) ++ rest) =
      (before.readField field.1 (':' :: (field.2 ++ (written false fields ++ rest)))).bind
        fun result => readFields fuel false result.1 result.2 := by
  have parts : written isFirst (field :: fields) ++ rest =
      (if isFirst then [] else [',']) ++ quote :: (field.1.toList.flatMap writeCharacter ++
        quote :: ':' :: (field.2 ++ (written false fields ++ rest))) := by
    simp [written, writeField, writeString]
  rw [parts, readFields, nextName_quote]
  simp only [bind, Except.bind, readString_flatMap, String.ofList_toList]

/-- Written fields are read up to the closing brace. -/
theorem ReadsFields.readFields_eq
    {before after : Fields}
    {fields : List (String × List Char)}
    (reads : ReadsFields before fields after)
    {fuel : Nat}
    (enough : fields.length < fuel)
    (isFirst : Bool)
    (rest : List Char) :
    readFields fuel isFirst before (written isFirst fields ++ rest) = .ok (after, rest) := by
  obtain ⟨fuel, rfl⟩ := Nat.exists_eq_add_of_lt (Nat.zero_lt_of_lt enough)
  rw [Nat.zero_add] at enough ⊢
  induction reads generalizing fuel isFirst with
  | nil fields =>
      rw [written, List.singleton_append, readFields, nextName_closeBrace]
      rfl
  | @cons before between after field fields readsField _ inductionHypothesis =>
      rw [List.length_cons, Nat.add_lt_add_iff_right] at enough
      obtain ⟨fewer, rfl⟩ := Nat.exists_eq_add_of_lt (Nat.zero_lt_of_lt enough)
      rw [Nat.zero_add] at enough ⊢
      rw [readFields_written_cons, readsField _ (endsNumber_written fields rest)]
      exact inductionHypothesis false fewer enough

/-! ## Documents -/

/-- The fields of an event with another text for its symbol. -/
def fieldsWith (event : Event) (text : String) : List (String × List Char) :=
  [("kind", writeString event.kind.label),
    ("symbol", writeString text),
    ("price", writeString event.price.text),
    ("volume", (toString event.volume.toNat).toList),
    ("timestamp", (toString event.timestamp.toNat).toList)]

/-- The document of an event with another text for its symbol. -/
def documentWith (event : Event) (text : String) : String :=
  String.ofList (openBrace :: written true (event.fieldsWith text))

theorem document_eq (event : Event) : event.document = event.documentWith event.symbol.text := by
  simp [document, documentWith, writtenFields, fieldsWith, written, List.intercalate]

/-- With the text of a symbol all fields are read. -/
theorem readsFields_fieldsWith
    (event : Event)
    {text : String}
    {symbol : Symbol}
    (valid : Symbol.ofText text = .ok symbol) :
    ReadsFields .none (event.fieldsWith text)
      ⟨some event.kind, some symbol, some event.price.withoutZeroSign, some event.volume,
        some event.timestamp⟩ :=
  .cons (readsField_kind rfl event.kind)
    (.cons (readsField_symbol rfl valid)
      (.cons (readsField_price rfl event.price)
        (.cons (readsField_volume rfl event.volume)
          (.cons (readsField_timestamp rfl event.timestamp) (.nil _)))))

/-- With any other text the second field is refused. -/
theorem readFields_fieldsWith_eq_error
    (event : Event)
    {text : String}
    {error : EventError}
    (invalid : Symbol.ofText text = .error error)
    (fuel : Nat)
    (rest : List Char) :
    readFields (fuel + 2) true .none (written true (event.fieldsWith text) ++ rest) =
      .error (.mismatch (.rule error.message)) := by
  rw [fieldsWith, readFields_written_cons,
    readsField_kind rfl event.kind _ (endsNumber_written _ _), Except.bind,
    readFields_written_cons, readField_symbol_eq_error rfl invalid]
  rfl

theorem readValue_documentWith (event : Event) (text : String) :
    readValue (event.documentWith text).toList =
      match Symbol.ofText text with
      | .ok symbol => .ok ({ event.withoutZeroSign with symbol := symbol }, [])
      | .error error => .error (.mismatch (.rule error.message)) := by
  have notBracket : openBrace ≠ '[' := by decide
  have enough := length_lt_length_written true (event.fieldsWith text)
  have all := List.append_nil (written true (event.fieldsWith text))
  rw [documentWith, String.toList_ofList]
  simp only [readValue, next_cons (show isBlank openBrace = false by decide), bind, Except.bind,
    if_neg notBracket, if_true]
  cases valid : Symbol.ofText text with
  | ok symbol =>
      have read := (event.readsFields_fieldsWith valid).readFields_eq
        (Nat.lt_succ_of_lt enough) true []
      rw [all] at read
      rw [read]
      rfl
  | error error =>
      obtain ⟨fuel, length_eq⟩ := Nat.exists_eq_add_of_lt enough
      have refused := event.readFields_fieldsWith_eq_error valid
        ((event.fieldsWith text).length + fuel) []
      rw [all] at refused
      rw [length_eq, refused]

/-- The document of an event with any text for its symbol is read just when a symbol may
have this text, and gives this event. -/
theorem ofDocument_documentWith (event : Event) (text : String) :
    ofDocument (event.documentWith text) =
      match Symbol.ofText text with
      | .ok symbol => .ok { event.withoutZeroSign with symbol := symbol }
      | .error error => .error (.mismatch (.rule error.message)) := by
  rw [ofDocument, readValue_documentWith]
  cases Symbol.ofText text with
  | ok symbol => rfl
  | error error => rfl

/-- What comes back of an event: an equal event whose price has the same scale and
coefficient; it is the same event unless its price is zero. -/
structure Survives (event back : Event) : Prop where
  agrees : event.agrees back = true
  scale_eq : back.price.scale = event.price.scale
  coefficient_eq : back.price.coefficient = event.price.coefficient
  eq_of_ne_zero : event.price.coefficient ≠ 0 → back = event

theorem survives_withoutZeroSign (event : Event) : event.Survives event.withoutZeroSign where
  agrees := by
    have same := event.price.sameNumber_withoutZeroSign
    simp [Event.agrees, withoutZeroSign, same]
  scale_eq := rfl
  coefficient_eq := rfl
  eq_of_ne_zero := by
    intro notZero
    rw [withoutZeroSign, Decimal.withoutZeroSign_eq_self notZero]

theorem isOk_ofText_iff (text : String) :
    (Symbol.ofText text).isOk = true ↔ 0 < text.utf8ByteSize ∧ text.utf8ByteSize ≤ 32 := by
  unfold Symbol.ofText
  split
  · rename_i size_pos
    split
    · rename_i size_le
      exact iff_of_true rfl ⟨size_pos, size_le⟩
    · rename_i tooLong
      exact iff_of_false Bool.false_ne_true fun size => tooLong size.2
  · rename_i empty
    exact iff_of_false Bool.false_ne_true fun size => empty size.1

/-- Every event is read back from its document, and only a price of zero loses its sign.
With another text for the symbol the document is read just when this text has from one
to 32 bytes; and an event that is read from any document has a symbol of from one to 32
bytes. -/
theorem survives_document (event : Event) :
    (∃ back, ofDocument event.document = .ok back ∧ event.Survives back) ∧
      event.document = event.documentWith event.symbol.text ∧
      (∀ text, (ofDocument (event.documentWith text)).isOk = true ↔
        0 < text.utf8ByteSize ∧ text.utf8ByteSize ≤ 32) ∧
      ∀ document back, ofDocument document = .ok back →
        0 < back.symbol.text.utf8ByteSize ∧ back.symbol.text.utf8ByteSize ≤ 32 := by
  refine ⟨⟨event.withoutZeroSign, ?_, event.survives_withoutZeroSign⟩, event.document_eq, ?_, ?_⟩
  · rw [document_eq, ofDocument_documentWith, Symbol.ofText_text]
    rfl
  · intro text
    rw [ofDocument_documentWith, ← isOk_ofText_iff]
    cases Symbol.ofText text <;> rfl
  · intro document back _
    exact ⟨back.symbol.size_pos, back.symbol.size_le⟩

/-- A trade at the lowest price with 27 digits after the point.  The symbol has a quote, a
backslash, a control character and a character of two bytes. -/
def awkward : Event where
  kind := .trade
  symbol := ⟨"\"\\\u0001é", by decide, by decide⟩
  price := ⟨true, 27, 79228162514264337593543950335, by decide, by decide⟩
  volume := 18446744073709551615
  timestamp := 0

/-- All of it comes back, and its document without a symbol is refused. -/
theorem survives_document_awkward :
    awkward.document =
        "\x7b\"kind\":\"trade\",\"symbol\":\"\\\"\\\\\\u0001é\"," ++
          "\"price\":\"-79.228162514264337593543950335\"," ++
          "\"volume\":18446744073709551615,\"timestamp\":0\x7d" ∧
      ofDocument awkward.document = .ok awkward ∧
      (ofDocument (awkward.documentWith "")).isOk = false := by
  obtain ⟨⟨back, read, survives⟩, _, isRead_iff, _⟩ := survives_document awkward
  refine ⟨by decide +kernel, ?_, ?_⟩
  · rw [read, survives.eq_of_ne_zero (by decide)]
  · rw [Bool.eq_false_iff]
    intro isRead
    exact absurd ((isRead_iff "").mp isRead).1 (by decide)

end Event
end EventRelay
