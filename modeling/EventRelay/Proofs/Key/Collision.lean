import EventRelay.Proofs.Event.RoundTrip
import EventRelay.Proofs.Key.Order
import EventRelay.Proofs.Log.Accumulation
import EventRelay.Relay.Publishing

/-!
# Which events share a key

Symbols of at most eight bytes are filled up with zeros, so two of them have one
label just if they are equal but for zeros at their ends.  Two events of one time
with such symbols share a key, and the one that is stored later takes the place
of the other.  Symbols that do not end in a zero byte keep apart.
-/

namespace EventRelay

/-! ## Zeros at the end -/

/-- Bytes that are equal but for zeros at the end of one of them. -/
def Bytes.EqualButZeros (left right : Bytes) : Prop :=
  ∃ count, left = right ++ List.replicate count 0 ∨ right = left ++ List.replicate count 0

/-- Bytes that do not end in a zero are equal if they are but for zeros. -/
theorem Bytes.EqualButZeros.eq
    {left right : Bytes}
    (equal : EqualButZeros left right)
    (leftEnd : left.getLast? ≠ some 0)
    (rightEnd : right.getLast? ≠ some 0) :
    left = right := by
  have noZeros : ∀ (bytes : Bytes) (count : Nat),
      (bytes ++ List.replicate count 0).getLast? ≠ some 0 → count = 0 := by
    intro bytes count notZero
    cases count with
    | zero => rfl
    | succ count => simp [List.replicate_succ'] at notZero
  obtain ⟨count, rfl | rfl⟩ := equal
  · rw [noZeros right count leftEnd, List.replicate_zero, List.append_nil]
  · rw [noZeros left count rightEnd, List.replicate_zero, List.append_nil]

/-! ## Labels -/

namespace Key

open Bytes (EqualButZeros)

theorem label_of_length_le
    {symbol : Bytes}
    (short : symbol.length ≤ labelSize) :
    label symbol = symbol ++ List.replicate (labelSize - symbol.length) 0 := by
  rw [label, List.take_of_length_le short]

/-- Zeros at the end of a symbol do not show in its label. -/
theorem label_append_zeros
    {symbol : Bytes}
    {count : Nat}
    (short : (symbol ++ List.replicate count 0).length ≤ labelSize) :
    label (symbol ++ List.replicate count 0) = label symbol := by
  rw [List.length_append, List.length_replicate] at short
  have filling : count + (labelSize - (symbol.length + count)) = labelSize - symbol.length := by
    omega
  rw [label_of_length_le (by simpa using short), label_of_length_le (by omega),
    List.length_append, List.length_replicate, List.append_assoc, List.replicate_append_replicate,
    filling]

/-- A label shows all bytes of a symbol, so a longer symbol of the same label has
only zeros more. -/
theorem eq_append_zeros_of_label_eq
    {left right : Bytes}
    (shorter : left.length ≤ right.length)
    (short : right.length ≤ labelSize)
    (same : label left = label right) :
    right = left ++ List.replicate (right.length - left.length) 0 := by
  have shown := congrArg (List.take right.length) same
  rw [label_of_length_le short, label_of_length_le (Nat.le_trans shorter short),
    List.take_left, List.take_append, List.take_of_length_le shorter, List.take_replicate,
    Nat.min_eq_left (by omega)] at shown
  exact shown.symm

/-- Two symbols of at most eight bytes have one label just if they are equal but for
zeros. -/
theorem label_eq_iff
    {left right : Bytes}
    (leftShort : left.length ≤ labelSize)
    (rightShort : right.length ≤ labelSize) :
    label left = label right ↔ EqualButZeros left right := by
  constructor
  · intro same
    rcases Nat.le_total left.length right.length with shorter | longer
    · exact ⟨_, Or.inr (eq_append_zeros_of_label_eq shorter rightShort same)⟩
    · exact ⟨_, Or.inl (eq_append_zeros_of_label_eq longer leftShort same.symm)⟩
  · rintro ⟨count, rfl | rfl⟩
    · exact label_append_zeros leftShort
    · exact (label_append_zeros rightShort).symm

/-- A key holds its time and the label of its symbol, and nothing else. -/
theorem make_eq_iff
    {leftTime rightTime : UInt64}
    {left right : Bytes} :
    make leftTime left = make rightTime right ↔
      leftTime = rightTime ∧ label left = label right := by
  constructor
  · intro same
    have sameTime : leftTime = rightTime := by
      simpa using congrArg timestamp same
    subst sameTime
    refine ⟨rfl, ?_⟩
    have sameBytes := congrArg bytes same
    rw [make, make] at sameBytes
    exact List.append_cancel_left sameBytes
  · rintro ⟨rfl, sameLabel⟩
    simp only [make, sameLabel]

end Key

/-! ## Events -/

theorem Symbol.eq_of_bytes_eq
    {left right : Symbol}
    (same : left.bytes = right.bytes) :
    left = right := by
  have texts := congrArg textOfBytes? same
  rw [Symbol.bytes, Symbol.bytes, textOfBytes?_textBytes, textOfBytes?_textBytes,
    Option.some_inj] at texts
  exact Symbol.ext texts

theorem Event.eq_of_encode_eq
    {left right : Event}
    (same : left.encode = right.encode) :
    left = right := by
  have decoded := congrArg Event.decode same
  rw [Event.decode_encode, Event.decode_encode] at decoded
  exact Except.ok.inj decoded

/-- Two events take one place in the log: they are of one time, and their symbols are
equal but for zeros. -/
def Event.Collides (left right : Event) : Prop :=
  left.timestamp = right.timestamp ∧
    Bytes.EqualButZeros left.symbol.bytes right.symbol.bytes

theorem Key.ofEvent_eq_iff_collides
    {left right : Event}
    (leftShort : left.symbol.bytes.length ≤ Key.labelSize)
    (rightShort : right.symbol.bytes.length ≤ Key.labelSize) :
    Key.ofEvent left = Key.ofEvent right ↔ left.Collides right := by
  rw [Key.ofEvent, Key.ofEvent, Key.make_eq_iff, Key.label_eq_iff leftShort rightShort]
  rfl

/-- Events whose symbols do not end in a zero byte collide only at one time and with
one symbol. -/
theorem Event.collides_iff
    {left right : Event}
    (leftEnd : left.symbol.bytes.getLast? ≠ some 0)
    (rightEnd : right.symbol.bytes.getLast? ≠ some 0) :
    left.Collides right ↔ left.timestamp = right.timestamp ∧ left.symbol = right.symbol := by
  constructor
  · rintro ⟨sameTime, equal⟩
    exact ⟨sameTime, Symbol.eq_of_bytes_eq (equal.eq leftEnd rightEnd)⟩
  · rintro ⟨sameTime, sameSymbol⟩
    refine ⟨sameTime, 0, Or.inl ?_⟩
    rw [sameSymbol, List.replicate_zero, List.append_nil]

/-! ## Storing two events -/

open Relay (entryOf)

/-- The entry of an event is not too large for the log. -/
theorem isSmall_entryOf (event : Event) : Log.IsSmall [entryOf event] := by
  have size_le : ∀ entry ∈ [entryOf event], entry.value.length ≤ Event.maxEncodedSize := by
    intro entry present
    rw [List.mem_singleton.mp present, entryOf, event.length_encode]
    exact event.encodedSize_le
  have bodySize := Frame.bodySize_le size_le
  rw [List.length_singleton] at bodySize
  exact ⟨fun entry present => Nat.le_trans (size_le entry present) (by decide),
    Nat.le_trans bodySize (by decide)⟩

/-- After two events are stored, the log has the earlier one just if they do not
collide. -/
theorem mem_insert_ofEvent_iff
    {left right : Event}
    (leftShort : left.symbol.bytes.length ≤ Key.labelSize)
    (rightShort : right.symbol.bytes.length ≤ Key.labelSize)
    {stored : KeyMap Bytes}
    (ascending : stored.Ascending) :
    (Key.ofEvent left, left.encode) ∈ (stored.enter [entryOf left]).enter [entryOf right] ↔
      ¬left.Collides right ∨ left = right := by
  have once : (stored.enter [entryOf left]).Ascending := KeyMap.ascending_enter ascending _
  have stands : (Key.ofEvent left, left.encode) ∈ stored.enter [entryOf left] :=
    (KeyMap.mem_insert_iff ascending _ _ _).mpr (Or.inl rfl)
  refine (KeyMap.mem_insert_iff once _ _ _).trans ?_
  rw [← Key.ofEvent_eq_iff_collides leftShort rightShort]
  constructor
  · rintro (same | ⟨_, different⟩)
    · exact Or.inr (Event.eq_of_encode_eq (congrArg Prod.snd same))
    · exact Or.inl different
  · rintro (different | rfl)
    · exact Or.inr ⟨stands, different⟩
    · exact Or.inl rfl

/-- Two events whose symbols have at most eight bytes share a key just if they are of
one time and their symbols are equal but for zeros, and if no symbol ends in a zero
just if time and symbol are equal.  Stored one after the other on an open log, the
later one takes the place of another event only if they collide. -/
theorem Key.shared_iff_collides
    {left right : Event}
    (leftShort : left.symbol.bytes.length ≤ Key.labelSize)
    (rightShort : right.symbol.bytes.length ≤ Key.labelSize) :
    (Key.ofEvent left = Key.ofEvent right ↔ left.Collides right) ∧
    (left.symbol.bytes.getLast? ≠ some 0 → right.symbol.bytes.getLast? ≠ some 0 →
      (Key.ofEvent left = Key.ofEvent right ↔
        left.timestamp = right.timestamp ∧ left.symbol = right.symbol)) ∧
    ∀ log writer disk stored, Log.Serves log writer disk stored →
      writer.segment + 2 < 0x10000000000000000 →
      ∃ between middle after grown both,
        log.append disk [entryOf left] = .ok (between, middle) ∧
        between.append middle [entryOf right] = .ok (after, grown) ∧
        Log.Shows after grown both ∧
        (Key.ofEvent right, right.encode) ∈ both ∧
        ((Key.ofEvent left, left.encode) ∈ both ↔ ¬left.Collides right ∨ left = right) := by
  have shared := Key.ofEvent_eq_iff_collides leftShort rightShort
  refine ⟨shared, fun leftEnd rightEnd => shared.trans (Event.collides_iff leftEnd rightEnd), ?_⟩
  intro log writer disk stored serves numbered
  obtain ⟨between, next, middle, accepted, nowServes, segment_le⟩ := serves.exists_append
    (by omega) (List.cons_ne_nil _ _) (isSmall_entryOf left) (by simp [Bytes.cardinality])
  obtain ⟨after, last, grown, acceptedToo, thenServes, _⟩ := nowServes.exists_append
    (by omega) (List.cons_ne_nil _ _) (isSmall_entryOf right) (by simp [Bytes.cardinality])
  refine ⟨between, middle, after, grown, _, accepted, acceptedToo, thenServes.shows, ?_,
    mem_insert_ofEvent_iff leftShort rightShort serves.ascending⟩
  exact (KeyMap.mem_insert_iff nowServes.ascending _ _ _).mpr (Or.inl rfl)

/-! ## A collision -/

/-- A tick at time one of a symbol. -/
def tickOf (symbol : Symbol) : Event where
  kind := .tick
  symbol := symbol
  price := ⟨false, 0, 1, by decide, by decide⟩
  volume := 1
  timestamp := 1

theorem size_pos_letter : 0 < "A".utf8ByteSize := by decide

theorem size_le_letter : "A".utf8ByteSize ≤ 32 := by decide

/-- The symbol of one letter. -/
def letterSymbol : Symbol := ⟨"A", size_pos_letter, size_le_letter⟩

/-- The symbol of the letter and a zero character. -/
def letterZeroSymbol : Symbol := ⟨"A\x00", by decide, by decide⟩

/-- The log of an empty directory stores both events, and keeps only the second one. -/
theorem Key.shared_iff_collides_vacant :
    letterSymbol.bytes.length ≤ Key.labelSize ∧ letterZeroSymbol.bytes.length ≤ Key.labelSize ∧
      (Key.ofEvent (tickOf letterSymbol) = Key.ofEvent (tickOf letterZeroSymbol) ↔
        (tickOf letterSymbol).Collides (tickOf letterZeroSymbol)) ∧
      ∃ log disk between middle after grown both,
        Log.openIn .standard .vacant = .ok (log, disk) ∧
        log.append disk [entryOf (tickOf letterSymbol)] = .ok (between, middle) ∧
        between.append middle [entryOf (tickOf letterZeroSymbol)] = .ok (after, grown) ∧
        Log.Shows after grown both ∧
        (Key.ofEvent (tickOf letterSymbol), (tickOf letterSymbol).encode) ∉ both := by
  have leftShort : (tickOf letterSymbol).symbol.bytes.length ≤ Key.labelSize := by decide
  have rightShort : (tickOf letterZeroSymbol).symbol.bytes.length ≤ Key.labelSize := by decide
  obtain ⟨shared, _, stores⟩ := Key.shared_iff_collides leftShort rightShort
  have opened := Log.openIn_vacant .standard
  obtain ⟨writer, opens⟩ := Log.exists_opens_of_openIn_eq_ok Log.wellFormed_vacant opened
  have first : writer.segment = 0 := by
    rw [opens.segment_eq]
    simp [Segment.discover, Disk.listing, Disk.vacant]
  obtain ⟨between, middle, after, grown, both, accepted, acceptedToo, shows, _, kept⟩ :=
    stores _ writer _ _ opens.serves (by omega)
  refine ⟨leftShort, rightShort, shared, _, _, between, middle, after, grown, both, opened,
    accepted, acceptedToo, shows, ?_⟩
  rw [kept, not_or, not_not]
  exact ⟨⟨rfl, 1, Or.inr (by decide)⟩, by decide⟩

/-- Two symbols of less than eight bytes share a key at one time. -/
theorem Key.shared_of_letterZero :
    (letterSymbol.bytes.length ≤ Key.labelSize ∧
      letterZeroSymbol.bytes.length ≤ Key.labelSize) ∧
      Key.ofEvent (tickOf letterSymbol) = Key.ofEvent (tickOf letterZeroSymbol) ∧
      (tickOf letterSymbol).symbol ≠ (tickOf letterZeroSymbol).symbol := by
  decide +kernel

end EventRelay
