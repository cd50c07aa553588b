import EventRelay.Proofs.Frame.RoundTrip

/-!
# Only what is written is read

A body that is not compressed is read as entries exactly if it is what is written
for them.  So a body has no other entries than those written, and nothing that
falls short of a body is read.
-/

namespace EventRelay
namespace Frame

/-! ## Entries -/

/-- What is read as an entry is what is written for it. -/
theorem eq_append_of_decodeEntry_eq_ok
    {size index : Nat}
    {bytes rest : Bytes}
    {entry : Entry}
    (read : decodeEntry size index bytes = .ok (entry, rest)) :
    bytes = encodeEntry entry ++ rest ∧ entry.value.length < Bytes.cardinality 4 := by
  unfold decodeEntry at read
  split at read
  · cases read
  rename_i keyBytes afterKey keyParted
  obtain ⟨_, rfl⟩ := Bytes.split?_eq_some_iff.mp keyParted
  split at read
  · cases read
  rename_i sizeBytes afterSize sizeParted
  obtain ⟨length_size, rfl⟩ := Bytes.split?_eq_some_iff.mp sizeParted
  dsimp only at read
  split at read
  · cases read
  rename_i value afterValue valueParted
  obtain ⟨length_value, rfl⟩ := Bytes.split?_eq_some_iff.mp valueParted
  split at read
  · cases read
  rename_i key isKey
  cases read
  have key_eq : key.bytes = keyBytes := by
    unfold Key.ofBytes? at isKey
    split at isKey
    · cases isKey
      rfl
    · cases isKey
  have size_eq : Bytes.ofNatLE 4 value.length = sizeBytes := by
    rw [length_value, ← length_size, Bytes.ofNatLE_toNatLE]
  have bound := Bytes.toNatLE_lt sizeBytes
  rw [length_size, ← length_value] at bound
  refine ⟨?_, bound⟩
  simp only [encodeEntry, key_eq, size_eq, List.append_assoc]

/-- What is read as a number of entries is what is written for them. -/
theorem eq_append_of_decodeEntries_eq_ok
    {size count index : Nat}
    {bytes rest : Bytes}
    {entries : List Entry}
    (read : decodeEntries size count index bytes = .ok (entries, rest)) :
    entries.length = count ∧ bytes = entries.flatMap encodeEntry ++ rest ∧
      ∀ entry ∈ entries, entry.value.length < Bytes.cardinality 4 := by
  induction count generalizing index bytes entries with
  | zero =>
      cases read
      exact ⟨rfl, rfl, by simp⟩
  | succ count inductionHypothesis =>
      rw [decodeEntries] at read
      cases first : decodeEntry size index bytes with
      | error error =>
          rw [first] at read
          cases read
      | ok parted =>
          obtain ⟨entry, afterEntry⟩ := parted
          rw [first] at read
          simp only [bind, Except.bind] at read
          cases others : decodeEntries size count (index + 1) afterEntry with
          | error error =>
              rw [others] at read
              cases read
          | ok parted =>
              obtain ⟨entries, afterEntries⟩ := parted
              rw [others] at read
              cases read
              obtain ⟨rfl, value_lt⟩ := eq_append_of_decodeEntry_eq_ok first
              obtain ⟨length_eq, rfl, values_lt⟩ := inductionHypothesis others
              refine ⟨by rw [List.length_cons, length_eq], ?_, ?_⟩
              · rw [List.flatMap_cons, List.append_assoc]
              · exact List.forall_mem_cons.mpr ⟨value_lt, values_lt⟩

/-- Entries are known from their bytes. -/
theorem eq_of_flatMap_encodeEntry_eq
    {left right : List Entry}
    (left_lt : ∀ entry ∈ left, entry.value.length < Bytes.cardinality 4)
    (right_lt : ∀ entry ∈ right, entry.value.length < Bytes.cardinality 4)
    (same : left.flatMap encodeEntry = right.flatMap encodeEntry) :
    left = right := by
  have notEmpty (entry : Entry) (rest : List Entry) :
      (entry :: rest).flatMap encodeEntry ≠ [] := by
    intro nothing
    have length_eq := congrArg List.length nothing
    rw [List.flatMap_cons, List.length_append, length_encodeEntry, entrySize] at length_eq
    simp only [List.length_nil] at length_eq
    omega
  induction left generalizing right with
  | nil =>
      cases right with
      | nil => rfl
      | cons entry rest => exact absurd same.symm (notEmpty entry rest)
  | cons leftEntry left inductionHypothesis =>
      cases right with
      | nil => exact absurd same (notEmpty leftEntry left)
      | cons rightEntry right =>
          obtain ⟨leftFirst, leftOthers⟩ := List.forall_mem_cons.mp left_lt
          obtain ⟨rightFirst, rightOthers⟩ := List.forall_mem_cons.mp right_lt
          have leftRead := decodeEntry_encodeEntry leftFirst 0 0 (left.flatMap encodeEntry)
          have rightRead := decodeEntry_encodeEntry rightFirst 0 0 (right.flatMap encodeEntry)
          rw [← List.flatMap_cons, same, List.flatMap_cons, rightRead] at leftRead
          have parts := Prod.mk.inj (Except.ok.inj leftRead)
          rw [parts.1, inductionHypothesis leftOthers rightOthers parts.2.symm]

/-! ## Bodies -/

/-- A body is read as entries exactly if it is what is written for them. -/
theorem decodeEntryList_eq_ok_iff
    {body : Bytes}
    {entries : List Entry} :
    decodeEntryList body = .ok entries ↔ Fits entries ∧ body = encodeBody entries := by
  constructor
  · intro read
    unfold decodeEntryList at read
    split at read
    · cases read
    rename_i countBytes rest parted
    obtain ⟨length_count, rfl⟩ := Bytes.split?_eq_some_iff.mp parted
    dsimp only at read
    cases entriesRead : decodeEntries (countBytes ++ rest).length (Bytes.toNatLE countBytes) 0
        rest with
    | error error =>
        rw [entriesRead] at read
        cases read
    | ok parts =>
        obtain ⟨others, after⟩ := parts
        rw [entriesRead] at read
        simp only [bind, Except.bind] at read
        split at read
        · rename_i nothing
          cases read
          obtain ⟨length_eq, rfl, value_lt⟩ := eq_append_of_decodeEntries_eq_ok entriesRead
          have bound := Bytes.toNatLE_lt countBytes
          rw [length_count, ← length_eq] at bound
          refine ⟨⟨bound, value_lt⟩, ?_⟩
          rw [List.isEmpty_iff.mp nothing, List.append_nil, encodeBody, length_eq,
            ← length_count, Bytes.ofNatLE_toNatLE]
        · cases read
  · rintro ⟨fits, rfl⟩
    exact decodeEntryList_encodeBody fits

/-- Nothing follows a body that is also the beginning of a body. -/
theorem eq_nil_of_encodeBody_append_eq
    {left right : List Entry}
    (leftFits : Fits left)
    (rightFits : Fits right)
    {rest : Bytes}
    (same : encodeBody left ++ rest = encodeBody right) :
    rest = [] ∧ left = right := by
  rw [encodeBody, encodeBody, List.append_assoc] at same
  obtain ⟨counts, entries⟩ := List.append_inj same (by simp)
  have length_eq := Bytes.eq_of_ofNatLE_eq leftFits.length_lt rightFits.length_lt counts
  have leftRead := decodeEntries_flatMap leftFits.value_lt 0 0 rest
  have rightRead := decodeEntries_flatMap rightFits.value_lt 0 0 []
  rw [List.append_nil, ← entries, ← length_eq, leftRead] at rightRead
  have parts := Prod.mk.inj (Except.ok.inj rightRead)
  exact ⟨parts.2, parts.1⟩

end Frame
end EventRelay
