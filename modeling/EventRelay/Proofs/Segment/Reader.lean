import EventRelay.Proofs.Frame.RoundTrip
import EventRelay.Segment.Reader

/-!
# What a segment reader finds

Every byte string is a sequence of whole frames and a rest that starts with no
whole frame.  A reader yields exactly these frames, one after the other, and
stops where the rest begins; it reports damage when the rest is not empty.  The
proper beginning of a frame is such a rest.
-/

namespace EventRelay
namespace Segment

open EventRelay.Frame (Whole)

/-- The bytes of frames that stand one after the other. -/
def bytesOf (frames : List Whole) : Bytes :=
  frames.flatMap Whole.bytes

@[simp] theorem bytesOf_nil : bytesOf [] = [] := rfl

@[simp] theorem bytesOf_cons (whole : Whole) (frames : List Whole) :
    bytesOf (whole :: frames) = whole.bytes ++ bytesOf frames := rfl

@[simp] theorem bytesOf_append (front back : List Whole) :
    bytesOf (front ++ back) = bytesOf front ++ bytesOf back :=
  List.flatMap_append

theorem bytesOf_eq_nil_iff
    {frames : List Whole} :
    bytesOf frames = [] ↔ frames = [] := by
  constructor
  · intro empty
    cases frames with
    | nil => rfl
    | cons whole rest =>
        have pos := whole.length_bytes_pos
        rw [bytesOf_cons, List.append_eq_nil_iff] at empty
        rw [empty.1, List.length_nil] at pos
        omega
  · rintro rfl
    rfl

/-- The frames as a reader yields them, from an offset on. -/
def placed : (offset : Nat) → List Whole → List ReadFrame
  | _, [] => []
  | offset, whole :: rest =>
      ⟨offset, offset + whole.bytes.length, whole.entries⟩ ::
        placed (offset + whole.bytes.length) rest

theorem placed_append (offset : Nat) (front back : List Whole) :
    placed offset (front ++ back) =
      placed offset front ++ placed (offset + (bytesOf front).length) back := by
  induction front generalizing offset with
  | nil => rfl
  | cons whole front inductionHypothesis =>
      rw [List.cons_append, placed, placed, inductionHypothesis, bytesOf_cons, List.length_append,
        Nat.add_assoc, List.cons_append]

/-- A rest that starts with no whole frame. -/
def Stuck (rest : Bytes) : Prop :=
  ∃ damage, Reader.readFront rest = .error damage

/-- A placed frame is read at its offset, whatever stands around the frames. -/
theorem readAt_of_mem_placed
    {before rest : Bytes}
    {frames : List Whole}
    {frame : ReadFrame}
    (present : frame ∈ placed before.length frames) :
    Frame.readAt (before ++ (bytesOf frames ++ rest)) frame.offset = .ok frame.entries := by
  induction frames generalizing before with
  | nil => cases present
  | cons whole frames inductionHypothesis =>
      rw [bytesOf_cons, List.append_assoc]
      rcases List.mem_cons.mp present with rfl | later
      · exact Frame.readAt_append before (bytesOf frames ++ rest) whole
      · rw [← List.length_append] at later
        have read := inductionHypothesis later
        rwa [List.append_assoc] at read

/-- The entries of placed frames are those of the frames. -/
theorem flatMap_entries_placed (offset : Nat) (frames : List Whole) :
    (placed offset frames).flatMap ReadFrame.entries = frames.flatMap Whole.entries := by
  induction frames generalizing offset with
  | nil => rfl
  | cons whole frames inductionHypothesis =>
      rw [placed, List.flatMap_cons, inductionHypothesis, List.flatMap_cons]

namespace Reader

/-! ## One frame -/

/-- A whole frame is read at the front of a rest. -/
theorem readFront_append (whole : Whole) (rest : Bytes) :
    readFront (whole.bytes ++ rest) = .ok (whole.entries, whole.bytes.length) := by
  rw [readFront, whole.length_bytes, Whole.bytes, List.append_assoc]
  simp only [Bytes.split?_append_of_length whole.length_head,
    Bytes.split?_append_of_length whole.length_stored, whole.read_head, whole.decode_stored]

/-- What is read at the front of a rest is a whole frame that stands there. -/
theorem exists_whole_of_readFront_eq_ok
    {rest : Bytes}
    {entries : List Entry}
    {size : Nat}
    (read : readFront rest = .ok (entries, size)) :
    ∃ (whole : Whole) (after : Bytes), rest = whole.bytes ++ after := by
  rw [readFront] at read
  split at read
  · cases read
  · rename_i head afterHead parted
    obtain ⟨length_head, rfl⟩ := Bytes.split?_eq_some_iff.mp parted
    split at read
    · cases read
    · rename_i header headerRead
      split at read
      · cases read
      · rename_i stored after storedParted
        obtain ⟨length_stored, rfl⟩ := Bytes.split?_eq_some_iff.mp storedParted
        split at read
        · cases read
        · rename_i decoded decode_stored
          exact ⟨⟨head, stored, header, decoded, length_head, headerRead, length_stored,
            decode_stored⟩, after, (List.append_assoc _ _ _).symm⟩

/-- A rest starts with no whole frame if it is not one with something behind it. -/
theorem stuck_iff
    {rest : Bytes} :
    Stuck rest ↔ ∀ (whole : Whole) (after : Bytes), rest ≠ whole.bytes ++ after := by
  constructor
  · rintro ⟨damage, unread⟩ whole after rfl
    rw [readFront_append] at unread
    cases unread
  · intro different
    cases front : readFront rest with
    | error damage => exact ⟨damage, front⟩
    | ok read =>
        obtain ⟨whole, after, parts⟩ := exists_whole_of_readFront_eq_ok front
        exact absurd parts (different whole after)

/-- The proper beginning of a whole frame starts with no whole frame. -/
theorem stuck_of_beginning
    {whole : Whole}
    {torn : Bytes}
    (beginning : torn <+: whole.bytes)
    (shorter : torn.length < whole.bytes.length) :
    Stuck torn := by
  obtain ⟨lost, parts⟩ := beginning
  rw [Stuck, readFront]
  cases parted : Bytes.split? Frame.headerSize torn with
  | none => exact ⟨_, rfl⟩
  | some pair =>
      obtain ⟨head, afterHead⟩ := pair
      obtain ⟨length_head, rfl⟩ := Bytes.split?_eq_some_iff.mp parted
      rw [Whole.bytes, List.append_assoc] at parts
      obtain ⟨rfl, rest_eq⟩ := List.append_inj parts (length_head.trans whole.length_head.symm)
      have short : afterHead.length < whole.header.bodySize := by
        rw [whole.length_bytes, List.length_append, length_head] at shorter
        omega
      simp only [whole.read_head, Bytes.split?_eq_none_iff.mpr short]
      exact ⟨_, rfl⟩

/-! ## All frames -/

theorem readAll_eq_of_next_eq_some
    {reader after : Reader}
    {frame : ReadFrame}
    (read : reader.next = (some frame, after)) :
    reader.readAll = (frame :: after.readAll.1, after.readAll.2) := by
  rw [readAll]
  split
  · rename_i _ stops
    rw [read] at stops
    cases stops
  · rename_i _ _ continues
    rw [read] at continues
    cases continues
    rfl

theorem readAll_eq_of_next_eq_none
    {reader stopped : Reader}
    (read : reader.next = (none, stopped)) :
    reader.readAll = ([], stopped) := by
  rw [readAll]
  split
  · rename_i _ stops
    rw [read] at stops
    cases stops
    rfl
  · rename_i _ _ continues
    rw [read] at continues
    cases continues

/-- A reader yields the whole frames at the front of its rest. -/
theorem readAll_append (frames : List Whole) (rest : Bytes) (offset : Nat) :
    (Reader.mk (bytesOf frames ++ rest) offset none).readAll =
      (placed offset frames ++ (Reader.mk rest (offset + (bytesOf frames).length) none).readAll.1,
        (Reader.mk rest (offset + (bytesOf frames).length) none).readAll.2) := by
  induction frames generalizing offset with
  | nil => rfl
  | cons whole frames inductionHypothesis =>
      have step : (Reader.mk (bytesOf (whole :: frames) ++ rest) offset none).next =
          (some ⟨offset, offset + whole.bytes.length, whole.entries⟩,
            Reader.mk (bytesOf frames ++ rest) (offset + whole.bytes.length) none) := by
        have notEmpty : (whole.bytes ++ (bytesOf frames ++ rest)).isEmpty = false := by
          have pos := whole.length_bytes_pos
          rw [List.isEmpty_eq_false_iff, ← List.length_pos_iff, List.length_append]
          omega
        simp only [next, bytesOf_cons, List.append_assoc, Option.isSome_none, notEmpty,
          Bool.false_eq_true, or_self, if_false, readFront_append, List.drop_left]
      rw [readAll_eq_of_next_eq_some step, inductionHypothesis, placed, bytesOf_cons,
        List.length_append, Nat.add_assoc, List.cons_append]

theorem readAll_nil (offset : Nat) :
    (Reader.mk [] offset none).readAll = ([], Reader.mk [] offset none) :=
  readAll_eq_of_next_eq_none rfl

/-- A reader stops at a rest that starts with no whole frame. -/
theorem readAll_of_stuck
    {rest : Bytes}
    (notEmpty : rest ≠ [])
    (stuck : Stuck rest)
    (offset : Nat) :
    ∃ damage, (Reader.mk rest offset none).readAll =
      ([], Reader.mk rest offset (some ⟨offset, damage⟩)) := by
  obtain ⟨damage, unread⟩ := stuck
  refine ⟨damage, readAll_eq_of_next_eq_none ?_⟩
  have filled : rest.isEmpty = false := List.isEmpty_eq_false_iff.mpr notEmpty
  simp only [next, mark, Option.isSome_none, filled, Bool.false_eq_true, or_self, if_false,
    unread]

/-- A segment of whole frames is read to its end without damage. -/
theorem readAll_bytesOf (frames : List Whole) :
    (ofBytes (bytesOf frames)).readAll =
      (placed 0 frames, Reader.mk [] (bytesOf frames).length none) := by
  have read := readAll_append frames [] 0
  rwa [List.append_nil, Nat.zero_add, readAll_nil, List.append_nil] at read

/-- A segment is read up to what is damaged. -/
theorem readAll_bytesOf_append
    (frames : List Whole)
    {rest : Bytes}
    (notEmpty : rest ≠ [])
    (stuck : Stuck rest) :
    ∃ damage,
      (ofBytes (bytesOf frames ++ rest)).readAll =
        (placed 0 frames,
          Reader.mk rest (bytesOf frames).length (some ⟨(bytesOf frames).length, damage⟩)) := by
  obtain ⟨damage, stops⟩ := readAll_of_stuck notEmpty stuck (bytesOf frames).length
  have read := readAll_append frames rest 0
  rw [Nat.zero_add, stops, List.append_nil] at read
  exact ⟨damage, read⟩

/-- A reader yields the whole frames, stops where they end, and reports damage
when something is left. -/
theorem readAll_spec
    (frames : List Whole)
    {rest : Bytes}
    (stuck : Stuck rest) :
    (ofBytes (bytesOf frames ++ rest)).readAll.1 = placed 0 frames ∧
      (ofBytes (bytesOf frames ++ rest)).readAll.2.offset = (bytesOf frames).length ∧
      ((ofBytes (bytesOf frames ++ rest)).readAll.2.corruption.isSome = true ↔ rest ≠ []) := by
  by_cases empty : rest = []
  · subst empty
    rw [List.append_nil, readAll_bytesOf]
    exact ⟨rfl, rfl, by simp⟩
  · obtain ⟨damage, read⟩ := readAll_bytesOf_append frames empty stuck
    rw [read]
    exact ⟨rfl, rfl, by simp [empty]⟩

/-- Every byte string is whole frames and a rest that starts with none. -/
theorem exists_frames (bytes : Bytes) :
    ∃ frames rest, bytes = bytesOf frames ++ rest ∧ Stuck rest := by
  cases front : readFront bytes with
  | error damage => exact ⟨[], bytes, rfl, damage, front⟩
  | ok read =>
      obtain ⟨whole, after, rfl⟩ := exists_whole_of_readFront_eq_ok front
      have pos := whole.length_bytes_pos
      obtain ⟨frames, rest, rfl, stuck⟩ := exists_frames after
      exact ⟨whole :: frames, rest, by simp, stuck⟩
  termination_by bytes.length
  decreasing_by
    rename_i parted
    rw [parted, List.length_append]
    omega

end Reader
end Segment
end EventRelay
