import EventRelay.Proofs.Channel.Finality
import EventRelay.Proofs.Channel.Refusal
import Mathlib.Algebra.Order.Floor.Div

/-!
# A message is parted into its fragments

The fragments that a channel keeps of a message make up the message, in order.  Each
carries at least one byte and at most the greatest payload, and there are as many as
it takes; an empty message has one fragment, which carries nothing.  Their number is
computed once more from the size of the message, for the flags and for the position,
and it is the number of the pieces.  So just the first fragment begins the message,
just the last one ends it, and together they count for what the message counts for.
-/

namespace EventRelay
namespace Fragment

/-! ## Sizes of pieces -/

/-- No piece is larger than asked for, and none is empty unless there are no bytes. -/
theorem length_of_mem_pieces
    {size : Nat}
    (size_pos : 0 < size)
    {bytes piece : Bytes}
    (present : piece ∈ pieces size size_pos bytes) :
    piece.length ≤ size ∧ (bytes ≠ [] → piece ≠ []) := by
  induction bytes using pieces.induct size size_pos with
  | case1 bytes nothing =>
      have small : bytes.length ≤ size := List.drop_eq_nil_iff.mp nothing
      rw [pieces_of_length_le size_pos small, List.mem_singleton] at present
      rw [present]
      exact ⟨small, id⟩
  | case2 bytes next rest dropped inductionHypothesis =>
      have large : size < bytes.length := by
        have sizes := congrArg List.length dropped
        simp only [List.length_drop, List.length_cons] at sizes
        omega
      rw [pieces_of_lt_length size_pos large, dropped] at present
      rcases List.mem_cons.mp present with rfl | later
      · have full : (bytes.take size).length = size := List.length_take_of_le (Nat.le_of_lt large)
        refine ⟨Nat.le_of_eq full, fun _ => List.ne_nil_of_length_pos ?_⟩
        rwa [full]
      · obtain ⟨small, filled⟩ := inductionHypothesis later
        exact ⟨small, fun _ => filled (List.cons_ne_nil next rest)⟩

/-! ## Places of fragments -/

/-- A fragment has the flags of its place. -/
theorem getElem?_ofPieces (session : UInt32) (isFirst : Bool) (rest : List Bytes) (index : Nat) :
    (ofPieces session isFirst rest)[index]? =
      rest[index]?.map fun piece =>
        ⟨session, flagsAt (isFirst && index == 0) (index + 1 == rest.length), piece⟩ := by
  induction rest generalizing isFirst index with
  | nil => rfl
  | cons piece rest inductionHypothesis =>
      rw [ofPieces]
      cases index with
      | zero => cases rest <;> simp
      | succ index =>
          rw [List.getElem?_cons_succ, inductionHypothesis]
          simp

/-- The number of the last fragment is computed from the size of the message. -/
theorem getElem?_ofMessage
    {mtu : Nat}
    (size_pos : 0 < max mtu 1)
    (session : UInt32)
    (message : Bytes)
    (index : Nat) :
    (ofMessage session mtu message)[index]? =
      (pieces (max mtu 1) size_pos message)[index]?.map fun piece =>
        ⟨session, flagsAt (index == 0) (index + 1 == fragmentCount message.length mtu), piece⟩ := by
  rw [ofMessage, getElem?_ofPieces, length_pieces]
  rfl

theorem map_payload_ofPieces (session : UInt32) (isFirst : Bool) (rest : List Bytes) :
    (ofPieces session isFirst rest).map payload = rest := by
  induction rest generalizing isFirst with
  | nil => rfl
  | cons piece rest inductionHypothesis => rw [ofPieces, List.map_cons, inductionHypothesis]

/-- How a message is parted into fragments. -/
structure Parts
    (session : UInt32) (mtu : Nat) (message : Bytes) (fragments : List Fragment) : Prop where
  joined : (fragments.map payload).flatten = message
  session_eq : ∀ fragment ∈ fragments, fragment.session = session
  small : ∀ fragment ∈ fragments, fragment.payload.length ≤ max mtu 1
  filled : message ≠ [] → ∀ fragment ∈ fragments, fragment.payload ≠ []
  count : fragments.length = max 1 (message.length ⌈/⌉ max mtu 1)
  begins : ∀ index (inRange : index < fragments.length),
    fragments[index].isBegin = true ↔ index = 0
  ends : ∀ index (inRange : index < fragments.length),
    fragments[index].isEnd = true ↔ index + 1 = fragments.length
  size : totalSize fragments = EventRelay.framedSize message.length mtu

end Fragment

/-! ## Numbers of fragments -/

/-- The number of fragments is a quotient that is rounded up. -/
theorem fragmentCount_eq_ceilDiv (size mtu : Nat) :
    fragmentCount size mtu = max 1 (size ⌈/⌉ max mtu 1) := by
  rw [fragmentCount, Nat.ceilDiv_eq_add_pred_div, Nat.add_sub_assoc (Nat.le_max_right _ _),
    Nat.max_comm 1]

/-- A greater payload does not take more fragments. -/
theorem fragmentCount_anti
    {mtu larger : Nat}
    (le : mtu ≤ larger)
    (size : Nat) :
    fragmentCount size larger ≤ fragmentCount size mtu := by
  have payload_le : max mtu 1 ≤ max larger 1 := by omega
  have payload_pos : 0 < max mtu 1 := by omega
  have enough : size ≤ max mtu 1 * (size ⌈/⌉ max mtu 1) := le_smul_ceilDiv payload_pos
  have stillEnough : size ⌈/⌉ max larger 1 ≤ size ⌈/⌉ max mtu 1 :=
    (ceilDiv_le_iff_le_mul (by omega)).mpr
      (Nat.le_trans enough (Nat.mul_le_mul_right _ payload_le))
  rw [fragmentCount_eq_ceilDiv, fragmentCount_eq_ceilDiv]
  omega

theorem framedSize_anti
    {mtu larger : Nat}
    (le : mtu ≤ larger)
    (size : Nat) :
    framedSize size larger ≤ framedSize size mtu :=
  Nat.add_le_add_left (Nat.mul_le_mul_right _ (fragmentCount_anti le size)) size

namespace Fragment

theorem parts_ofMessage (session : UInt32) (mtu : Nat) (message : Bytes) :
    Parts session mtu message (ofMessage session mtu message) := by
  have count := length_ofMessage session mtu message
  have size_pos : 0 < max mtu 1 := by omega
  -- Each fragment is found at its place among the pieces.
  have placed : ∀ index (inRange : index < (ofMessage session mtu message).length),
      ∃ piece ∈ pieces (max mtu 1) size_pos message,
        (ofMessage session mtu message)[index] =
          ⟨session, flagsAt (index == 0) (index + 1 == fragmentCount message.length mtu),
            piece⟩ := by
    intro index inRange
    have found := getElem?_ofMessage size_pos session message index
    rw [List.getElem?_eq_getElem inRange, eq_comm, Option.map_eq_some_iff] at found
    obtain ⟨piece, among, same⟩ := found
    exact ⟨piece, List.mem_of_getElem? among, same.symm⟩
  have present : ∀ fragment ∈ ofMessage session mtu message,
      fragment.session = session ∧
        fragment.payload ∈ pieces (max mtu 1) size_pos message := by
    intro fragment among
    obtain ⟨index, inRange, rfl⟩ := List.getElem_of_mem among
    obtain ⟨piece, isPiece, same⟩ := placed index inRange
    rw [same]
    exact ⟨rfl, isPiece⟩
  refine ⟨?_, ?_, ?_, ?_, ?_, ?_, ?_, totalSize_ofMessage session mtu message⟩
  · rw [ofMessage, map_payload_ofPieces, flatten_pieces]
  · exact fun fragment among => (present fragment among).1
  · exact fun fragment among => (length_of_mem_pieces _ (present fragment among).2).1
  · exact fun notEmpty fragment among =>
      (length_of_mem_pieces _ (present fragment among).2).2 notEmpty
  · rw [count, fragmentCount_eq_ceilDiv]
  · intro index inRange
    obtain ⟨piece, -, same⟩ := placed index inRange
    rw [same, isBegin, isBegin_flagsAt, beq_iff_eq]
  · intro index inRange
    obtain ⟨piece, -, same⟩ := placed index inRange
    rw [same, isEnd, isEnd_flagsAt, beq_iff_eq, count]

end Fragment

namespace Channel

/-- A channel with room for just one message, to which somebody listens. -/
def roomFor (mtu size : Nat) : Channel :=
  (initial ⟨framedSize size mtu, framedSize size mtu + 1, mtu, framedSize size mtu⟩).subscribe.2

theorem offer_roomFor (mtu : Nat) (session : UInt32) (message : Bytes) :
    ((roomFor mtu message.length).offer session message).1 =
      .accepted (framedSize message.length mtu) := by
  have position_eq : (roomFor mtu message.length).positionAfter message =
      framedSize message.length mtu :=
    Nat.zero_add _
  have within : (roomFor mtu message.length).positionAfter message ≤
      (roomFor mtu message.length).settings.maxPosition :=
    Nat.le_of_eq position_eq
  have inTime : (roomFor mtu message.length).exceedsCapacity
      ((roomFor mtu message.length).sizeOf message) = false := by
    simp [roomFor, exceedsCapacity, slowest?, sizeOf, subscribe, initial]
  have sameTerm : (roomFor mtu message.length).termOf
      ((roomFor mtu message.length).positionAfter message) ≤
        (roomFor mtu message.length).activeTerm := by
    rw [position_eq]
    exact Nat.le_of_eq (Nat.div_eq_of_lt (Nat.lt_of_lt_of_le (Nat.lt_succ_self _)
      (Nat.le_max_left _ _)))
  rw [offer_eq_accepted rfl within inTime sameTerm, position_eq]

/-- Whatever a channel accepts while somebody listens is kept in fragments into which
it is parted, and there is a channel that accepts it.  What a message counts for does
not get less with its size, nor more with the greatest payload. -/
theorem parts_of_accepted (session : UInt32) (mtu : Nat) (message : Bytes) :
    (∀ (channel after : Channel) (position : Nat),
      channel.settings.mtu = mtu → channel.cursors ≠ [] →
      channel.offer session message = (.accepted position, after) →
        ∃ queued, after.fragments = channel.fragments ++ queued ∧
          Fragment.Parts session mtu message queued) ∧
    (∃ (channel after : Channel) (position : Nat),
      channel.settings.mtu = mtu ∧ channel.cursors ≠ [] ∧
        channel.offer session message = (.accepted position, after)) ∧
    (∀ size other, size ≤ other → framedSize size mtu ≤ framedSize other mtu) ∧
    ∀ size larger, mtu ≤ larger → framedSize size larger ≤ framedSize size mtu := by
  refine ⟨?_, ?_, fun _ _ smaller => framedSize_le_framedSize smaller mtu,
    fun size _ le => framedSize_anti le size⟩
  · rintro channel after position rfl listened accepted
    refine ⟨_, ?_, Fragment.parts_ofMessage session _ message⟩
    have cases_of := offered_offer channel session message
    rw [accepted] at cases_of
    cases cases_of with
    | accepted => rw [accept, List.isEmpty_eq_false_iff.mpr listened, if_neg Bool.false_ne_true]
  · exact ⟨roomFor mtu message.length, _, framedSize message.length mtu, rfl,
      List.cons_ne_nil _ _, Prod.ext (offer_roomFor mtu session message) rfl⟩

/-- Seven bytes in pieces of three. -/
theorem parts_of_accepted_seven :
    (roomFor 3 7).cursors ≠ [] ∧
      ((roomFor 3 7).offer 1 [1, 2, 3, 4, 5, 6, 7]).1 = .accepted 31 ∧
      ((roomFor 3 7).offer 1 [1, 2, 3, 4, 5, 6, 7]).2.fragments =
        [⟨1, 0x80, [1, 2, 3]⟩, ⟨1, 0, [4, 5, 6]⟩, ⟨1, 0x40, [7]⟩] ∧
      Fragment.Parts 1 3 [1, 2, 3, 4, 5, 6, 7]
        [⟨1, 0x80, [1, 2, 3]⟩, ⟨1, 0, [4, 5, 6]⟩, ⟨1, 0x40, [7]⟩] := by
  have listened : (roomFor 3 7).cursors ≠ [] := by decide
  have accepted : ((roomFor 3 7).offer 1 [1, 2, 3, 4, 5, 6, 7]).1 = .accepted 31 := by
    decide +kernel
  have kept : ((roomFor 3 7).offer 1 [1, 2, 3, 4, 5, 6, 7]).2.fragments =
      [⟨1, 0x80, [1, 2, 3]⟩, ⟨1, 0, [4, 5, 6]⟩, ⟨1, 0x40, [7]⟩] := by
    decide +kernel
  obtain ⟨queued, same, parts⟩ := (parts_of_accepted 1 3 [1, 2, 3, 4, 5, 6, 7]).1
    (roomFor 3 7) _ 31 rfl listened (Prod.ext accepted rfl)
  obtain rfl : _ = queued := kept.symm.trans same
  exact ⟨listened, accepted, kept, parts⟩

end Channel
end EventRelay
