import EventRelay.Proofs.Channel.Reassembly

/-!
# The sizes of fragments

The number of fragments of a message is its size divided by the greatest payload,
rounded up, and at least one.  What the fragments count for together is what the
message counts for: the two ways in which a channel counts bytes agree.
-/

namespace EventRelay
namespace Fragment

/-! ## Pieces -/

theorem pieces_of_length_le
    {size : Nat}
    (size_pos : 0 < size)
    {bytes : Bytes}
    (small : bytes.length ≤ size) :
    pieces size size_pos bytes = [bytes] := by
  rw [pieces]
  split
  · rfl
  · rename_i something
    rw [List.drop_of_length_le small] at something
    cases something

theorem pieces_of_lt_length
    {size : Nat}
    (size_pos : 0 < size)
    {bytes : Bytes}
    (large : size < bytes.length) :
    pieces size size_pos bytes =
      bytes.take size :: pieces size size_pos (bytes.drop size) := by
  rw [pieces]
  split
  · rename_i nothing
    rw [List.drop_eq_nil_iff] at nothing
    omega
  · rename_i something
    rw [something]

/-- There are as many pieces as a message of that size has fragments. -/
theorem length_pieces
    {size : Nat}
    (size_pos : 0 < size)
    (bytes : Bytes) :
    (pieces size size_pos bytes).length = max ((bytes.length + (size - 1)) / size) 1 := by
  induction length_eq : bytes.length using Nat.strongRecOn generalizing bytes with
  | ind length inductionHypothesis =>
      subst length_eq
      by_cases small : bytes.length ≤ size
      · have atMostOne : (bytes.length + (size - 1)) / size < 2 :=
          Nat.div_lt_of_lt_mul (by omega)
        rw [pieces_of_length_le size_pos small, List.length_singleton]
        omega
      · have shorter : (bytes.drop size).length < bytes.length := by
          rw [List.length_drop]
          omega
        have rest : bytes.length + (size - 1) = bytes.length - size + (size - 1) + size := by
          omega
        have one_le : 1 ≤ (bytes.length - size + (size - 1)) / size :=
          (Nat.one_le_div_iff size_pos).mpr (by omega)
        rw [pieces_of_lt_length size_pos (by omega), List.length_cons,
          inductionHypothesis _ shorter _ rfl, List.length_drop, rest,
          Nat.add_div_right _ size_pos]
        omega

/-! ## Fragments -/

/-- Fragments count for their payloads and for their headers. -/
theorem totalSize_ofPieces (session : UInt32) (isFirst : Bool) (rest : List Bytes) :
    totalSize (ofPieces session isFirst rest) =
      rest.flatten.length + rest.length * headerSize := by
  induction rest generalizing isFirst with
  | nil => rfl
  | cons piece rest inductionHypothesis =>
      rw [ofPieces, totalSize, inductionHypothesis, framedSize, List.flatten_cons,
        List.length_append, List.length_cons, Nat.add_one_mul]
      dsimp only
      omega

theorem totalSize_append (front back : List Fragment) :
    totalSize (front ++ back) = totalSize front + totalSize back := by
  induction front with
  | nil => simp [totalSize]
  | cons fragment front inductionHypothesis =>
      rw [List.cons_append, totalSize, totalSize, inductionHypothesis, Nat.add_assoc]

theorem length_ofMessage (session : UInt32) (mtu : Nat) (message : Bytes) :
    (ofMessage session mtu message).length = fragmentCount message.length mtu := by
  rw [ofMessage, length_ofPieces, length_pieces, fragmentCount]

/-- The fragments of a message count for what the message counts for. -/
theorem totalSize_ofMessage (session : UInt32) (mtu : Nat) (message : Bytes) :
    totalSize (ofMessage session mtu message) = EventRelay.framedSize message.length mtu := by
  rw [ofMessage, totalSize_ofPieces, flatten_pieces, length_pieces]
  rfl

end Fragment
end EventRelay
