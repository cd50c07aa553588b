import EventRelay.Channel.Assembler

/-!
# Fragments are put together again

The pieces of a message make up the message.  An assembler that takes the
fragments of messages one message after the other gives out every message with
its last fragment, and drops none, as long as no message is larger than the
assembler allows.  It does not matter which publications the messages are of.
-/

namespace EventRelay
namespace Fragment

/-! ## Pieces -/

theorem pieces_ne_nil
    {size : Nat}
    (size_pos : 0 < size)
    (bytes : Bytes) :
    pieces size size_pos bytes ≠ [] := by
  rw [pieces]
  split <;> exact List.cons_ne_nil _ _

/-- The pieces make up the bytes. -/
theorem flatten_pieces
    {size : Nat}
    (size_pos : 0 < size)
    (bytes : Bytes) :
    (pieces size size_pos bytes).flatten = bytes := by
  induction bytes using pieces.induct size size_pos with
  | case1 bytes nothing =>
      rw [pieces]
      split
      · exact List.append_nil bytes
      · rename_i something
        rw [nothing] at something
        cases something
  | case2 bytes next rest dropped inductionHypothesis =>
      rw [pieces]
      split
      · rename_i nothing
        rw [dropped] at nothing
        cases nothing
      · rename_i other others same
        rw [dropped, List.cons.injEq] at same
        obtain ⟨rfl, rfl⟩ := same
        rw [List.flatten_cons, inductionHypothesis, ← dropped, List.take_append_drop]

@[simp] theorem length_ofPieces (session : UInt32) (isFirst : Bool) (rest : List Bytes) :
    (ofPieces session isFirst rest).length = rest.length := by
  induction rest generalizing isFirst with
  | nil => rfl
  | cons piece rest inductionHypothesis =>
      rw [ofPieces, List.length_cons, inductionHypothesis, List.length_cons]

theorem isBegin_flagsAt (isFirst isLast : Bool) :
    (flagsAt isFirst isLast &&& beginFlag != 0) = isFirst := by
  cases isFirst <;> cases isLast <;> rfl

theorem isEnd_flagsAt (isFirst isLast : Bool) :
    (flagsAt isFirst isLast &&& endFlag != 0) = isLast := by
  cases isFirst <;> cases isLast <;> rfl

end Fragment

namespace Assembler

open Fragment (ofPieces ofMessage flagsAt)

/-! ## One message -/

/-- An assembler in which one message has begun. -/
def begun (maxSize : Nat) (session : UInt32) (message : Bytes) : Assembler where
  partials := [(session, message)]
  maxSize := maxSize
  dropped := 0

/-- The first fragment of a message begins it. -/
theorem feed_first (maxSize : Nat) (session : UInt32) (isLast : Bool) (piece : Bytes) :
    (initial maxSize).feed ⟨session, flagsAt true isLast, piece⟩ =
      if isLast then (some piece, initial maxSize)
      else (none, begun maxSize session piece) := by
  have isBegin := Fragment.isBegin_flagsAt true isLast
  have isEnd := Fragment.isEnd_flagsAt true isLast
  simp only [feed, Fragment.isBegin, isBegin, if_true, feedBegin, Fragment.isEnd, isEnd]
  cases isLast <;> rfl

/-- A later fragment of a message goes on with it. -/
theorem feed_later
    {maxSize : Nat}
    {message piece : Bytes}
    (fits : message.length + piece.length ≤ maxSize)
    (session : UInt32)
    (isLast : Bool) :
    (begun maxSize session message).feed ⟨session, flagsAt false isLast, piece⟩ =
      if isLast then (some (message ++ piece), initial maxSize)
      else (none, begun maxSize session (message ++ piece)) := by
  have isBegin := Fragment.isBegin_flagsAt false isLast
  have isEnd := Fragment.isEnd_flagsAt false isLast
  have found : (begun maxSize session message).partial? session = some message := by
    simp [partial?, begun]
  have small : ¬(begun maxSize session message).maxSize < message.length + piece.length :=
    Nat.not_lt.mpr fits
  simp only [feed, Fragment.isBegin, isBegin, Bool.false_eq_true, if_false, feedMiddle, found,
    if_neg small, Fragment.isEnd, isEnd]
  cases isLast <;> simp [forget, keep, begun, initial]

theorem feedAll_cons (assembler : Assembler) (fragment : Fragment) (rest : List Fragment) :
    assembler.feedAll (fragment :: rest) =
      ((assembler.feed fragment).1.toList ++ ((assembler.feed fragment).2.feedAll rest).1,
        ((assembler.feed fragment).2.feedAll rest).2) :=
  rfl

theorem feedAll_append (assembler : Assembler) (front back : List Fragment) :
    assembler.feedAll (front ++ back) =
      ((assembler.feedAll front).1 ++ ((assembler.feedAll front).2.feedAll back).1,
        ((assembler.feedAll front).2.feedAll back).2) := by
  induction front generalizing assembler with
  | nil => rfl
  | cons fragment front inductionHypothesis =>
      rw [List.cons_append, feedAll_cons, inductionHypothesis, feedAll_cons, List.append_assoc]

/-- The later fragments of a message complete it with the last one, and some of
them only go on with it. -/
theorem feedAll_later
    {maxSize : Nat}
    {message : Bytes}
    {rest : List Bytes}
    (notEmpty : rest ≠ [])
    (fits : message.length + rest.flatten.length ≤ maxSize)
    (session : UInt32)
    (count : Nat) :
    (begun maxSize session message).feedAll ((ofPieces session false rest).take count) =
      if rest.length ≤ count then ([message ++ rest.flatten], initial maxSize)
      else ([], begun maxSize session (message ++ (rest.take count).flatten)) := by
  induction rest generalizing message count with
  | nil => exact absurd rfl notEmpty
  | cons piece rest inductionHypothesis =>
      rw [List.flatten_cons, List.length_append] at fits
      cases count with
      | zero => simp [feedAll]
      | succ count =>
          rw [ofPieces, List.take_succ_cons, feedAll_cons,
            feed_later (by omega : message.length + piece.length ≤ maxSize)]
          cases rest with
          | nil => simp [ofPieces, feedAll]
          | cons second others =>
              have fitsLater : (message ++ piece).length + (second :: others).flatten.length ≤
                  maxSize := by
                rw [List.length_append]
                omega
              have later := inductionHypothesis (List.cons_ne_nil _ _) fitsLater count
              have counts : (piece :: second :: others).length ≤ count + 1 ↔
                  (second :: others).length ≤ count :=
                Nat.succ_le_succ_iff
              rw [List.isEmpty_cons, if_neg Bool.false_ne_true, later]
              by_cases complete : (second :: others).length ≤ count
              · rw [if_pos complete, if_pos (counts.mpr complete), List.append_assoc]
                rfl
              · rw [if_neg complete, if_neg (mt counts.mp complete), List.append_assoc]
                rfl

/-- The fragments of a message complete it with the last one; fewer of them
complete nothing. -/
theorem feedAll_ofMessage
    {maxSize : Nat}
    {message : Bytes}
    (fits : message.length ≤ maxSize)
    (session : UInt32)
    (mtu count : Nat) :
    if (ofMessage session mtu message).length ≤ count then
      (initial maxSize).feedAll ((ofMessage session mtu message).take count) =
        ([message], initial maxSize)
    else
      ∃ after, (initial maxSize).feedAll ((ofMessage session mtu message).take count) =
        ([], after) ∧ after.dropped = 0 := by
  have size_pos : 0 < max mtu 1 := by omega
  have parts := Fragment.flatten_pieces size_pos message
  have notEmpty := Fragment.pieces_ne_nil size_pos message
  rw [ofMessage]
  generalize Fragment.pieces (max mtu 1) size_pos message = pieces at *
  subst parts
  cases pieces with
  | nil => exact absurd rfl notEmpty
  | cons piece rest =>
      rw [Fragment.length_ofPieces]
      cases count with
      | zero =>
          rw [if_neg (by simp)]
          exact ⟨initial maxSize, rfl, rfl⟩
      | succ count =>
          rw [ofPieces, List.take_succ_cons, feedAll_cons, feed_first]
          cases rest with
          | nil => simp [ofPieces, feedAll]
          | cons second others =>
              rw [List.flatten_cons, List.length_append] at fits
              have later := feedAll_later (List.cons_ne_nil second others) fits session count
              have counts : (piece :: second :: others).length ≤ count + 1 ↔
                  (second :: others).length ≤ count :=
                Nat.succ_le_succ_iff
              rw [List.isEmpty_cons, if_neg Bool.false_ne_true, later]
              by_cases complete : (second :: others).length ≤ count
              · rw [if_pos (counts.mpr complete), if_pos complete]
                rfl
              · rw [if_neg (mt counts.mp complete), if_neg complete]
                exact ⟨_, rfl, rfl⟩

end Assembler

namespace Channel

open Fragment (ofMessage)

/-! ## Many messages -/

/-- A message with the publication that sent it. -/
structure Sent where
  session : UInt32
  message : Bytes
deriving DecidableEq, Repr

/-- The fragments of messages, one message after the other. -/
def fragmentsOf (mtu : Nat) (messages : List Sent) : List Fragment :=
  messages.flatMap fun sent => ofMessage sent.session mtu sent.message

/-- The messages that end within a number of fragments. -/
def finished (mtu : Nat) : (count : Nat) → List Sent → List Bytes
  | _, [] => []
  | count, sent :: rest =>
      let size := (ofMessage sent.session mtu sent.message).length
      if size ≤ count then sent.message :: finished mtu (count - size) rest else []

theorem fragmentsOf_cons (mtu : Nat) (sent : Sent) (rest : List Sent) :
    fragmentsOf mtu (sent :: rest) =
      ofMessage sent.session mtu sent.message ++ fragmentsOf mtu rest :=
  rfl

theorem fragmentsOf_concat (mtu : Nat) (messages : List Sent) (sent : Sent) :
    fragmentsOf mtu (messages ++ [sent]) =
      fragmentsOf mtu messages ++ ofMessage sent.session mtu sent.message := by
  rw [fragmentsOf, List.flatMap_append, List.flatMap_singleton]
  rfl

/-- All messages end within all their fragments. -/
theorem finished_length_fragmentsOf (mtu : Nat) (messages : List Sent) :
    finished mtu (fragmentsOf mtu messages).length messages = messages.map Sent.message := by
  induction messages with
  | nil => rfl
  | cons sent rest inductionHypothesis =>
      rw [fragmentsOf_cons, List.length_append, finished, if_pos (Nat.le_add_right _ _),
        Nat.add_sub_cancel_left, inductionHypothesis, List.map_cons]

/-- An assembler gives out the messages that end within the fragments it takes,
and drops none. -/
theorem feedAll_fragmentsOf
    {maxSize : Nat}
    {messages : List Sent}
    (fits : ∀ sent ∈ messages, sent.message.length ≤ maxSize)
    (mtu count : Nat) :
    ((Assembler.initial maxSize).feedAll ((fragmentsOf mtu messages).take count)).1 =
        finished mtu count messages ∧
      ((Assembler.initial maxSize).feedAll
        ((fragmentsOf mtu messages).take count)).2.dropped = 0 := by
  induction messages generalizing count with
  | nil =>
      rw [fragmentsOf, List.flatMap_nil, List.take_nil]
      exact ⟨rfl, rfl⟩
  | cons sent rest inductionHypothesis =>
      obtain ⟨first, others⟩ := List.forall_mem_cons.mp fits
      have fed := Assembler.feedAll_ofMessage first sent.session mtu count
      rw [fragmentsOf_cons, finished]
      by_cases complete : (ofMessage sent.session mtu sent.message).length ≤ count
      · obtain ⟨messages_eq, dropped_eq⟩ := inductionHypothesis others
          (count - (ofMessage sent.session mtu sent.message).length)
        rw [if_pos complete, List.take_of_length_le complete] at fed
        rw [List.take_append, List.take_of_length_le complete, Assembler.feedAll_append, fed,
          if_pos complete]
        refine ⟨?_, dropped_eq⟩
        rw [messages_eq]
        rfl
      · rw [if_neg complete] at fed
        obtain ⟨after, partly, dropped_eq⟩ := fed
        rw [List.take_append_of_le_length (Nat.le_of_not_le complete), partly, if_neg complete]
        exact ⟨rfl, dropped_eq⟩

end Channel
end EventRelay
