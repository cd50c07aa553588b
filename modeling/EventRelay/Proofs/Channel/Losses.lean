import EventRelay.Proofs.Channel.Fragmentation
import EventRelay.Proofs.Channel.Sessions
import Mathlib.Algebra.Ring.Nat

/-!
# Messages that are lost

A message is lost when it is larger than the assembler allows and does not travel in
one fragment.  The fragment with which it grows too large is a drop, and so is every
one of its fragments after that, because its beginning is forgotten.  A lost message
therefore counts as one drop only if it grows too large with its last fragment.
-/

namespace EventRelay
namespace Assembler

open Fragment (ofPieces ofMessage pieces flagsAt ofSession)

/-! ## Outcomes -/

/-- The messages that fragments complete, the one that has begun after them, and
the number of drops. -/
def Outcome.total (outcome : Outcome) : List Bytes × Option Bytes × Nat :=
  (outcome.replies.filterMap Prod.snd, outcome.held, outcome.drops)

theorem total_cons
    (maxSize : Nat)
    (held : Option Bytes)
    (fragment : Fragment)
    (rest : List Fragment) :
    let first := effect maxSize held fragment
    let later := (outcome maxSize first.held rest).total
    (outcome maxSize held (fragment :: rest)).total =
      (first.message.toList ++ later.1, later.2.1, first.drops + later.2.2) := by
  intro first later
  rw [outcome, Outcome.total, List.filterMap_cons]
  dsimp only [first]
  cases (effect maxSize held fragment).message <;> rfl

theorem total_append
    (maxSize : Nat)
    (held : Option Bytes)
    (front back : List Fragment) :
    let first := (outcome maxSize held front).total
    let later := (outcome maxSize first.2.1 back).total
    (outcome maxSize held (front ++ back)).total =
      (first.1 ++ later.1, later.2.1, first.2.2 + later.2.2) := by
  induction front generalizing held with
  | nil => simp [outcome, Outcome.total]
  | cons fragment front inductionHypothesis =>
      dsimp only at inductionHypothesis ⊢
      rw [List.cons_append, total_cons, total_cons]
      dsimp only
      rw [inductionHypothesis, List.append_assoc, Nat.add_assoc]

/-- What an assembler makes of the fragments of one publication. -/
theorem total_eq
    {session : UInt32}
    {fragments : List Fragment}
    (own : ∀ fragment ∈ fragments, fragment.session = session)
    (maxSize : Nat) :
    (outcome maxSize none fragments).total =
      (((initial maxSize).feedAll fragments).1,
        ((initial maxSize).feedAll fragments).2.partial? session,
        ((initial maxSize).feedAll fragments).2.dropped) := by
  have known : ∀ fragment ∈ fragments, fragment.session ∈ ({session} : Finset UInt32) :=
    fun fragment present => Finset.mem_singleton.mpr (own fragment present)
  have all := Fragment.ofSession_eq_self own
  have replies_eq := filter_replies (initial maxSize) fragments session
  rw [filter_replies_eq_self own, all] at replies_eq
  rw [dropped_feedAll known, partial?_feedAll, feedAll_fst, replies_eq, Finset.sum_singleton, all]
  simp [Outcome.total, initial, partial?]

/-! ## One message -/

theorem effect_first (maxSize : Nat) (session : UInt32) (isLast : Bool) (piece : Bytes) :
    effect maxSize none ⟨session, flagsAt true isLast, piece⟩ =
      if isLast then ⟨some piece, none, 0⟩ else ⟨none, some piece, 0⟩ := by
  have isBegin := Fragment.isBegin_flagsAt true isLast
  have isEnd := Fragment.isEnd_flagsAt true isLast
  simp [effect, Fragment.isBegin, Fragment.isEnd, isBegin, isEnd]

theorem effect_orphan (maxSize : Nat) (session : UInt32) (isLast : Bool) (piece : Bytes) :
    effect maxSize none ⟨session, flagsAt false isLast, piece⟩ = ⟨none, none, 1⟩ := by
  have isBegin := Fragment.isBegin_flagsAt false isLast
  simp [effect, Fragment.isBegin, isBegin]

theorem effect_later
    (maxSize : Nat) (session : UInt32)
    (isLast : Bool)
    (begun piece : Bytes) :
    effect maxSize (some begun) ⟨session, flagsAt false isLast, piece⟩ =
      if maxSize < begun.length + piece.length then ⟨none, none, 1⟩
      else if isLast then ⟨some (begun ++ piece), none, 0⟩
      else ⟨none, some (begun ++ piece), 0⟩ := by
  have isBegin := Fragment.isBegin_flagsAt false isLast
  have isEnd := Fragment.isEnd_flagsAt false isLast
  simp [effect, Fragment.isBegin, Fragment.isEnd, isBegin, isEnd]

/-- Every fragment without a beginning is a drop. -/
theorem total_orphans (maxSize : Nat) (session : UInt32) (rest : List Bytes) :
    (outcome maxSize none (ofPieces session false rest)).total = ([], none, rest.length) := by
  induction rest with
  | nil => rfl
  | cons piece rest inductionHypothesis =>
      rw [ofPieces, total_cons, effect_orphan]
      dsimp only
      rw [inductionHypothesis, List.length_cons, Nat.add_comm]
      rfl

/-- A message that has begun and is going to be too large takes the pieces that
still fit; all others are drops. -/
theorem total_tooLarge
    {maxSize size : Nat}
    {session : UInt32}
    (size_pos : 0 < size)
    {begun bytes : Bytes}
    (large : maxSize < begun.length + bytes.length) :
    (outcome maxSize (some begun) (ofPieces session false (pieces size size_pos bytes))).total =
      ([], none, (pieces size size_pos bytes).length - (maxSize - begun.length) / size) := by
  induction length_eq : bytes.length using Nat.strongRecOn generalizing begun bytes with
  | ind length inductionHypothesis =>
      subst length_eq
      by_cases small : bytes.length ≤ size
      · have nothingFits : (maxSize - begun.length) / size = 0 :=
          Nat.div_eq_of_lt (by omega)
        rw [Fragment.pieces_of_length_le size_pos small, ofPieces, total_cons, effect_later,
          if_pos large, nothingFits]
        rfl
      · have taken : (bytes.take size).length = size := by
          rw [List.length_take]
          omega
        rw [Fragment.pieces_of_lt_length size_pos (by omega), ofPieces, total_cons, effect_later,
          taken, List.isEmpty_eq_false_iff.mpr (Fragment.pieces_ne_nil size_pos _),
          List.length_cons]
        by_cases full : maxSize < begun.length + size
        · have nothingFits : (maxSize - begun.length) / size = 0 :=
            Nat.div_eq_of_lt (by omega)
          rw [if_pos full, nothingFits]
          dsimp only
          rw [total_orphans, Nat.add_comm]
          rfl
        · have oneFits : (maxSize - begun.length) / size =
              (maxSize - (begun ++ bytes.take size).length) / size + 1 := by
            rw [List.length_append, taken, ← Nat.sub_sub]
            exact Nat.div_eq_sub_div size_pos (by omega)
          have grown : maxSize < (begun ++ bytes.take size).length + (bytes.drop size).length := by
            rw [List.length_append, taken, List.length_drop]
            omega
          have shorter : (bytes.drop size).length < bytes.length := by
            rw [List.length_drop]
            omega
          rw [if_neg full, if_neg Bool.false_ne_true]
          dsimp only
          rw [inductionHypothesis _ shorter grown rfl, oneFits, Nat.add_sub_add_right, Nat.zero_add]
          rfl

/-- Whether a message is larger than the assembler allows and travels in more than
one fragment. -/
def isLost (maxSize mtu : Nat) (message : Bytes) : Bool :=
  decide (maxSize < message.length ∧ max mtu 1 < message.length)

/-- The number of full fragments that an assembler puts together, and at least the
first one. -/
def fittingCount (maxSize mtu : Nat) : Nat :=
  max (maxSize / max mtu 1) 1

/-- The number of drops that a lost message counts as. -/
def lossOf (maxSize mtu : Nat) (message : Bytes) : Nat :=
  fragmentCount message.length mtu - fittingCount maxSize mtu

theorem total_ofMessage_of_not_isLost
    {maxSize mtu : Nat}
    {message : Bytes}
    (kept : isLost maxSize mtu message = false)
    (session : UInt32) :
    (outcome maxSize none (ofMessage session mtu message)).total = ([message], none, 0) := by
  by_cases fits : message.length ≤ maxSize
  · have fed := feedAll_ofMessage fits session mtu (ofMessage session mtu message).length
    rw [if_pos (Nat.le_refl _), List.take_length] at fed
    have own : ∀ fragment ∈ ofMessage session mtu message, fragment.session = session :=
      fun _ => Fragment.session_of_mem_ofPieces
    rw [total_eq own, fed]
    rfl
  · have small : message.length ≤ max mtu 1 := by
      rw [isLost, decide_eq_false_iff_not] at kept
      omega
    rw [ofMessage, Fragment.pieces_of_length_le _ small, ofPieces, total_cons, effect_first]
    rfl

/-- A message that is too large and not whole takes its first piece and the pieces
that still fit; all others are drops. -/
theorem total_notWhole
    {maxSize size : Nat}
    {session : UInt32}
    (size_pos : 0 < size)
    {message : Bytes}
    (tooLarge : maxSize < message.length)
    (notWhole : size < message.length) :
    (outcome maxSize none (ofPieces session true (pieces size size_pos message))).total =
      ([], none, (pieces size size_pos message).length - max (maxSize / size) 1) := by
  have taken : (message.take size).length = size := by
    rw [List.length_take]
    omega
  have large : maxSize < (message.take size).length + (message.drop size).length := by
    rwa [← List.length_append, List.take_append_drop]
  have fitting : max (maxSize / size) 1 = (maxSize - size) / size + 1 := by
    by_cases full : size ≤ maxSize
    · rw [Nat.div_eq_sub_div size_pos full]
      exact Nat.max_eq_left (Nat.le_add_left _ _)
    · rw [Nat.div_eq_of_lt (by omega), Nat.div_eq_of_lt (by omega)]
      rfl
  rw [Fragment.pieces_of_lt_length size_pos notWhole, ofPieces, total_cons, effect_first,
    List.isEmpty_eq_false_iff.mpr (Fragment.pieces_ne_nil size_pos _), if_neg Bool.false_ne_true]
  dsimp only
  rw [total_tooLarge size_pos large, taken, List.length_cons, fitting, Nat.add_sub_add_right,
    Nat.zero_add]
  rfl

theorem total_ofMessage_of_isLost
    {maxSize mtu : Nat}
    {message : Bytes}
    (lost : isLost maxSize mtu message = true)
    (session : UInt32) :
    (outcome maxSize none (ofMessage session mtu message)).total =
      ([], none, lossOf maxSize mtu message) := by
  obtain ⟨tooLarge, notWhole⟩ := of_decide_eq_true lost
  rw [lossOf, ← Fragment.length_ofMessage session, ofMessage, Fragment.length_ofPieces]
  exact total_notWhole _ tooLarge notWhole

/-- A lost message has more fragments than fit. -/
theorem fittingCount_lt
    {maxSize mtu : Nat}
    {message : Bytes}
    (lost : isLost maxSize mtu message = true) :
    fittingCount maxSize mtu < fragmentCount message.length mtu := by
  obtain ⟨tooLarge, notWhole⟩ := of_decide_eq_true lost
  have size_pos : 0 < max mtu 1 := by omega
  rw [fittingCount, fragmentCount]
  generalize max mtu 1 = size at *
  have bounded : (max (maxSize / size) 1) * size < message.length := by
    rw [← Nat.mul_max_mul_right, Nat.one_mul]
    exact Nat.max_lt.mpr ⟨Nat.lt_of_le_of_lt (Nat.div_mul_le_self _ _) tooLarge, notWhole⟩
  apply lt_of_lt_of_le _ (Nat.le_max_left _ _)
  apply (Nat.le_div_iff_mul_le size_pos).mpr
  rw [Nat.succ_mul]
  omega

/-! ## Many messages -/

/-- Every message is given out, or counts as the drops of a lost message. -/
theorem total_messages (maxSize mtu : Nat) (session : UInt32) (messages : List Bytes) :
    (outcome maxSize none (messages.flatMap (ofMessage session mtu))).total =
      (messages.filter fun message => !isLost maxSize mtu message, none,
        ((messages.filter (isLost maxSize mtu)).map (lossOf maxSize mtu)).sum) := by
  induction messages with
  | nil => rfl
  | cons message rest inductionHypothesis =>
      rw [List.flatMap_cons, total_append]
      cases lost : isLost maxSize mtu message with
      | true =>
          rw [total_ofMessage_of_isLost lost]
          dsimp only
          rw [inductionHypothesis]
          simp [lost]
      | false =>
          rw [total_ofMessage_of_not_isLost lost]
          dsimp only
          rw [inductionHypothesis]
          simp [lost]

/-- Lost messages count as one drop each just if each of them grows too large with
its last fragment. -/
theorem sum_lossOf_eq_length_iff
    {maxSize mtu : Nat}
    {messages : List Bytes}
    (lost : ∀ message ∈ messages, isLost maxSize mtu message = true) :
    messages.length ≤ (messages.map (lossOf maxSize mtu)).sum ∧
      ((messages.map (lossOf maxSize mtu)).sum = messages.length ↔
        ∀ message ∈ messages,
          fragmentCount message.length mtu = fittingCount maxSize mtu + 1) := by
  induction messages with
  | nil => simp
  | cons message rest inductionHypothesis =>
      obtain ⟨first, others⟩ := List.forall_mem_cons.mp lost
      obtain ⟨atLeast, exactly⟩ := inductionHypothesis others
      have more := fittingCount_lt first
      rw [List.map_cons, List.sum_cons, List.length_cons, List.forall_mem_cons, ← exactly, lossOf]
      omega

/-- The fragments of messages of one publication give out the messages that are not
lost, leave none begun, and count as many drops as the lost messages have fragments
that do not fit.  These are the number of messages that are not given out exactly
when each of them grows too large with its last fragment, and more otherwise. -/
theorem countsLost_iff (maxSize mtu : Nat) (session : UInt32) (messages : List Bytes) :
    let result := (initial maxSize).feedAll (messages.flatMap (ofMessage session mtu))
    let lost := messages.filter (isLost maxSize mtu)
    (result.1 = messages.filter fun message => !isLost maxSize mtu message) ∧
      result.2.inProgress = 0 ∧
      result.2.dropped = (lost.map (lossOf maxSize mtu)).sum ∧
      messages.length ≤ result.1.length + result.2.dropped ∧
      (result.1.length + result.2.dropped = messages.length ↔
        ∀ message ∈ lost, fragmentCount message.length mtu = fittingCount maxSize mtu + 1) := by
  intro result lost
  have own : ∀ fragment ∈ messages.flatMap (ofMessage session mtu), fragment.session = session := by
    intro fragment present
    obtain ⟨message, _, isPart⟩ := List.mem_flatMap.mp present
    exact Fragment.session_of_mem_ofPieces isPart
  have all := (total_eq own maxSize).symm.trans (total_messages maxSize mtu session messages)
  rw [Prod.mk.injEq, Prod.mk.injEq] at all
  obtain ⟨given, nothing, drops_eq⟩ := all
  have given_eq : result.1 = messages.filter fun message => !isLost maxSize mtu message := given
  have dropped_eq : result.2.dropped = (lost.map (lossOf maxSize mtu)).sum := drops_eq
  obtain ⟨atLeast, exactly⟩ := @sum_lossOf_eq_length_iff maxSize mtu lost
    fun message isLost => (List.mem_filter.mp isLost).2
  have parted : result.1.length + lost.length = messages.length := by
    rw [given_eq, Nat.add_comm]
    exact (List.length_eq_length_filter_add (isLost maxSize mtu)).symm
  have begun_iff :=
    inProgress_alone_pos_iff maxSize (messages.flatMap (ofMessage session mtu)) session
  rw [alone, Fragment.ofSession_eq_self own, nothing] at begun_iff
  have idle : result.2.inProgress = 0 :=
    Nat.eq_zero_of_not_pos (mt begun_iff.mp Bool.false_ne_true)
  refine ⟨given_eq, idle, dropped_eq, by omega, ?_⟩
  rw [dropped_eq, ← exactly]
  omega

/-- A message of three fragments of which the second is too much counts as two
drops. -/
theorem dropped_of_long_message :
    ((initial 1).feedAll ([[1, 2, 3]].flatMap (ofMessage 1 1))).1 = [] ∧
      ((initial 1).feedAll ([[1, 2, 3]].flatMap (ofMessage 1 1))).2.dropped = 2 := by
  decide +kernel

end Assembler
end EventRelay
