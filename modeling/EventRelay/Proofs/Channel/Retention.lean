import EventRelay.Proofs.Channel.Finality
import EventRelay.Proofs.Event.Decoding
import EventRelay.Settings.Basic

/-!
# How much a channel keeps

A channel gives up fragments only when a message ends a term and when a subscription
ends, so that it keeps some that everybody has read.  Still it never keeps as much as its
capacity and a term together.

The fragments that are kept are the last part of what was accepted.  When a term is
announced, its start is at most the capacity ahead of the first of them: the slowest
subscription is not further back, and a message that nobody waits for is not larger.
Later the first of them only moves forward, and the position stays within the term.
-/

namespace EventRelay
namespace Channel

open Fragment (totalSize ofMessage)

/-! ## Giving up fragments -/

theorem totalSize_drop_le (count : Nat) (fragments : List Fragment) :
    totalSize (fragments.drop count) ≤ totalSize fragments := by
  have parts := Fragment.totalSize_append (fragments.take count) (fragments.drop count)
  rw [List.take_append_drop] at parts
  omega

/-- When somebody listens, what is left are the fragments that one subscription has still
to read. -/
theorem exists_fragments_compact_eq
    {channel : Channel}
    (listened : channel.cursors ≠ []) :
    ∃ entry ∈ channel.cursors, channel.compact.fragments = channel.pendingOf entry.2 := by
  have notEmpty : (channel.cursors.map fun cursor => cursor.2.nextIndex) ≠ [] :=
    fun nothing => listened (List.map_eq_nil_iff.mp nothing)
  cases least : (channel.cursors.map fun cursor => cursor.2.nextIndex).min? with
  | none => exact absurd (List.min?_eq_none_iff.mp least) notEmpty
  | some floor =>
      have member := (List.min?_eq_some_iff.mp least).1
      obtain ⟨entry, present, rfl⟩ := List.mem_map.mp member
      refine ⟨entry, present, ?_⟩
      have floor_eq : channel.floorIndex = entry.2.nextIndex := by
        rw [floorIndex, least]
        rfl
      rw [compact, pendingOf, floor_eq]
      dsimp only
      -- Dropping more than there is drops everything.
      rw [← List.drop_eq_drop_min]

/-! ## The invariant -/

/-- The length of a term: a length of zero counts as one. -/
def Settings.termSize (settings : Settings) : Nat :=
  max settings.termLength 1

/-- The latest term starts at most the capacity ahead of the first fragment that is
kept. -/
def Retains (channel : Channel) : Prop :=
  channel.activeTerm * channel.settings.termSize + totalSize channel.fragments ≤
    channel.position + channel.settings.capacity

theorem retains_initial (settings : Settings) : (initial settings).Retains := by
  simp [Retains, initial, totalSize]

/-- Giving up fragments leaves the start of the term where it is. -/
theorem Retains.compact
    {channel : Channel}
    (retains : channel.Retains) :
    channel.compact.Retains := by
  have fewer : totalSize channel.compact.fragments ≤ totalSize channel.fragments :=
    totalSize_drop_le _ _
  exact Nat.le_trans (Nat.add_le_add_left fewer _) retains

/-- A message moves the position by what it adds at most. -/
theorem Retains.accept
    {channel : Channel}
    (retains : channel.Retains)
    (session : UInt32)
    (message : Bytes) :
    (channel.accept session message (channel.positionAfter message)).Retains := by
  have added : totalSize (channel.accept session message
      (channel.positionAfter message)).fragments ≤
        totalSize channel.fragments + channel.sizeOf message := by
    rw [Channel.accept]
    dsimp only
    rw [Fragment.totalSize_append]
    split
    · exact Nat.add_le_add_left (Nat.zero_le _) _
    · exact Nat.add_le_add_left (Nat.le_of_eq (Fragment.totalSize_ofMessage _ _ _)) _
  unfold Retains at *
  change channel.activeTerm * channel.settings.termSize + _ ≤
    channel.position + channel.sizeOf message + channel.settings.capacity
  omega

/-- When a message is not refused, what is left after giving up fragments has room for it
within the capacity. -/
theorem Balanced.totalSize_compact_add_le
    {channel : Channel}
    (balanced : channel.Balanced)
    {size : Nat}
    (small : size ≤ channel.settings.capacity)
    (inTime : channel.exceedsCapacity size = false) :
    totalSize channel.compact.fragments + size ≤ channel.settings.capacity := by
  by_cases nobody : channel.cursors = []
  · rw [fragments_compact_eq_nil nobody, totalSize, Nat.zero_add]
    exact small
  · obtain ⟨entry, present, kept⟩ := exists_fragments_compact_eq nobody
    have settled := (balanced.settles entry present).position_add
    have lag := lag_add_le_capacity inTime present
    rw [kept]
    omega

/-- A term that is announced starts at most where the message ends. -/
theorem Balanced.retains_announced
    {channel : Channel}
    (balanced : channel.Balanced)
    {message : Bytes}
    (small : channel.sizeOf message ≤ channel.settings.capacity)
    (inTime : channel.exceedsCapacity (channel.sizeOf message) = false) :
    (Channel.compact
      { channel with activeTerm := channel.termOf (channel.positionAfter message) }).Retains := by
  have start_le : channel.termOf (channel.positionAfter message) * channel.settings.termSize ≤
      channel.position + channel.sizeOf message :=
    Nat.div_mul_le_self _ _
  have kept_le := balanced.totalSize_compact_add_le small inTime
  change channel.termOf (channel.positionAfter message) * channel.settings.termSize +
    totalSize channel.compact.fragments ≤ channel.position + channel.settings.capacity
  omega

/-- A call offers no message that is larger than the capacity. -/
def Settings.Admits (settings : Settings) : Call → Prop
  | .offer _ message => EventRelay.framedSize message.length settings.mtu ≤ settings.capacity
  | _ => True

instance (settings : Settings) (call : Call) : Decidable (settings.Admits call) := by
  cases call <;> unfold Settings.Admits <;> infer_instance

/-- Every call of a message that is not too large keeps the start of the term near what is
kept. -/
theorem Balanced.retains_perform
    {channel : Channel}
    (balanced : channel.Balanced)
    (retains : channel.Retains)
    {call : Call}
    (admitted : channel.settings.Admits call) :
    (channel.perform call).Retains := by
  cases call with
  | publication | subscribe | close => exact retains
  | offer session message =>
      have offered := offered_offer channel session message
      rw [Channel.perform]
      generalize channel.offer session message = answered at offered ⊢
      cases offered with
      | closed | maxPositionExceeded | backPressured => exact retains
      | adminAction _ _ inTime => exact balanced.retains_announced admitted inTime
      | accepted => exact retains.accept session message
  | poll subscription limit =>
      rw [Channel.perform, Channel.poll]
      split <;> exact retains
  | unsubscribe subscription =>
      have fewer : Retains
          { channel with
            cursors := channel.cursors.filter fun cursor => cursor.1 != subscription } :=
        retains
      exact fewer.compact

theorem retains_performAll
    {settings : Settings}
    {calls : List Call}
    (admitted : ∀ call ∈ calls, settings.Admits call) :
    ((initial settings).performAll calls).Retains := by
  induction calls using List.reverseRecOn with
  | nil => exact retains_initial settings
  | append_singleton calls call inductionHypothesis =>
      obtain ⟨before, last⟩ := List.forall_mem_append.mp admitted
      have admittedLast := last call List.mem_cons_self
      rw [← settings_performAll settings calls] at admittedLast
      rw [performAll, List.foldl_append]
      exact (balanced_performAll settings calls).retains_perform (inductionHypothesis before)
        admittedLast

/-- A channel keeps less than its capacity and a term together. -/
theorem Balanced.totalSize_lt
    {channel : Channel}
    (balanced : channel.Balanced)
    (retains : channel.Retains) :
    totalSize channel.fragments < channel.settings.capacity + channel.settings.termSize := by
  have termSize_pos : 0 < channel.settings.termSize :=
    Nat.lt_of_lt_of_le Nat.one_pos (Nat.le_max_right _ _)
  have inTerm : channel.position < (channel.activeTerm + 1) * channel.settings.termSize :=
    (Nat.div_lt_iff_lt_mul termSize_pos).mp (Nat.lt_succ_of_le balanced.termOf_position_le)
  rw [Nat.add_one_mul] at inTerm
  unfold Retains at retains
  omega

/-! ## Encoded events -/

/-- In settings without a violation the capacity holds the largest event. -/
theorem framedSize_maxEncodedSize_le
    {settings : EventRelay.Settings}
    (valid : settings.violation? = none) :
    EventRelay.framedSize Event.maxEncodedSize settings.transport.mtu.toNat ≤
      settings.transport.capacity.toNat := by
  by_contra large
  have small : settings.transport.capacity.toNat <
      EventRelay.framedSize Event.maxEncodedSize settings.transport.mtu.toNat :=
    Nat.not_le.mp large
  unfold EventRelay.Settings.violation? at valid
  dsimp only at valid
  rw [if_pos small] at valid
  split at valid <;> cases valid

/-- The channel of settings without a violation admits every event. -/
theorem admits_encode
    {settings : EventRelay.Settings}
    (valid : settings.violation? = none)
    (session : UInt32)
    (event : Event) :
    settings.channelSettings.Admits (.offer session event.encode) := by
  refine Nat.le_trans (framedSize_le_framedSize ?_ _) (framedSize_maxEncodedSize_le valid)
  rw [event.length_encode]
  exact event.encodedSize_le

/-! ## The bound -/

/-- Whatever is done with a channel, the fragments that it keeps count for less than its
capacity and a term together, as long as no message alone exceeds the capacity.  No event
does in settings without a violation. -/
theorem keepsLess_performAll :
    (∀ (settings : Settings) (calls : List Call), (∀ call ∈ calls, settings.Admits call) →
      totalSize ((initial settings).performAll calls).fragments <
        settings.capacity + max settings.termLength 1) ∧
    ∀ settings : EventRelay.Settings, settings.violation? = none →
      ∀ session event, settings.channelSettings.Admits (.offer session (Event.encode event)) := by
  refine ⟨fun settings calls admitted => ?_, fun settings valid session event => ?_⟩
  · have bound := (balanced_performAll settings calls).totalSize_lt (retains_performAll admitted)
    rwa [settings_performAll] at bound
  · exact admits_encode valid session event

/-- A message ends terms and is not offered again, and smaller ones follow that are read at
once. -/
def lingering : List Call :=
  [.subscribe, .offer 1 (List.replicate 24 0), .offer 1 [], .offer 1 [], .poll 0 2, .offer 1 [],
    .offer 1 [], .poll 0 2, .offer 1 (List.replicate 7 0), .poll 0 1]

/-- A channel of which the capacity is 32 and a term 16 keeps 47 bytes that everybody has
read. -/
theorem keepsLess_performAll_lingering :
    (∀ call ∈ lingering, Settings.Admits ⟨32, 16, 100, 4096⟩ call) ∧
      ((initial ⟨32, 16, 100, 4096⟩).performAll lingering).cursors = [(0, ⟨5, 47⟩)] ∧
      totalSize ((initial ⟨32, 16, 100, 4096⟩).performAll lingering).fragments = 47 ∧
      totalSize ((initial ⟨32, 16, 100, 4096⟩).performAll lingering).fragments < 32 + max 16 1 ∧
      EventRelay.Settings.standard.violation? = none ∧
      EventRelay.Settings.standard.channelSettings.Admits (.offer 1 Event.sample.encode) := by
  have admitted : ∀ call ∈ lingering, Settings.Admits ⟨32, 16, 100, 4096⟩ call := by
    decide +kernel
  have valid : EventRelay.Settings.standard.violation? = none := by decide +kernel
  exact ⟨admitted, by decide +kernel, by decide +kernel,
    keepsLess_performAll.1 ⟨32, 16, 100, 4096⟩ lingering admitted, valid,
    keepsLess_performAll.2 .standard valid 1 Event.sample⟩

end Channel
end EventRelay
