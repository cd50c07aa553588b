import EventRelay.Proofs.Channel.Delivery
import EventRelay.Proofs.Channel.Fragmentation
import Mathlib.Data.List.Induction

/-!
# The accounts of a channel

A channel counts bytes twice: its own position grows by the framed size of every
message, and each subscription's position by the framed sizes of the fragments
that it polls.  In every channel that calls can lead to, the two differ by just
the fragments that the subscription has still to read, and by no more than the
capacity.  No difference that an offer or a poll takes is negative, and no sum
outgrows the greatest position.
-/

namespace EventRelay
namespace Channel

open Fragment (totalSize headerSize ofMessage)

/-! ## Calls on a channel -/

/-- The channel after a call. -/
def perform (channel : Channel) : Call → Channel
  | .publication => channel.publication.2
  | .subscribe => channel.subscribe.2
  | .offer session message => (channel.offer session message).2
  | .poll subscription limit => (channel.poll subscription limit).2
  | .unsubscribe subscription => channel.unsubscribe subscription
  | .close => channel.close

/-- The channel after calls in order. -/
def performAll (channel : Channel) (calls : List Call) : Channel :=
  calls.foldl perform channel

theorem performAll_append (channel : Channel) (front back : List Call) :
    channel.performAll (front ++ back) = (channel.performAll front).performAll back :=
  List.foldl_append

theorem Exchange.channel_step (exchange : Exchange) (call : Call) :
    (exchange.step call).channel = exchange.channel.perform call := by
  cases call with
  | offer session message =>
      rw [Exchange.step, perform]
      split <;> rename_i answered <;> rw [answered]
  | publication | subscribe | poll | unsubscribe | close => rfl

theorem Exchange.channel_run (exchange : Exchange) (calls : List Call) :
    (exchange.run calls).channel = exchange.channel.performAll calls := by
  induction calls generalizing exchange with
  | nil => rfl
  | cons call calls inductionHypothesis =>
      rw [performAll, List.foldl_cons, ← Exchange.channel_step]
      exact inductionHypothesis (exchange.step call)

theorem wellFormed_performAll (settings : Settings) (calls : List Call) :
    ((initial settings).performAll calls).WellFormed := by
  have invariant := (Exchange.invariant_start settings).run calls
  have wellFormed := invariant.wellFormed
  rwa [Exchange.channel_run] at wellFormed

/-! ## Offers -/

/-- The number of bytes that a message counts for. -/
def sizeOf (channel : Channel) (message : Bytes) : Nat :=
  EventRelay.framedSize message.length channel.settings.mtu

/-- The position that the channel would have after a message. -/
def positionAfter (channel : Channel) (message : Bytes) : Nat :=
  channel.position + channel.sizeOf message

/-- What a channel answers to an offer, and what it is then.  An offer is judged
by the closing first, then by the greatest position, the capacity, and the term. -/
inductive Offered (channel : Channel) (session : UInt32) (message : Bytes) :
    Offer × Channel → Prop
  | closed :
      channel.isClosed = true →
      Offered channel session message (.closed, channel)
  | maxPositionExceeded :
      channel.isClosed = false →
      channel.settings.maxPosition < channel.positionAfter message →
      Offered channel session message (.maxPositionExceeded, channel)
  | backPressured :
      channel.isClosed = false →
      channel.positionAfter message ≤ channel.settings.maxPosition →
      channel.exceedsCapacity (channel.sizeOf message) = true →
      Offered channel session message (.backPressured, channel)
  | adminAction :
      channel.isClosed = false →
      channel.positionAfter message ≤ channel.settings.maxPosition →
      channel.exceedsCapacity (channel.sizeOf message) = false →
      channel.activeTerm < channel.termOf (channel.positionAfter message) →
      Offered channel session message (.adminAction,
        compact { channel with activeTerm := channel.termOf (channel.positionAfter message) })
  | accepted :
      channel.isClosed = false →
      channel.positionAfter message ≤ channel.settings.maxPosition →
      channel.exceedsCapacity (channel.sizeOf message) = false →
      channel.termOf (channel.positionAfter message) ≤ channel.activeTerm →
      Offered channel session message (.accepted (channel.positionAfter message),
        channel.accept session message (channel.positionAfter message))

theorem offered_offer (channel : Channel) (session : UInt32) (message : Bytes) :
    Offered channel session message (channel.offer session message) := by
  unfold offer
  dsimp only
  split
  · rename_i closed
    exact .closed closed
  · rename_i notClosed
    have isOpen := Bool.eq_false_iff.mpr notClosed
    split
    · rename_i tooFar
      exact .maxPositionExceeded isOpen tooFar
    · rename_i notTooFar
      have within := Nat.not_lt.mp notTooFar
      split
      · rename_i slow
        exact .backPressured isOpen within slow
      · rename_i notSlow
        have inTime := Bool.eq_false_iff.mpr notSlow
        split
        · rename_i newTerm
          exact .adminAction isOpen within inTime newTerm
        · rename_i sameTerm
          exact .accepted isOpen within inTime (Nat.not_lt.mp sameTerm)

/-! ## Lag -/

/-- The slowest subscription is at most as far as any. -/
theorem slowest?_le
    {channel : Channel}
    {slowest : Nat}
    (isSlowest : channel.slowest? = some slowest)
    {entry : Nat × Cursor}
    (present : entry ∈ channel.cursors) :
    slowest ≤ entry.2.position := by
  rw [slowest?, List.min?_eq_some_iff] at isSlowest
  exact isSlowest.2 _ (List.mem_map.mpr ⟨entry, present, rfl⟩)

/-- The slowest position is that of a subscription. -/
theorem exists_of_slowest?_eq_some
    {channel : Channel}
    {slowest : Nat}
    (isSlowest : channel.slowest? = some slowest) :
    ∃ entry ∈ channel.cursors, entry.2.position = slowest := by
  rw [slowest?, List.min?_eq_some_iff] at isSlowest
  exact List.mem_map.mp isSlowest.1

/-- If the slowest subscription does not fall back too far, none does. -/
theorem lag_add_le_capacity
    {channel : Channel}
    {size : Nat}
    (inTime : channel.exceedsCapacity size = false)
    {entry : Nat × Cursor}
    (present : entry ∈ channel.cursors) :
    channel.position - entry.2.position + size ≤ channel.settings.capacity := by
  rw [exceedsCapacity] at inTime
  cases isSlowest : channel.slowest? with
  | none =>
      rw [slowest?, List.min?_eq_none_iff, List.map_eq_nil_iff] at isSlowest
      rw [isSlowest] at present
      cases present
  | some slowest =>
      have slowest_le := slowest?_le isSlowest present
      rw [isSlowest] at inTime
      have bound := of_decide_eq_false inTime
      omega

/-! ## The invariant -/

/-- What the channel and a cursor count agrees. -/
structure Settles (channel : Channel) (cursor : Cursor) : Prop where
  /-- The cursor is behind by what it has still to read. -/
  position_add : cursor.position + totalSize (channel.pendingOf cursor) = channel.position
  /-- It is not behind by more than the capacity. -/
  lag_le : channel.position - cursor.position ≤ channel.settings.capacity

/-- The counts of a channel agree with its fragments and its settings. -/
structure Balanced (channel : Channel) : Prop where
  /-- The channel does not pass its greatest position. -/
  position_le : channel.position ≤ channel.settings.maxPosition
  /-- The term of its position was entered or announced. -/
  termOf_position_le : channel.termOf channel.position ≤ channel.activeTerm
  /-- Nothing is kept for nobody. -/
  fragments_eq_nil : channel.cursors = [] → channel.fragments = []
  /-- A fragment counts for its header at least, so that indices grow more slowly
  than the position. -/
  headers_le : channel.tailIndex * headerSize ≤ channel.position
  /-- Every subscription agrees with the channel. -/
  settles : ∀ entry ∈ channel.cursors, channel.Settles entry.2

theorem balanced_initial (settings : Settings) : (initial settings).Balanced where
  position_le := Nat.zero_le _
  termOf_position_le := Nat.le_of_eq (Nat.zero_div _)
  fragments_eq_nil := fun _ => rfl
  headers_le := Nat.le_of_eq (Nat.zero_mul _)
  settles := by simp [initial]

@[simp] theorem tailIndex_compact (channel : Channel) :
    channel.compact.tailIndex = channel.tailIndex := by
  rw [tailIndex, tailIndex, compact, List.length_drop]
  dsimp only
  omega

/-- When nobody listens, all fragments are given up. -/
theorem fragments_compact_eq_nil
    {channel : Channel}
    (nobody : channel.cursors = []) :
    channel.compact.fragments = [] := by
  have floor : channel.floorIndex = channel.tailIndex := by
    rw [floorIndex, nobody]
    rfl
  rw [compact, floor, tailIndex, Nat.add_sub_cancel_left, Nat.min_self]
  exact List.drop_length

/-- Giving up fragments, after subscriptions have ended or a term was announced,
keeps the balance. -/
theorem Balanced.compact
    {channel : Channel}
    (balanced : channel.Balanced)
    (wellFormed : channel.WellFormed)
    {activeTerm : Nat}
    (later : channel.activeTerm ≤ activeTerm)
    {cursors : List (Nat × Cursor)}
    (fewer : cursors.Sublist channel.cursors) :
    (Channel.compact
      { channel with activeTerm := activeTerm, cursors := cursors }).Balanced where
  position_le := balanced.position_le
  termOf_position_le := Nat.le_trans balanced.termOf_position_le later
  fragments_eq_nil := fun nobody => fragments_compact_eq_nil nobody
  headers_le := by
    rw [tailIndex_compact]
    exact balanced.headers_le
  settles := by
    intro entry present
    have settled := balanced.settles entry (fewer.mem present)
    have inRange := wellFormed.inRange entry (fewer.mem present)
    let fewerCursors := { channel with activeTerm := activeTerm, cursors := cursors }
    have listed : entry ∈ fewerCursors.cursors := present
    have kept := pendingOf_compact listed ⟨inRange.baseIndex_le, inRange.le_tailIndex⟩
    refine ⟨?_, settled.lag_le⟩
    rw [kept.1]
    exact settled.position_add

/-- An accepted message keeps the balance. -/
theorem Balanced.accept
    {channel : Channel}
    (balanced : channel.Balanced)
    (wellFormed : channel.WellFormed)
    {message : Bytes}
    (within : channel.positionAfter message ≤ channel.settings.maxPosition)
    (inTime : channel.exceedsCapacity (channel.sizeOf message) = false)
    (sameTerm : channel.termOf (channel.positionAfter message) ≤ channel.activeTerm)
    (session : UInt32) :
    (channel.accept session message (channel.positionAfter message)).Balanced where
  position_le := within
  termOf_position_le := sameTerm
  fragments_eq_nil := by
    intro nobody
    have nobodyBefore : channel.cursors = [] := nobody
    rw [Channel.accept, nobodyBefore]
    exact (List.append_nil _).trans (balanced.fragments_eq_nil nobodyBefore)
  headers_le := by
    have before := balanced.headers_le
    have count := Fragment.length_ofMessage session channel.settings.mtu message
    -- The position counts the headers of the message whether or not somebody listens.
    have added : ∀ kept : List Fragment,
        kept.length ≤ fragmentCount message.length channel.settings.mtu →
          (channel.tailIndex + kept.length) * headerSize ≤ channel.positionAfter message := by
      intro kept few
      have headers := Nat.mul_le_mul_right headerSize few
      rw [positionAfter, sizeOf, EventRelay.framedSize, Nat.add_mul]
      omega
    rw [tailIndex, Channel.accept, List.length_append, ← Nat.add_assoc]
    refine added _ ?_
    split
    · exact Nat.zero_le _
    · exact Nat.le_of_eq count
  settles := by
    intro entry listening
    have present : entry ∈ channel.cursors := listening
    have settled := (balanced.settles entry present).position_add
    have pending := pendingOf_accept present (wellFormed.inRange entry present) session message
      (channel.positionAfter message)
    have size : totalSize (ofMessage session channel.settings.mtu message) =
        channel.sizeOf message :=
      Fragment.totalSize_ofMessage _ _ _
    have lag := lag_add_le_capacity inTime present
    constructor
    · rw [pending.1, Fragment.totalSize_append, size, ← Nat.add_assoc, settled]
      rfl
    · change channel.position + channel.sizeOf message - entry.2.position ≤ _
      dsimp only [Channel.accept]
      omega

/-- An offer keeps the balance. -/
theorem Balanced.offer
    {channel : Channel}
    (balanced : channel.Balanced)
    (wellFormed : channel.WellFormed)
    (session : UInt32)
    (message : Bytes) :
    (channel.offer session message).2.Balanced := by
  have offered := offered_offer channel session message
  generalize channel.offer session message = answered at offered ⊢
  cases offered with
  | closed | maxPositionExceeded | backPressured => exact balanced
  | adminAction _ _ _ newTerm =>
      exact balanced.compact wellFormed (Nat.le_of_lt newTerm) (List.Sublist.refl _)
  | accepted _ within inTime sameTerm =>
      exact balanced.accept wellFormed within inTime sameTerm session

/-- A new subscription has nothing to read and is not behind. -/
theorem Balanced.subscribe
    {channel : Channel}
    (balanced : channel.Balanced) :
    channel.subscribe.2.Balanced where
  position_le := balanced.position_le
  termOf_position_le := balanced.termOf_position_le
  fragments_eq_nil := fun nobody => absurd nobody (List.append_ne_nil_of_right_ne_nil _ (by simp))
  headers_le := balanced.headers_le
  settles := by
    intro entry present
    rcases List.mem_append.mp present with old | new
    · have settled := balanced.settles entry old
      exact ⟨settled.position_add, settled.lag_le⟩
    · rw [List.mem_singleton.mp new]
      have nothing : channel.fragments.drop (channel.tailIndex - channel.baseIndex) = [] := by
        rw [tailIndex, Nat.add_sub_cancel_left, List.drop_length]
      constructor
      · simp only [Channel.subscribe, pendingOf, nothing, totalSize, Nat.add_zero]
      · simp only [Channel.subscribe, Nat.sub_self, Nat.zero_le]

/-- A poll adds to a position what it takes off the pending fragments. -/
theorem Balanced.poll
    {channel : Channel}
    (balanced : channel.Balanced)
    (wellFormed : channel.WellFormed)
    (subscription limit : Nat) :
    (channel.poll subscription limit).2.Balanced := by
  cases found : channel.cursor? subscription with
  | none =>
      rw [Channel.poll, found]
      exact balanced
  | some cursor =>
      have present := mem_of_cursor?_eq_some found
      have settled := balanced.settles _ present
      have parts := (pendingOf_advance (wellFormed.inRange _ present) limit).1
      rw [poll_of_cursor?_eq_some found]
      dsimp only at settled parts ⊢
      generalize (channel.pendingOf cursor).take limit = batch at parts ⊢
      refine ⟨balanced.position_le, balanced.termOf_position_le, ?_, balanced.headers_le, ?_⟩
      · intro nobody
        exact balanced.fragments_eq_nil (List.map_eq_nil_iff.mp nobody)
      · intro entry member
        rcases mem_advanced wellFormed present member with rfl | ⟨_, old⟩
        · have sizes := congrArg totalSize parts
          rw [Fragment.totalSize_append] at sizes
          have before := settled.position_add
          have lag := settled.lag_le
          constructor
          · change cursor.position + totalSize batch + totalSize (channel.pendingOf _) = _
            dsimp only
            omega
          · change channel.position - (cursor.position + totalSize batch) ≤ _
            dsimp only
            omega
        · have other := balanced.settles entry old
          exact ⟨other.position_add, other.lag_le⟩

/-- Every call keeps the balance. -/
theorem Balanced.perform
    {channel : Channel}
    (balanced : channel.Balanced)
    (wellFormed : channel.WellFormed)
    (call : Call) :
    (channel.perform call).Balanced := by
  have settles := balanced.settles
  cases call with
  | publication | close =>
      refine ⟨balanced.position_le, balanced.termOf_position_le, balanced.fragments_eq_nil,
        balanced.headers_le, fun entry present => ?_⟩
      exact ⟨(settles entry present).position_add, (settles entry present).lag_le⟩
  | subscribe => exact balanced.subscribe
  | offer session message => exact balanced.offer wellFormed session message
  | poll subscription limit => exact balanced.poll wellFormed subscription limit
  | unsubscribe subscription =>
      exact balanced.compact wellFormed (Nat.le_refl _) List.filter_sublist

/-- Every channel that calls can lead to is balanced. -/
theorem balanced_performAll (settings : Settings) (calls : List Call) :
    ((initial settings).performAll calls).Balanced := by
  induction calls using List.reverseRecOn with
  | nil => exact balanced_initial settings
  | append_singleton calls call inductionHypothesis =>
      rw [performAll, List.foldl_append]
      exact inductionHypothesis.perform (wellFormed_performAll settings calls) call

/-- No call changes the settings. -/
theorem settings_performAll (settings : Settings) (calls : List Call) :
    ((initial settings).performAll calls).settings = settings := by
  have invariant := (Exchange.invariant_start settings).run calls
  have settings_eq := invariant.settings_eq
  rwa [Exchange.channel_run] at settings_eq

/-! ## Accounts in words -/

/-- What can be said of the accounts of a channel, in which all numbers are kept
in words. -/
structure Accounts (settings : Settings) (channel : Channel) : Prop where
  /-- The channel does not pass its greatest position. -/
  position_le : channel.position ≤ settings.maxPosition
  /-- The term of its position was entered or announced. -/
  term_le : channel.position / max settings.termLength 1 ≤ channel.activeTerm
  /-- Nothing is kept for nobody. -/
  fragments_eq_nil : channel.cursors = [] → channel.fragments = []
  /-- Every subscription is among the fragments that are kept, or at their end. -/
  inRange : ∀ entry ∈ channel.cursors,
    channel.baseIndex ≤ entry.2.nextIndex ∧ entry.2.nextIndex ≤ channel.tailIndex
  /-- No subscription is ahead of the channel. -/
  cursor_position_le : ∀ entry ∈ channel.cursors, entry.2.position ≤ channel.position
  /-- A subscription is behind by the framed sizes of what it has not read. -/
  cursor_position_add : ∀ entry ∈ channel.cursors,
    entry.2.position + totalSize (channel.pendingOf entry.2) = channel.position
  /-- No subscription is behind by more than the capacity. -/
  lag_le : ∀ entry ∈ channel.cursors,
    channel.position - entry.2.position ≤ settings.capacity
  /-- A subscription that has read everything is where the channel is. -/
  drained : ∀ entry ∈ channel.cursors,
    channel.tailIndex ≤ entry.2.nextIndex → entry.2.position = channel.position
  /-- The slowest position can be taken from the channel's. -/
  slowest_le : ∀ slowest, channel.slowest? = some slowest → slowest ≤ channel.position
  /-- What an offer compares with the capacity fits a word. -/
  window_lt : ∀ slowest message, channel.slowest? = some slowest →
    channel.positionAfter message ≤ settings.maxPosition →
    channel.position - slowest + channel.sizeOf message < UInt64.size
  /-- The indices of fragments fit a word. -/
  tailIndex_lt : channel.tailIndex < UInt64.size

/-- A balanced channel keeps its accounts in words if its greatest position is one. -/
theorem Balanced.accounts
    {channel : Channel}
    (balanced : channel.Balanced)
    (wellFormed : channel.WellFormed)
    (word : channel.settings.maxPosition < UInt64.size) :
    Accounts channel.settings channel where
  position_le := balanced.position_le
  term_le := balanced.termOf_position_le
  fragments_eq_nil := balanced.fragments_eq_nil
  inRange := fun entry present =>
    ⟨(wellFormed.inRange entry present).baseIndex_le,
      (wellFormed.inRange entry present).le_tailIndex⟩
  cursor_position_le := by
    intro entry present
    rw [← (balanced.settles entry present).position_add]
    exact Nat.le_add_right _ _
  cursor_position_add := fun entry present => (balanced.settles entry present).position_add
  lag_le := fun entry present => (balanced.settles entry present).lag_le
  drained := by
    intro entry present atEnd
    have settled := (balanced.settles entry present).position_add
    have nothing : channel.pendingOf entry.2 = [] := by
      rw [tailIndex] at atEnd
      exact List.drop_eq_nil_of_le (by omega)
    rwa [nothing] at settled
  slowest_le := by
    intro slowest isSlowest
    obtain ⟨entry, present, rfl⟩ := exists_of_slowest?_eq_some isSlowest
    rw [← (balanced.settles entry present).position_add]
    exact Nat.le_add_right _ _
  window_lt := by
    intro slowest message _ within
    rw [positionAfter] at within
    omega
  tailIndex_lt := by
    have headers := balanced.headers_le
    have position_le := balanced.position_le
    rw [headerSize] at headers
    omega

/-- The accounts of every channel that calls can lead to are right: no position
and no difference of positions goes wrong, however the calls are interleaved. -/
theorem accounts_performAll
    {settings : Settings}
    (word : settings.maxPosition < UInt64.size)
    (calls : List Call) :
    Accounts settings ((initial settings).performAll calls) := by
  have settings_eq := settings_performAll settings calls
  have balanced := balanced_performAll settings calls
  have wellFormed := wellFormed_performAll settings calls
  rw [← settings_eq] at word
  have accounts := balanced.accounts wellFormed word
  rwa [settings_eq] at accounts

/-- Messages that end terms and are offered again, one that the capacity does not
allow, and two subscriptions that are behind by different amounts. -/
def crossing : List Call :=
  [.offer 1 [9], .subscribe, .offer 1 [1, 2, 3], .offer 1 [1, 2, 3], .poll 0 1, .subscribe,
    .offer 2 [4, 5, 6, 7, 8], .offer 2 [4, 5], .offer 2 [4, 5]]

theorem accounts_performAll_crossing :
    4096 < UInt64.size ∧
      ((initial ⟨32, 16, 2, 4096⟩).performAll crossing).cursors =
        [(0, ⟨1, 19⟩), (1, ⟨2, 28⟩)] ∧
      Accounts ⟨32, 16, 2, 4096⟩ ((initial ⟨32, 16, 2, 4096⟩).performAll crossing) := by
  refine ⟨by decide, by decide +kernel, ?_⟩
  exact accounts_performAll (by decide) crossing

end Channel
end EventRelay
