import EventRelay.Proofs.Channel.Refusal
import EventRelay.Proofs.Channel.Retention
import EventRelay.Proofs.Retry

/-!
# Offering on a channel that has been read

When every subscription has read everything, none is behind, and a message is refused
for its size only if it alone exceeds the capacity.  No event does in settings without
a violation.  All that can then delay an event on an open channel is that it announces
a term, whatever was offered and given up before.  It is accepted when it is offered
again, even if others subscribe, poll and leave in the meantime.
-/

namespace EventRelay
namespace Channel

open Fragment (totalSize)

/-- Every subscription has read everything. -/
def IsRead (channel : Channel) : Prop :=
  ∀ entry ∈ channel.cursors, channel.pendingOf entry.2 = []

instance (channel : Channel) : Decidable channel.IsRead :=
  inferInstanceAs (Decidable (∀ entry ∈ channel.cursors, channel.pendingOf entry.2 = []))

theorem IsRead.pendingFor_eq_nil
    {channel : Channel}
    (isRead : channel.IsRead)
    (subscription : Nat) :
    channel.pendingFor subscription = [] := by
  rw [pendingFor]
  cases found : channel.cursor? subscription with
  | none => rfl
  | some cursor => exact isRead _ (mem_of_cursor?_eq_some found)

theorem WellFormed.isRead
    {channel : Channel}
    (wellFormed : channel.WellFormed)
    (nothing : ∀ subscription, channel.pendingFor subscription = []) :
    channel.IsRead := by
  intro entry present
  obtain ⟨cursor, found⟩ := exists_cursor?_eq_some (List.mem_map.mpr ⟨entry, present, rfl⟩)
  have same : (entry.1, cursor) = entry :=
    List.inj_on_of_nodup_map wellFormed.numbers_nodup (mem_of_cursor?_eq_some found) present rfl
  have pending := nothing entry.1
  rw [pendingFor, found] at pending
  rw [← same]
  exact pending

/-- A subscription that has read everything is where the channel is. -/
theorem Balanced.position_eq_of_isRead
    {channel : Channel}
    (balanced : channel.Balanced)
    (isRead : channel.IsRead)
    {entry : Nat × Cursor}
    (present : entry ∈ channel.cursors) :
    entry.2.position = channel.position := by
  have settled := (balanced.settles entry present).position_add
  rwa [isRead entry present] at settled

/-- When nobody is behind, the capacity allows every message that it can hold. -/
theorem Balanced.exceedsCapacity_eq_false
    {channel : Channel}
    (balanced : channel.Balanced)
    (isRead : channel.IsRead)
    {size : Nat}
    (small : size ≤ channel.settings.capacity) :
    channel.exceedsCapacity size = false := by
  rw [exceedsCapacity]
  cases isSlowest : channel.slowest? with
  | none => rfl
  | some slowest =>
      obtain ⟨entry, present, rfl⟩ := exists_of_slowest?_eq_some isSlowest
      have level := balanced.position_eq_of_isRead isRead present
      refine decide_eq_false (Nat.not_lt.mpr ?_)
      omega

/-! ## What others do meanwhile -/

/-- A call neither offers a message nor closes the channel. -/
def Call.IsQuiet : Call → Prop
  | .offer _ _ => False
  | .close => False
  | _ => True

/-- A channel has not moved, and judges messages by the same term. -/
structure Rests (channel after : Channel) : Prop where
  settings_eq : after.settings = channel.settings
  position_eq : after.position = channel.position
  activeTerm_eq : after.activeTerm = channel.activeTerm
  isClosed_eq : after.isClosed = channel.isClosed

theorem Rests.refl (channel : Channel) : Rests channel channel :=
  ⟨rfl, rfl, rfl, rfl⟩

theorem Rests.trans
    {channel between after : Channel}
    (lower : Rests channel between)
    (upper : Rests between after) :
    Rests channel after where
  settings_eq := upper.settings_eq.trans lower.settings_eq
  position_eq := upper.position_eq.trans lower.position_eq
  activeTerm_eq := upper.activeTerm_eq.trans lower.activeTerm_eq
  isClosed_eq := upper.isClosed_eq.trans lower.isClosed_eq

theorem rests_perform (channel : Channel) {call : Call} (isQuiet : call.IsQuiet) :
    Rests channel (channel.perform call) := by
  cases call with
  | publication | subscribe | unsubscribe => exact ⟨rfl, rfl, rfl, rfl⟩
  | poll subscription limit =>
      rw [perform, poll]
      split <;> exact ⟨rfl, rfl, rfl, rfl⟩
  | offer | close => exact isQuiet.elim

theorem rests_performAll
    (channel : Channel)
    {calls : List Call}
    (areQuiet : ∀ call ∈ calls, call.IsQuiet) :
    Rests channel (channel.performAll calls) := by
  induction calls generalizing channel with
  | nil => exact .refl channel
  | cons call calls inductionHypothesis =>
      obtain ⟨first, others⟩ := List.forall_mem_cons.mp areQuiet
      exact (rests_perform channel first).trans (inductionHypothesis _ others)

/-- Who has read everything has still read everything when nothing was offered. -/
theorem Exchange.Invariant.isRead_step
    {settings : Settings}
    {exchange : Exchange}
    (invariant : Exchange.Invariant settings exchange)
    (isRead : exchange.channel.IsRead)
    {call : Call}
    (isQuiet : call.IsQuiet) :
    (exchange.step call).channel.IsRead := by
  refine (invariant.step call).wellFormed.isRead fun subscription => ?_
  rw [Exchange.channel_step]
  by_cases ends : call = .unsubscribe subscription
  · subst ends
    have absent : subscription ∉ (exchange.step (.unsubscribe subscription)).attached :=
      fun member => by simp [Exchange.step] at member
    have nobody := (invariant.step (.unsubscribe subscription)).cursor?_eq_none absent
    rw [Exchange.channel_step] at nobody
    rw [pendingFor, nobody]
  · have nothingSent : exchange.channel.sentTo subscription call = [] := by
      cases call with
      | publication | subscribe | poll | unsubscribe | close => rfl
      | offer => exact isQuiet.elim
    have kept := invariant.pendingFor_step ends
    rw [isRead.pendingFor_eq_nil, nothingSent] at kept
    exact (List.append_eq_nil_iff.mp kept).2

theorem Exchange.Invariant.isRead_run
    {settings : Settings}
    {exchange : Exchange}
    (invariant : Exchange.Invariant settings exchange)
    (isRead : exchange.channel.IsRead)
    {calls : List Call}
    (areQuiet : ∀ call ∈ calls, call.IsQuiet) :
    (exchange.channel.performAll calls).IsRead := by
  induction calls generalizing exchange with
  | nil => exact isRead
  | cons call calls inductionHypothesis =>
      obtain ⟨first, others⟩ := List.forall_mem_cons.mp areQuiet
      rw [performAll, List.foldl_cons, ← Exchange.channel_step]
      exact inductionHypothesis (invariant.step call) (invariant.isRead_step isRead first) others

/-! ## Offering with retries -/

/-- An open channel that has been read accepts a message that it can hold, or announces
a term for it. -/
theorem Balanced.offer_of_isRead
    {channel : Channel}
    (balanced : channel.Balanced)
    (isOpen : channel.isClosed = false)
    (isRead : channel.IsRead)
    {message : Bytes}
    (small : channel.sizeOf message ≤ channel.settings.capacity)
    (room : channel.positionAfter message ≤ channel.settings.maxPosition)
    (session : UInt32) :
    channel.offer session message = (.accepted (channel.positionAfter message),
        channel.accept session message (channel.positionAfter message)) ∨
      channel.offer session message = (.adminAction, Channel.compact
        { channel with activeTerm := channel.termOf (channel.positionAfter message) }) := by
  have inTime := balanced.exceedsCapacity_eq_false isRead small
  have cases_of := offered_offer channel session message
  generalize channel.offer session message = answered at cases_of ⊢
  cases cases_of with
  | closed closed =>
      rw [isOpen] at closed
      cases closed
  | maxPositionExceeded _ tooFar => exact absurd room (Nat.not_le.mpr tooFar)
  | backPressured _ _ slow =>
      rw [inTime] at slow
      cases slow
  | adminAction => exact Or.inr rfl
  | accepted => exact Or.inl rfl

/-- What has announced a term is accepted when it is offered again and the capacity
allows it, if the channel has not moved since. -/
theorem Rests.offer_eq_accepted
    {channel announced after : Channel}
    {session : UInt32}
    {message : Bytes}
    (rests : Rests announced after)
    (offered : channel.offer session message = (.adminAction, announced))
    (inTime : after.exceedsCapacity (after.sizeOf message) = false) :
    (after.offer session message).1 = .accepted (channel.positionAfter message) := by
  have cases_of := offered_offer channel session message
  rw [offered] at cases_of
  cases cases_of with
  | adminAction isOpen within =>
      have position_eq : after.positionAfter message = channel.positionAfter message := by
        rw [positionAfter, positionAfter, sizeOf, sizeOf, rests.settings_eq, rests.position_eq]
        rfl
      have stillOpen : after.isClosed = false := rests.isClosed_eq.trans isOpen
      have stillWithin : after.positionAfter message ≤ after.settings.maxPosition := by
        rw [position_eq, rests.settings_eq]
        exact within
      have sameTerm : after.termOf (after.positionAfter message) ≤ after.activeTerm := by
        rw [position_eq, termOf, rests.settings_eq, rests.activeTerm_eq]
        exact Nat.le_refl _
      rw [Channel.offer_eq_accepted stillOpen stillWithin inTime sameTerm, position_eq]

section Reached

variable {settings : Settings} {calls : List Call} {message : Bytes}

theorem isRead_performAll_append
    (isRead : ((initial settings).performAll calls).IsRead)
    {later : List Call}
    (areQuiet : ∀ call ∈ later, call.IsQuiet) :
    ((initial settings).performAll (calls ++ later)).IsRead := by
  have invariant := (Exchange.invariant_start settings).run calls
  have reached : ((Exchange.start settings).run calls).channel =
      (initial settings).performAll calls :=
    Exchange.channel_run _ _
  rw [← reached] at isRead
  rw [performAll_append, ← reached]
  exact invariant.isRead_run isRead areQuiet

/-- When a message has announced a term, it is accepted when it is offered again, even if
others have subscribed, polled or left meanwhile. -/
theorem offer_after_adminAction
    (isRead : ((initial settings).performAll calls).IsRead)
    (small : EventRelay.framedSize message.length settings.mtu ≤ settings.capacity)
    {session : UInt32}
    {announced : Channel}
    (offered : ((initial settings).performAll calls).offer session message =
      (.adminAction, announced))
    {meanwhile : List Call}
    (areQuiet : ∀ call ∈ meanwhile, call.IsQuiet) :
    ((announced.performAll meanwhile).offer session message).1 =
      .accepted (((initial settings).performAll calls).positionAfter message) := by
  have reached : (initial settings).performAll (calls ++ [.offer session message]) =
      announced := by
    rw [performAll_append]
    exact congrArg Prod.snd offered
  have sameView := (wellFormed_performAll settings calls).sameView_offer offered
    fun _ => Offer.noConfusion
  have stillRead : ((initial settings).performAll (calls ++ [.offer session message])).IsRead := by
    refine (wellFormed_performAll settings _).isRead fun subscription => ?_
    rw [reached, sameView.pendingFor_eq, isRead.pendingFor_eq_nil]
  have readLater := isRead_performAll_append stillRead areQuiet
  have balanced := balanced_performAll settings (calls ++ [.offer session message] ++ meanwhile)
  have settings_eq := settings_performAll settings
    (calls ++ [.offer session message] ++ meanwhile)
  rw [performAll_append, reached] at readLater balanced settings_eq
  refine (rests_performAll announced areQuiet).offer_eq_accepted offered ?_
  apply balanced.exceedsCapacity_eq_false readLater
  rw [sizeOf, settings_eq]
  exact small

/-- On an open channel that has been read, a message that it can hold is accepted after
one retry at most. -/
theorem offerWithRetries_of_isRead
    (isOpen : ((initial settings).performAll calls).isClosed = false)
    (isRead : ((initial settings).performAll calls).IsRead)
    (small : EventRelay.framedSize message.length settings.mtu ≤ settings.capacity)
    (room : ((initial settings).performAll calls).positionAfter message ≤ settings.maxPosition)
    {policy : Retry.Policy}
    (retries : 1 ≤ policy.maxRetries)
    {meanwhile : Nat → List Call}
    (areQuiet : ∀ retry, ∀ call ∈ meanwhile retry, call.IsQuiet)
    (session : UInt32) :
    ∃ retry ≤ 1, (((initial settings).performAll calls).offerWithRetries policy session message
      meanwhile).1 = .ok ⟨((initial settings).performAll calls).positionAfter message, retry⟩ := by
  have settings_eq := settings_performAll settings calls
  have first := (balanced_performAll settings calls).offer_of_isRead isOpen isRead
    (by rw [sizeOf, settings_eq]; exact small) (by rw [settings_eq]; exact room) session
  rw [offerWithRetries, Retry.Policy.offer]
  rcases first with accepted | announced
  · have settled : (((initial settings).performAll calls).offer session message).1.isTransient =
        false := by
      rw [accepted]
      rfl
    refine ⟨0, Nat.zero_le 1, ?_⟩
    rw [Retry.offerFrom_of_last (Or.inl settled), accepted]
    rfl
  · have refused : (((initial settings).performAll calls).offer session message).1.isTransient =
        true := by
      rw [announced]
      rfl
    have second := offer_after_adminAction isRead small announced (areQuiet 0)
    obtain ⟨remaining, parts⟩ := Nat.exists_eq_add_of_le' retries
    refine ⟨1, Nat.le_refl 1, ?_⟩
    rw [parts, Retry.offerFrom_of_isTransient refused, announced]
    have settled : ((Channel.performAll _ (meanwhile 0)).offer session message).1.isTransient =
        false :=
      congrArg Offer.isTransient second
    rw [Retry.offerFrom_of_last (Or.inl settled), second]
    rfl

end Reached

/-! ## Events -/

/-- The first delay of settings is never too long. -/
theorem backoff_zero (settings : EventRelay.Settings) :
    settings.retryPolicy.backoff 0 = .ok settings.retryPolicy.initialBackoff := by
  have bound := settings.retry.initialBackoff.toNat_lt
  rw [Retry.Policy.backoff, Nat.zero_min, Nat.shiftLeft_zero]
  refine if_pos ?_
  change settings.retry.initialBackoff.toNat * 1000 / 1000000000 < 0x10000000000000000
  omega

/-- In settings without a violation that allow a retry, every event that the greatest
position allows is accepted by an open channel that has been read, after one retry at
most.  It does not matter what was offered and given up before, nor what others do
during the retry, as long as they neither offer nor close; and the delay before the retry
is never too long. -/
theorem publishes_when_read
    {settings : EventRelay.Settings}
    (valid : settings.violation? = none)
    (retries : 1 ≤ settings.retry.maxRetries)
    {calls : List Call}
    (isOpen : ((initial settings.channelSettings).performAll calls).isClosed = false)
    (isRead : ((initial settings.channelSettings).performAll calls).IsRead)
    {event : Event}
    (room : ((initial settings.channelSettings).performAll calls).positionAfter event.encode ≤
      settings.channelSettings.maxPosition)
    {meanwhile : Nat → List Call}
    (areQuiet : ∀ retry, ∀ call ∈ meanwhile retry, call.IsQuiet)
    (session : UInt32) :
    let channel := (initial settings.channelSettings).performAll calls
    ∃ retry ≤ 1, (channel.offerWithRetries settings.retryPolicy session event.encode
        meanwhile).1 = .ok ⟨channel.positionAfter event.encode, retry⟩ ∧
      ∀ earlier < retry, settings.retryPolicy.backoff earlier =
        .ok settings.retryPolicy.initialBackoff := by
  have allowed : 1 ≤ settings.retryPolicy.maxRetries := UInt32.le_iff_toNat_le.mp retries
  obtain ⟨retry, atMostOne, accepted⟩ := offerWithRetries_of_isRead isOpen isRead
    (admits_encode valid session event) room allowed areQuiet session
  refine ⟨retry, atMostOne, accepted, fun earlier less => ?_⟩
  have isFirst : earlier = 0 := by omega
  rw [isFirst]
  exact backoff_zero settings

/-- Settings with the least capacity and short terms. -/
def tight : EventRelay.Settings :=
  { EventRelay.Settings.standard with
    transport := { TransportSection.standard with capacity := 80, termLength := 16 } }

/-- A message announces a term and is given up; a smaller one is accepted and read. -/
def emptied : List Call :=
  [.subscribe, .offer 1 (List.replicate 10 0), .offer 1 [1], .poll 0 1]

/-- An event announces a term, and is accepted while a subscription joins and another one
leaves. -/
theorem publishes_when_read_tight :
    tight.violation? = none ∧
      1 ≤ tight.retry.maxRetries ∧
      ((initial tight.channelSettings).performAll emptied).isClosed = false ∧
      ((initial tight.channelSettings).performAll emptied).IsRead ∧
      (((initial tight.channelSettings).performAll emptied).offer 1 Event.sample.encode).1 =
        .adminAction ∧
      ∃ retry ≤ 1, (((initial tight.channelSettings).performAll emptied).offerWithRetries
        tight.retryPolicy 1 Event.sample.encode
          fun _ => [.subscribe, .poll 0 5, .unsubscribe 0]).1 =
            .ok ⟨((initial tight.channelSettings).performAll emptied).positionAfter
              Event.sample.encode, retry⟩ := by
  have valid : tight.violation? = none := by decide +kernel
  have retries : 1 ≤ tight.retry.maxRetries := by decide
  have isOpen : ((initial tight.channelSettings).performAll emptied).isClosed = false := by
    decide +kernel
  have isRead : ((initial tight.channelSettings).performAll emptied).IsRead := by
    decide +kernel
  have room : ((initial tight.channelSettings).performAll emptied).positionAfter
      Event.sample.encode ≤ tight.channelSettings.maxPosition := by
    decide +kernel
  have areQuiet : ∀ retry : Nat, ∀ call ∈ [Call.subscribe, .poll 0 5, .unsubscribe 0],
      call.IsQuiet := by
    simp [Call.IsQuiet]
  obtain ⟨retry, atMostOne, accepted, _⟩ :=
    publishes_when_read valid retries isOpen isRead room areQuiet 1
  exact ⟨valid, retries, isOpen, isRead, by decide +kernel, retry, atMostOne, accepted⟩

end Channel
end EventRelay
