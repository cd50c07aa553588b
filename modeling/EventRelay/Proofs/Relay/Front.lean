import EventRelay.Proofs.Relay.Books

/-!
# The front of a relay

Publishers and subscribers meet a relay at its front: its settings, channel, publisher and
subscribers, and the counters of offered and received events.  Store and broker with the ways
to them are behind it.

What a relay does for publishers and subscribers follows from its front alone, so that two
relays with the same front give the same answers and keep the same front.  A call that
publishes an event does so with each of its offers.
-/

namespace EventRelay

/-! ## Counters of publishers and subscribers -/

/-- The counters of offered events and of subscribers agree. -/
structure Metrics.SameCounts (left right : Metrics) : Prop where
  accepted_eq : left.accepted = right.accepted
  delivered_eq : left.delivered = right.delivered
  publishFailures_eq : left.publishFailures = right.publishFailures
  offerRetries_eq : left.offerRetries = right.offerRetries
  received_eq : left.received = right.received
  handlerErrors_eq : left.handlerErrors = right.handlerErrors
  decodeErrors_eq : left.decodeErrors = right.decodeErrors

namespace Metrics
namespace SameCounts

variable {left between right : Metrics}

theorem refl (metrics : Metrics) : SameCounts metrics metrics :=
  ⟨rfl, rfl, rfl, rfl, rfl, rfl, rfl⟩

theorem symm (same : SameCounts left right) : SameCounts right left :=
  ⟨same.accepted_eq.symm, same.delivered_eq.symm, same.publishFailures_eq.symm,
    same.offerRetries_eq.symm, same.received_eq.symm, same.handlerErrors_eq.symm,
    same.decodeErrors_eq.symm⟩

theorem trans
    (lower : SameCounts left between)
    (upper : SameCounts between right) :
    SameCounts left right :=
  ⟨lower.accepted_eq.trans upper.accepted_eq, lower.delivered_eq.trans upper.delivered_eq,
    lower.publishFailures_eq.trans upper.publishFailures_eq,
    lower.offerRetries_eq.trans upper.offerRetries_eq,
    lower.received_eq.trans upper.received_eq,
    lower.handlerErrors_eq.trans upper.handlerErrors_eq,
    lower.decodeErrors_eq.trans upper.decodeErrors_eq⟩

/-- What recorder and forwarder count is left out. -/
theorem of_work
    (metrics : Metrics)
    (logAppends logFailures logDropped forwarded forwardFailures forwardDropped : UInt64) :
    SameCounts metrics { metrics with
      logAppends := logAppends
      logFailures := logFailures
      logDropped := logDropped
      forwarded := forwarded
      forwardFailures := forwardFailures
      forwardDropped := forwardDropped } :=
  ⟨rfl, rfl, rfl, rfl, rfl, rfl, rfl⟩

theorem recordAccepted (same : SameCounts left right) :
    SameCounts left.recordAccepted right.recordAccepted :=
  { same with accepted_eq := congrArg (· + 1) same.accepted_eq }

/-- The latencies need not agree. -/
theorem recordDelivered (same : SameCounts left right) (latency other : UInt64) :
    SameCounts (left.recordDelivered latency) (right.recordDelivered other) :=
  { same with delivered_eq := congrArg (· + 1) same.delivered_eq }

theorem recordPublishFailure (same : SameCounts left right) :
    SameCounts left.recordPublishFailure right.recordPublishFailure :=
  { same with publishFailures_eq := congrArg (· + 1) same.publishFailures_eq }

theorem recordOfferRetry (same : SameCounts left right) :
    SameCounts left.recordOfferRetry right.recordOfferRetry :=
  { same with offerRetries_eq := congrArg (· + 1) same.offerRetries_eq }

theorem recordReceived (same : SameCounts left right) :
    SameCounts left.recordReceived right.recordReceived :=
  { same with received_eq := congrArg (· + 1) same.received_eq }

theorem recordHandlerError (same : SameCounts left right) :
    SameCounts left.recordHandlerError right.recordHandlerError :=
  { same with handlerErrors_eq := congrArg (· + 1) same.handlerErrors_eq }

theorem recordDecodeError (same : SameCounts left right) :
    SameCounts left.recordDecodeError right.recordDecodeError :=
  { same with decodeErrors_eq := congrArg (· + 1) same.decodeErrors_eq }

end SameCounts
end Metrics

open Metrics (SameCounts)

/-! ## Recorder and forwarder -/

namespace Recorder

theorem sameCounts_record (recorder : Recorder) (metrics : Metrics) (entry : Entry) :
    SameCounts metrics (recorder.record metrics entry).2 := by
  obtain ⟨logDropped, record_eq⟩ := recorder.exists_record_eq metrics entry
  rw [record_eq]
  exact .of_work metrics _ _ _ _ _ _

theorem sameCounts_finish
    (recorder : Recorder)
    (result : Except LogError Unit)
    (metrics : Metrics) :
    SameCounts metrics (recorder.finish result metrics).2 := by
  cases result <;> exact .of_work metrics _ _ _ _ _ _

theorem sameCounts_step?
    {recorder after : Recorder}
    {store answered : Store}
    {disk grown : Disk}
    {metrics counted : Metrics}
    (stepped : recorder.step? store disk metrics = some (after, answered, grown, counted)) :
    SameCounts metrics counted := by
  rw [step?_eq, Option.map_eq_some_iff] at stepped
  obtain ⟨batched, _, stored⟩ := stepped
  unfold storeBatch at stored
  cases stored
  exact sameCounts_finish _ _ _

theorem sameCounts_steps
    (limit : Nat)
    (recorder : Recorder)
    (store : Store)
    (disk : Disk)
    (metrics : Metrics) :
    SameCounts metrics (recorder.steps limit store disk metrics).2.2.2 := by
  induction limit generalizing recorder store disk metrics with
  | zero => exact .refl metrics
  | succ limit inductionHypothesis =>
      unfold steps
      cases stepped : recorder.step? store disk metrics with
      | none => exact .refl metrics
      | some result => exact (sameCounts_step? stepped).trans (inductionHypothesis _ _ _ _)

end Recorder

namespace Forwarder

theorem sameCounts_forward (forwarder : Forwarder) (metrics : Metrics) (entry : Entry) :
    SameCounts metrics (forwarder.forward metrics entry).2.2 := by
  obtain ⟨forwardDropped, forward_eq⟩ := forwarder.exists_forward_eq metrics entry
  rw [forward_eq]
  exact .of_work metrics _ _ _ _ _ _

theorem sameCounts_count (result : Except BrokerError Unit) (metrics : Metrics) :
    SameCounts metrics (count result metrics) := by
  cases result <;> exact .of_work metrics _ _ _ _ _ _

theorem sameCounts_step?
    {forwarder after : Forwarder}
    {broker grown : Broker}
    {metrics counted : Metrics}
    (stepped : forwarder.step? broker metrics = some (after, grown, counted)) :
    SameCounts metrics counted := by
  rcases step?_cases stepped with ⟨_, _, rfl⟩ | ⟨_, _, rfl⟩ | ⟨_, result, _, rfl⟩
  · exact .refl _
  · exact .refl _
  · exact sameCounts_count result metrics

theorem sameCounts_steps
    (limit : Nat)
    (forwarder : Forwarder)
    (broker : Broker)
    (metrics : Metrics) :
    SameCounts metrics (forwarder.steps limit broker metrics).2.2 := by
  induction limit generalizing forwarder broker metrics with
  | zero => exact .refl metrics
  | succ limit inductionHypothesis =>
      unfold steps
      cases stepped : forwarder.step? broker metrics with
      | none => exact .refl metrics
      | some result => exact (sameCounts_step? stepped).trans (inductionHypothesis _ _ _)

end Forwarder

/-! ## Subscribers -/

namespace Subscriber

variable {left right : Metrics}

/-- What a subscriber takes does not depend on the counters. -/
theorem takeFragment_agrees
    (same : SameCounts left right)
    (handler : Handler)
    (subscriber : Subscriber)
    (fragment : Fragment) :
    (takeFragment handler subscriber left fragment).1 =
        (takeFragment handler subscriber right fragment).1 ∧
      SameCounts (takeFragment handler subscriber left fragment).2
        (takeFragment handler subscriber right fragment).2 := by
  unfold takeFragment takeMessage
  rcases subscriber.assembler.feed fragment with ⟨_ | message, assembler⟩
  · exact ⟨rfl, same⟩
  · dsimp only
    cases Event.decode message with
    | error error => exact ⟨rfl, same.recordDecodeError⟩
    | ok event =>
        dsimp only [handle]
        cases handler event with
        | done => exact ⟨rfl, same.recordReceived⟩
        | failed => exact ⟨rfl, same.recordReceived.recordHandlerError⟩
        | brokeDown => exact ⟨rfl, same.recordReceived⟩

theorem takeFragments_agrees
    (same : SameCounts left right)
    (handler : Handler)
    (fragments : List Fragment)
    (subscriber : Subscriber) :
    (takeFragments handler fragments subscriber left).1 =
        (takeFragments handler fragments subscriber right).1 ∧
      SameCounts (takeFragments handler fragments subscriber left).2
        (takeFragments handler fragments subscriber right).2 := by
  induction fragments generalizing subscriber left right with
  | nil => exact ⟨rfl, same⟩
  | cons fragment rest inductionHypothesis =>
      obtain ⟨taken_eq, counts⟩ := takeFragment_agrees same handler subscriber fragment
      rw [takeFragments, takeFragments]
      dsimp only
      rw [taken_eq]
      split
      · exact ⟨rfl, counts⟩
      · exact inductionHypothesis counts _

end Subscriber

/-! ## The front of a relay -/

/-- Two relays differ at most in what recorder, forwarder, store and broker do, and in
latencies. -/
structure Relay.SameFront (left right : Relay) : Prop where
  settings_eq : left.settings = right.settings
  channel_eq : left.channel = right.channel
  publisher_eq : left.publisher = right.publisher
  listeners_eq : left.listeners = right.listeners
  isStopping_eq : left.isStopping = right.isStopping
  counts : SameCounts left.metrics right.metrics

/-- Two relays give the same answer and still differ at most behind their fronts. -/
def Relay.Alike {α : Type} (left right : α × Relay) : Prop :=
  left.1 = right.1 ∧ left.2.SameFront right.2

namespace Relay

theorem Alike.exists_eq
    {α : Type}
    {left right : α × Relay}
    (alike : Alike left right) :
    ∃ answer leftAfter rightAfter,
      left = (answer, leftAfter) ∧ right = (answer, rightAfter) ∧
        SameFront leftAfter rightAfter :=
  ⟨left.1, left.2, right.2, rfl, Prod.ext alike.1.symm rfl, alike.2⟩

namespace SameFront

variable {left between right : Relay}

theorem refl (relay : Relay) : SameFront relay relay :=
  ⟨rfl, rfl, rfl, rfl, rfl, .refl _⟩

theorem symm (same : SameFront left right) : SameFront right left :=
  ⟨same.settings_eq.symm, same.channel_eq.symm, same.publisher_eq.symm,
    same.listeners_eq.symm, same.isStopping_eq.symm, same.counts.symm⟩

theorem trans
    (lower : SameFront left between)
    (upper : SameFront between right) :
    SameFront left right :=
  ⟨lower.settings_eq.trans upper.settings_eq, lower.channel_eq.trans upper.channel_eq,
    lower.publisher_eq.trans upper.publisher_eq, lower.listeners_eq.trans upper.listeners_eq,
    lower.isStopping_eq.trans upper.isStopping_eq, lower.counts.trans upper.counts⟩

/-- The counters are all that the front of a relay shares with what is behind it. -/
theorem of_counts
    (relay : Relay)
    (store : Store)
    (recorder : Recorder)
    (forwarder : Forwarder)
    (broker : Broker)
    {metrics : Metrics}
    (counts : SameCounts relay.metrics metrics) :
    SameFront relay { relay with
      store := store
      recorder := recorder
      forwarder := forwarder
      broker := broker
      metrics := metrics } :=
  ⟨rfl, rfl, rfl, rfl, rfl, counts⟩

theorem exists_eq (same : SameFront left right) :
    ∃ store recorder forwarder broker metrics,
      SameCounts left.metrics metrics ∧
      right = { left with
        store := store
        recorder := recorder
        forwarder := forwarder
        broker := broker
        metrics := metrics } := by
  obtain ⟨settings_eq, channel_eq, publisher_eq, listeners_eq, isStopping_eq, counts⟩ := same
  refine ⟨right.store, right.recorder, right.forwarder, right.broker, right.metrics, counts, ?_⟩
  rw [settings_eq, channel_eq, publisher_eq, listeners_eq, isStopping_eq]

end SameFront

theorem exists_onStore_of_start
    {settings : Settings}
    {parts : Parts}
    {disk opened : Disk}
    {relay : Relay}
    (started : start settings parts disk = .ok (relay, opened)) :
    ∃ store, relay = onStore settings parts store := by
  unfold start at started
  split at started
  · cases started
  · split at started
    · cases started
    · cases started
      exact ⟨_, rfl⟩

theorem sameFront_record (relay : Relay) (entry : Entry) :
    SameFront relay (relay.record entry) :=
  .of_counts relay _ _ _ _ (relay.recorder.sameCounts_record relay.metrics entry)

theorem sameFront_forward (relay : Relay) (entry : Entry) :
    SameFront relay (relay.forward entry) :=
  .of_counts relay _ _ _ _ (relay.forwarder.sameCounts_forward relay.metrics entry)

/-- Handing an event on shows only as its delivery. -/
theorem sameFront_handOn (relay : Relay) (latency : UInt64) (event : Event) :
    SameFront { relay with metrics := relay.metrics.recordDelivered latency }
      (relay.handOn latency true event) :=
  (sameFront_record _ _).trans (sameFront_forward _ _)

theorem sameFront_settle (relay : Relay) (disk : Disk) :
    SameFront relay (relay.settle disk).1 := by
  have recorded : SameFront relay (relay.runRecorder disk).1 :=
    .of_counts relay _ _ _ _ (Recorder.sameCounts_steps _ _ _ _ _)
  exact recorded.trans (.of_counts _ _ _ _ _ (Forwarder.sameCounts_steps _ _ _ _))

/-! ## Publishing offer by offer -/

/-- A call that publishes an event. -/
structure Call where
  /-- The event. -/
  event : Event
  /-- The number of retries so far. -/
  retries : Nat
  /-- The number of retries that are left. -/
  remaining : Nat

/-- What an offer makes of a call. -/
inductive Progress where
  /-- The call is over. -/
  | ended (result : Except PublishError Unit)
  /-- The call goes on with another offer. -/
  | ongoing (call : Call)

/-- Count an event that is not published. -/
def refuse (relay : Relay) (error : PublishError) : Progress × Relay :=
  (.ended (.error error), { relay with metrics := relay.metrics.recordPublishFailure })

/-- Make one offer of a call. -/
def offerOnce (relay : Relay) (latency : UInt64) (call : Call) : Progress × Relay :=
  let (offer, offering) :=
    Offering.offer call.event.encode ⟨relay.publisher, relay.channel, relay.metrics⟩
  let relay := { relay with publisher := offering.publisher, channel := offering.channel }
  match offer with
  | .accepted _ => (.ended (.ok ()), relay.handOn latency true call.event)
  | .closed => relay.refuse .closed
  | .maxPositionExceeded => relay.refuse .maxPositionExceeded
  | .backPressured | .adminAction =>
      match call.remaining with
      | 0 => relay.refuse (.exhausted call.retries)
      | remaining + 1 =>
          (.ongoing ⟨call.event, call.retries + 1, remaining⟩,
            { relay with metrics := relay.metrics.recordOfferRetry })

/-- Make all offers of a call. -/
def offerAll (relay : Relay) (latency : UInt64) (call : Call) :
    Except PublishError Unit × Relay :=
  let (result, offering) :=
    Retry.offerFrom relay.settings.retryPolicy (Offering.offer call.event.encode)
      (fun _ _ offering => offering.countRetry) call.remaining call.retries
      ⟨relay.publisher, relay.channel, relay.metrics⟩
  let relay := { relay with
    publisher := offering.publisher
    channel := offering.channel
    metrics := offering.metrics }
  match result with
  | .error error =>
      (.error error, { relay with metrics := relay.metrics.recordPublishFailure })
  | .ok _ => (.ok (), relay.handOn latency true call.event)

/-- Begin a call, unless the relay is stopping. -/
def beginCall (relay : Relay) (event : Event) : Progress × Relay :=
  if relay.isStopping then (.ended (.error .closed), relay)
  else
    (.ongoing ⟨event, 0, relay.settings.retryPolicy.maxRetries⟩,
      { relay with metrics := relay.metrics.recordAccepted })

/-- A call is made offer by offer. -/
theorem offerAll_eq (relay : Relay) (latency : UInt64) (call : Call) :
    relay.offerAll latency call =
      match relay.offerOnce latency call with
      | (.ended result, after) => (result, after)
      | (.ongoing next, after) => after.offerAll latency next := by
  obtain ⟨event, retries, remaining⟩ := call
  rw [offerAll, offerOnce, Retry.offerFrom.eq_def]
  dsimp only [Offering.offer]
  generalize relay.publisher.offer relay.channel event.encode = offered
  obtain ⟨offer, publisher, channel⟩ := offered
  cases offer with
  | accepted | closed | maxPositionExceeded => rfl
  | backPressured | adminAction => cases remaining <;> rfl

theorem remaining_lt_of_ongoing
    {relay after : Relay}
    {latency : UInt64}
    {call next : Call}
    (offered : relay.offerOnce latency call = (.ongoing next, after)) :
    next.remaining < call.remaining := by
  obtain ⟨event, retries, remaining⟩ := call
  rw [offerOnce] at offered
  dsimp only [Offering.offer] at offered
  generalize relay.publisher.offer relay.channel event.encode = answered at offered
  obtain ⟨offer, publisher, channel⟩ := answered
  cases offer with
  | accepted | closed | maxPositionExceeded => cases offered
  | backPressured | adminAction =>
      cases remaining with
      | zero => cases offered
      | succ remaining =>
          cases offered
          exact Nat.lt_succ_self remaining

/-- To publish an event is to begin a call and to make all its offers. -/
theorem publish_eq (relay : Relay) (latency : UInt64) (event : Event) :
    relay.publish latency event =
      match relay.beginCall event with
      | (.ended result, after) => (result, after)
      | (.ongoing call, after) => after.offerAll latency call := by
  unfold publish publishEvent beginCall
  split
  · rfl
  · dsimp only
    unfold offerMessage Retry.Policy.offer offerAll
    dsimp only
    generalize Retry.offerFrom _ _ _ _ _ _ = answered
    obtain ⟨_ | _, offering⟩ := answered <;> rfl

/-! ## Subscribers of a relay -/

/-- Let a new subscriber join, if it is not too late for that. -/
def join (relay : Relay) (handler : Handler) : Except RelayError Listener × Relay :=
  match relay.subscribe handler with
  | .error error => (.error error, relay)
  | .ok (listener, relay) => (.ok listener, relay)

/-- Let a subscriber poll once, unless it has left.  One that breaks down leaves.  The result
holds the fragments that it reads. -/
def pollOnce (relay : Relay) (index : Nat) : List Fragment × Relay :=
  match relay.listeners[index]? with
  | none => ([], relay)
  | some listener =>
      if listener.hasLeft then ([], relay)
      else
        let limit := relay.settings.transport.fragmentLimit.toNat
        let (_, subscriber, metrics, channel) :=
          listener.subscriber.poll listener.handler limit relay.metrics relay.channel
        ((relay.channel.poll listener.subscriber.subscription limit).1, { relay with
          listeners := relay.listeners.set index { listener with subscriber := subscriber }
          metrics := metrics
          channel :=
            if subscriber.isBroken then channel.unsubscribe subscriber.subscription
            else channel })

/-! ## The same on both relays -/

namespace SameFront

variable {left right : Relay}

theorem handOn
    (same : SameFront left right)
    (latency other : UInt64)
    (event : Event) :
    SameFront (left.handOn latency true event) (right.handOn other true event) := by
  have delivered : SameFront
      { left with metrics := left.metrics.recordDelivered latency }
      { right with metrics := right.metrics.recordDelivered other } :=
    { same with counts := same.counts.recordDelivered latency other }
  exact ((left.sameFront_handOn latency event).symm.trans delivered).trans
    (right.sameFront_handOn other event)

theorem refuse
    (same : SameFront left right)
    (error : PublishError) :
    Alike (left.refuse error) (right.refuse error) :=
  ⟨rfl, { same with counts := same.counts.recordPublishFailure }⟩

theorem beginCall
    (same : SameFront left right)
    (event : Event) :
    Alike (left.beginCall event) (right.beginCall event) := by
  obtain ⟨_, _, _, _, _, counts, rfl⟩ := same.exists_eq
  unfold Relay.beginCall
  dsimp only
  split
  · exact ⟨rfl, same⟩
  · exact ⟨rfl, .of_counts _ _ _ _ _ counts.recordAccepted⟩

theorem offerOnce
    (same : SameFront left right)
    (latency other : UInt64)
    (call : Call) :
    Alike (left.offerOnce latency call) (right.offerOnce other call) := by
  obtain ⟨event, retries, remaining⟩ := call
  unfold Relay.offerOnce
  dsimp only [Offering.offer]
  rw [← same.publisher_eq, ← same.channel_eq]
  generalize left.publisher.offer left.channel event.encode = offered
  obtain ⟨offer, publisher, channel⟩ := offered
  have moved : SameFront
      { left with publisher := publisher, channel := channel }
      { right with publisher := publisher, channel := channel } :=
    { same with publisher_eq := rfl, channel_eq := rfl }
  cases offer with
  | accepted => exact ⟨rfl, moved.handOn latency other event⟩
  | closed | maxPositionExceeded => exact moved.refuse _
  | backPressured | adminAction =>
      cases remaining with
      | zero => exact moved.refuse _
      | succ => exact ⟨rfl, { moved with counts := moved.counts.recordOfferRetry }⟩

/-- Both relays make the same offers of a call, one after the other. -/
theorem offerAll
    {left right : Relay}
    (same : SameFront left right)
    (latency other : UInt64)
    (call : Call) :
    Alike (left.offerAll latency call) (right.offerAll other call) := by
  obtain ⟨progress, leftAfter, rightAfter, left_eq, right_eq, after⟩ :=
    (same.offerOnce latency other call).exists_eq
  rw [offerAll_eq, left_eq, offerAll_eq, right_eq]
  -- Both calls are over after this offer, or both have one retry less.
  cases progress with
  | ended result => exact ⟨rfl, after⟩
  | ongoing next => exact after.offerAll latency other next
termination_by call.remaining
decreasing_by exact remaining_lt_of_ongoing left_eq

theorem publish
    (same : SameFront left right)
    (latency other : UInt64)
    (event : Event) :
    Alike (left.publish latency event) (right.publish other event) := by
  obtain ⟨progress, leftBegun, rightBegun, left_eq, right_eq, begun⟩ :=
    (same.beginCall event).exists_eq
  rw [publish_eq, left_eq, publish_eq, right_eq]
  cases progress with
  | ended result => exact ⟨rfl, begun⟩
  | ongoing call => exact begun.offerAll latency other call

theorem join
    (same : SameFront left right)
    (handler : Handler) :
    Alike (left.join handler) (right.join handler) := by
  obtain ⟨_, _, _, _, _, counts, rfl⟩ := same.exists_eq
  unfold Relay.join subscribe
  dsimp only
  by_cases stopping : left.isStopping = true
  · rw [if_pos stopping, if_pos stopping]
    exact ⟨rfl, same⟩
  · rw [if_neg stopping, if_neg stopping]
    exact ⟨rfl, .of_counts _ _ _ _ _ counts⟩

theorem pollOnce
    (same : SameFront left right)
    (index : Nat) :
    Alike (left.pollOnce index) (right.pollOnce index) := by
  obtain ⟨_, _, _, _, _, counts, rfl⟩ := same.exists_eq
  unfold Relay.pollOnce Subscriber.poll
  dsimp only
  split
  · exact ⟨rfl, same⟩
  · split
    · exact ⟨rfl, same⟩
    · rename_i listener _ _
      obtain ⟨taken_eq, counted⟩ := Subscriber.takeFragments_agrees counts listener.handler
        (left.channel.poll listener.subscriber.subscription
          left.settings.transport.fragmentLimit.toNat).1 listener.subscriber
      rw [taken_eq]
      exact ⟨rfl, .of_counts _ _ _ _ _ counted⟩

theorem stopListener
    (same : SameFront left right)
    (index : Nat) :
    SameFront (left.stopListener index) (right.stopListener index) := by
  obtain ⟨_, _, _, _, _, counts, rfl⟩ := same.exists_eq
  unfold Relay.stopListener
  dsimp only
  split
  · exact same
  · exact .of_counts _ _ _ _ _ counts

end SameFront

/-- Relays with the same settings and the same publisher start alike. -/
theorem sameFront_of_start
    {settings : Settings}
    {parts others : Parts}
    {disk opened otherDisk otherOpened : Disk}
    {left right : Relay}
    (started : start settings parts disk = .ok (left, opened))
    (otherStarted : start settings others otherDisk = .ok (right, otherOpened))
    (samePublisher : others.publisher? = parts.publisher?) :
    SameFront left right := by
  obtain ⟨store, rfl⟩ := exists_onStore_of_start started
  obtain ⟨otherStore, rfl⟩ := exists_onStore_of_start otherStarted
  unfold onStore
  rw [samePublisher]
  cases parts.publisher? <;> exact ⟨rfl, rfl, rfl, rfl, rfl, .refl _⟩

end Relay

/-! ## Behind the front -/

/-- Whether only recorder, forwarder, store or broker act in a turn. -/
def Books.Turn.isWork : Books.Turn → Bool
  | .take | .store _ | .fetch | .send | .answer _ _ | .closeRecorder | .closeForwarder => true
  | .publish _ _ | .republish _ _ | .refuse | .become _ => false

/-- A turn behind the front does not change it. -/
theorem Books.sameFront_step
    (books : Books)
    {turn : Books.Turn}
    (isWork : turn.isWork = true) :
    Relay.SameFront books.relay (books.step turn).relay := by
  obtain ⟨relay, ledger⟩ := books
  cases turn with
  | publish | republish | refuse | become => cases isWork
  | closeRecorder | closeForwarder => exact .of_counts relay _ _ _ _ (.refl _)
  | store result =>
      exact .of_counts relay _ _ _ _ (relay.recorder.sameCounts_finish result relay.metrics)
  | take | fetch =>
      rw [step]
      split
      · exact .refl relay
      · exact .of_counts relay _ _ _ _ (.refl _)
  | send =>
      rw [step, Books.send]
      split
      · exact .refl relay
      · exact .of_counts relay _ _ _ _ (.refl _)
  | answer index result =>
      rw [step, Books.answer]
      split
      · exact .refl relay
      · exact .of_counts relay _ _ _ _ (Forwarder.sameCounts_count result relay.metrics)

namespace Relay

/-- What happens behind the front of a relay. -/
inductive Work where
  /-- Recorder, forwarder, store or broker act. -/
  | turn (turn : Books.Turn) (isWork : turn.isWork = true)
  /-- Both workers do what is queued, with the store and the broker of the relay. -/
  | settle (disk : Disk)
  /-- Recorder, forwarder, store, broker and what they count become what they are on another
  relay. -/
  | become (other : Relay)

/-- Let something happen behind the front. -/
def act (relay : Relay) : Work → Relay
  | .turn turn _ => (Books.step ⟨relay, .blank⟩ turn).relay
  | .settle disk => (relay.settle disk).1
  | .become other => { relay with
      recorder := other.recorder
      forwarder := other.forwarder
      store := other.store
      broker := other.broker
      metrics := { relay.metrics with
        logAppends := other.metrics.logAppends
        logFailures := other.metrics.logFailures
        logDropped := other.metrics.logDropped
        forwarded := other.metrics.forwarded
        forwardFailures := other.metrics.forwardFailures
        forwardDropped := other.metrics.forwardDropped } }

theorem sameFront_act (relay : Relay) (work : Work) : SameFront relay (relay.act work) := by
  cases work with
  | turn turn isWork => exact Books.sameFront_step ⟨relay, .blank⟩ isWork
  | settle disk => exact relay.sameFront_settle disk
  | become other => exact .of_counts relay _ _ _ _ (.of_work relay.metrics _ _ _ _ _ _)

end Relay
end EventRelay
