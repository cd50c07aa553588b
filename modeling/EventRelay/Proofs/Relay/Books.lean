import EventRelay.Proofs.Event.Decoding
import EventRelay.Proofs.Relay.Recording
import EventRelay.Proofs.Replication.Accounts
import EventRelay.Relay.Publishing
import EventRelay.Relay.Shutdown

/-!
# The books of a relay

A relay counts everything that happens to its events.  Events are published live and by
replays, recorder and forwarder work step by step and at any time, and publisher, store
and broker answer as they like.

Whatever the order, every event that was offered is counted as delivered or as not
published; every live delivery as stored, refused by the store or dropped, unless it is
still with the recorder; and every delivery as sent, refused by the broker or dropped,
unless it is still with the forwarder.  Every retry is counted.
-/

namespace EventRelay

/-! ## Queues -/

/-- An entry that is offered is turned away from a closed or full queue, or taken. -/
theorem Recorder.offer_cases (recorder : Recorder) (entry : Entry) :
    recorder.offer entry = (false, recorder) ∨
      recorder.offer entry = (true, { recorder with queue := recorder.queue ++ [entry] }) := by
  unfold offer
  split
  · exact Or.inl rfl
  · exact Or.inr rfl

/-- Queueing an entry for the store counts nothing but a drop. -/
theorem Recorder.exists_record_eq (recorder : Recorder) (metrics : Metrics) (entry : Entry) :
    ∃ logDropped, (recorder.record metrics entry).2 =
      { metrics with logDropped := logDropped } := by
  unfold record
  rcases recorder.offer_cases entry with refused | taken
  · rw [refused]
    exact ⟨_, rfl⟩
  · rw [taken]
    exact ⟨_, rfl⟩

/-- Queueing a record for the broker counts nothing but a drop. -/
theorem Forwarder.exists_forward_eq (forwarder : Forwarder) (metrics : Metrics) (entry : Entry) :
    ∃ forwardDropped, (forwarder.forward metrics entry).2.2 =
      { metrics with forwardDropped := forwardDropped } := by
  unfold forward
  rcases forwarder.offer_cases entry with ⟨_, refused⟩ | ⟨_, _, taken⟩
  · rw [refused]
    exact ⟨_, rfl⟩
  · rw [taken]
    exact ⟨_, rfl⟩

/-! ## Retries -/

namespace Retry

variable {σ : Type}

/-- An offer beside which the numbers of retries are kept. -/
def tracedOffer (offer : σ → Offer × σ) (state : σ × List Nat) : Offer × σ × List Nat :=
  ((offer state.1).1, (offer state.1).2, state.2)

/-- What is done at a retry, with its number kept. -/
def tracedRetry
    (onRetry : Nat → Except Overflow Nat → σ → σ)
    (retry : Nat)
    (delay : Except Overflow Nat)
    (state : σ × List Nat) :
    σ × List Nat :=
  (onRetry retry delay state.1, state.2 ++ [retry])

variable {policy : Policy} {offer : σ → Offer × σ}
variable {onRetry : Nat → Except Overflow Nat → σ → σ}

/-- Keeping the numbers of retries changes nothing else. -/
theorem offerFrom_traced
    (remaining retries : Nat)
    (state : σ × List Nat) :
    (offerFrom policy (tracedOffer offer) (tracedRetry onRetry) remaining retries state).1 =
        (offerFrom policy offer onRetry remaining retries state.1).1 ∧
      (offerFrom policy (tracedOffer offer) (tracedRetry onRetry) remaining retries state).2.1 =
        (offerFrom policy offer onRetry remaining retries state.1).2 := by
  induction remaining generalizing retries state with
  | zero =>
      rw [offerFrom, offerFrom, tracedOffer]
      cases offer state.1 with
      | mk result next => cases result <;> exact ⟨rfl, rfl⟩
  | succ remaining inductionHypothesis =>
      rw [offerFrom, offerFrom, tracedOffer]
      cases offer state.1 with
      | mk result next =>
          cases result with
          | accepted | closed | maxPositionExceeded => exact ⟨rfl, rfl⟩
          | backPressured | adminAction => exact inductionHypothesis _ _

/-- What every offer and every retry keeps is kept by offering with retries. -/
theorem offerFrom_keeps
    {isKept : σ → Prop}
    (offerKeeps : ∀ state, isKept state → isKept (offer state).2)
    (retryKeeps : ∀ retry delay state, isKept state → isKept (onRetry retry delay state))
    (remaining retries : Nat)
    {state : σ}
    (kept : isKept state) :
    isKept (offerFrom policy offer onRetry remaining retries state).2 := by
  have stillKept := offerKeeps state kept
  induction remaining generalizing retries state with
  | zero =>
      rw [offerFrom]
      cases offered : offer state with
      | mk result next =>
          rw [offered] at stillKept
          cases result <;> exact stillKept
  | succ remaining inductionHypothesis =>
      rw [offerFrom]
      cases offered : offer state with
      | mk result next =>
          rw [offered] at stillKept
          cases result with
          | accepted | closed | maxPositionExceeded => exact stillKept
          | backPressured | adminAction =>
              have retried := retryKeeps retries (policy.backoff retries) next stillKept
              exact inductionHypothesis _ retried (offerKeeps _ retried)

end Retry

namespace Relay

/-- Offering a message, with the numbers of its retries. -/
def tracedOffering (relay : Relay) (message : Bytes) : Offering × List Nat :=
  (relay.settings.retryPolicy.offer (Retry.tracedOffer (Offering.offer message))
    (Retry.tracedRetry fun _ _ offering => offering.countRetry)
    (⟨relay.publisher, relay.channel, relay.metrics⟩, [])).2

/-- Nothing was counted but the retries that were kept. -/
structure Offering.CountsRetries (before : Metrics) (state : Offering × List Nat) : Prop where
  metrics_eq : state.1.metrics = { before with offerRetries := state.1.metrics.offerRetries }
  offerRetries_grows :
    Grows before.offerRetries state.1.metrics.offerRetries state.2.length

theorem Offering.CountsRetries.retry
    {before : Metrics}
    {state : Offering × List Nat}
    (counts : CountsRetries before state)
    (retry : Nat)
    (delay : Except Retry.Overflow Nat) :
    CountsRetries before
      (Retry.tracedRetry (fun _ _ offering => offering.countRetry) retry delay state) where
  metrics_eq := by
    rw [Retry.tracedRetry, countRetry, Metrics.recordOfferRetry, counts.metrics_eq]
  offerRetries_grows := counts.offerRetries_grows.concat retry

theorem countsRetries_tracedOffering (relay : Relay) (message : Bytes) :
    Offering.CountsRetries relay.metrics (relay.tracedOffering message) :=
  Retry.offerFrom_keeps (fun _ counts => ⟨counts.metrics_eq, counts.offerRetries_grows⟩)
    (fun retry delay _ counts => counts.retry retry delay) _ _ ⟨rfl, .refl _⟩

/-- Offering a message changes the publisher and the channel, and counts the retries. -/
theorem exists_offerMessage_eq (relay : Relay) (message : Bytes) :
    ∃ publisher channel offerRetries,
      Grows relay.metrics.offerRetries offerRetries (relay.tracedOffering message).2.length ∧
      (relay.offerMessage message).2 = { relay with
        publisher := publisher
        channel := channel
        metrics := { relay.metrics with offerRetries := offerRetries } } := by
  have counts := countsRetries_tracedOffering relay message
  have traced : (relay.tracedOffering message).1 = _ :=
    (Retry.offerFrom_traced relay.settings.retryPolicy.maxRetries 0 _).2
  refine ⟨(relay.tracedOffering message).1.publisher, (relay.tracedOffering message).1.channel, _,
    counts.offerRetries_grows, ?_⟩
  rw [← counts.metrics_eq, traced]
  rfl

/-- What a relay does with an event that is delivered. -/
def handOn (relay : Relay) (latency : UInt64) (isStored : Bool) (event : Event) : Relay :=
  let relay := { relay with metrics := relay.metrics.recordDelivered latency }
  let relay := if isStored then relay.record (entryOf event) else relay
  relay.forward (entryOf event)

/-- The numbers of the retries that publishing an event takes. -/
def retriesOfEvent (relay : Relay) (event : Event) : List Nat :=
  (tracedOffering { relay with metrics := relay.metrics.recordAccepted } event.encode).2

/-- An event that a running relay publishes is counted as accepted, and is then delivered and
handed on, or counted as not published. -/
theorem exists_publishEvent_eq
    {relay : Relay}
    (notStopping : ¬relay.isStopping = true)
    (latency : UInt64)
    (isStored : Bool)
    (event : Event) :
    ∃ publisher channel offerRetries, ∃ offered : Relay,
      Grows relay.metrics.offerRetries offerRetries (relay.retriesOfEvent event).length ∧
      offered = { relay with
        publisher := publisher
        channel := channel
        metrics := { relay.metrics.recordAccepted with offerRetries := offerRetries } } ∧
      ((∃ error, relay.publishEvent latency isStored event =
          (.error error, { offered with metrics := offered.metrics.recordPublishFailure })) ∨
        relay.publishEvent latency isStored event =
          (.ok (), offered.handOn latency isStored event)) := by
  obtain ⟨publisher, channel, offerRetries, grows, offered_eq⟩ :=
    exists_offerMessage_eq { relay with metrics := relay.metrics.recordAccepted } event.encode
  refine ⟨publisher, channel, offerRetries, _, grows, rfl, ?_⟩
  unfold publishEvent
  rw [if_neg notStopping]
  dsimp only
  generalize offerMessage { relay with metrics := relay.metrics.recordAccepted } event.encode =
    answered at offered_eq ⊢
  obtain ⟨result, offered⟩ := answered
  cases offered_eq
  cases result with
  | error error => exact Or.inl ⟨error, rfl⟩
  | ok delivery => exact Or.inr rfl

end Relay

open Relay (entryOf)

/-! ## The books -/

/-- What became of events and of their entries. -/
structure Ledger where
  /-- The events that were offered. -/
  offered : List Event
  /-- The events that were not published. -/
  refused : List Event
  /-- The events that were delivered. -/
  delivered : List Event
  /-- The delivered events that were published live. -/
  live : List Event
  /-- The delivered events of replays. -/
  replayed : List Event
  /-- The numbers of the retries. -/
  retries : List Nat
  /-- The entries that were stored. -/
  stored : List Entry
  /-- The entries that the store refused. -/
  unstored : List Entry
  /-- The entries that the recorder turned away. -/
  unrecorded : List Entry
  /-- The entries that the forwarder took. -/
  taken : List Entry
  /-- The entries that the forwarder turned away. -/
  dropped : List Entry
  /-- The records that were passed to the broker. -/
  started : List Record
  /-- The records that the broker answered, with its answers. -/
  answered : List (Record × Except BrokerError Unit)

namespace Ledger

/-- Nothing has happened. -/
def blank : Ledger :=
  ⟨[], [], [], [], [], [], [], [], [], [], [], [], []⟩

/-- An event is offered with some retries. -/
def offer (event : Event) (retries : List Nat) (ledger : Ledger) : Ledger :=
  { ledger with
    offered := ledger.offered ++ [event]
    retries := ledger.retries ++ retries }

/-- The recorder takes the entry of an event that was published live, or turns it away. -/
def record (isTaken : Bool) (event : Event) (ledger : Ledger) : Ledger :=
  { ledger with
    live := ledger.live ++ [event]
    unrecorded :=
      if isTaken then ledger.unrecorded else ledger.unrecorded ++ [entryOf event] }

/-- An event of a replay is not recorded. -/
def replay (event : Event) (ledger : Ledger) : Ledger :=
  { ledger with replayed := ledger.replayed ++ [event] }

/-- The store answers a batch. -/
def store (batch : List Entry) (result : Except LogError Unit) (ledger : Ledger) : Ledger :=
  match result with
  | .ok _ => { ledger with stored := ledger.stored ++ batch }
  | .error _ => { ledger with unstored := ledger.unstored ++ batch }

/-- An event is delivered, and the forwarder takes its entry or turns it away. -/
def deliver (isTaken : Bool) (event : Event) (ledger : Ledger) : Ledger :=
  { ledger with
    delivered := ledger.delivered ++ [event]
    taken := if isTaken then ledger.taken ++ [entryOf event] else ledger.taken
    dropped := if isTaken then ledger.dropped else ledger.dropped ++ [entryOf event] }

/-- A relay offers an event with some result. -/
def enter (relay : Relay) (isStored : Bool) (event : Event) (result : Except PublishError Unit)
    (ledger : Ledger) : Ledger :=
  if relay.isStopping then ledger
  else
    let offered := ledger.offer event (relay.retriesOfEvent event)
    match result with
    | .error _ => { offered with refused := offered.refused ++ [event] }
    | .ok _ =>
        let recorded :=
          if isStored then offered.record (relay.recorder.offer (entryOf event)).1 event
          else offered.replay event
        recorded.deliver (relay.forwarder.offer (entryOf event)).1 event

end Ledger

/-- A relay with its books. -/
structure Books where
  relay : Relay
  ledger : Ledger

namespace Books

/-- What happens on a relay. -/
inductive Turn where
  /-- An event is published. -/
  | publish (latency : UInt64) (event : Event)
  /-- An event of a replay is published. -/
  | republish (latency : UInt64) (event : Event)
  /-- The recorder takes an entry off its queue. -/
  | take
  /-- The store answers the batch of the recorder. -/
  | store (result : Except LogError Unit)
  /-- The forwarder takes a record off its queue. -/
  | fetch
  /-- The forwarder starts a send. -/
  | send
  /-- The broker answers one of the sends under way. -/
  | answer (index : Nat) (result : Except BrokerError Unit)
  /-- The queue of the recorder is closed. -/
  | closeRecorder
  /-- The queue of the forwarder is closed. -/
  | closeForwarder
  /-- The relay refuses further events. -/
  | refuse
  /-- Publisher, channel, store, broker and subscribers become what they are on another
  relay. -/
  | become (other : Relay)

/-- A relay with the publisher, channel, store, broker and subscribers of another one,
and the counters of these subscribers. -/
def become (relay other : Relay) : Relay :=
  { relay with
    publisher := other.publisher
    channel := other.channel
    store := other.store
    broker := other.broker
    listeners := other.listeners
    metrics := { relay.metrics with
      received := other.metrics.received
      handlerErrors := other.metrics.handlerErrors
      decodeErrors := other.metrics.decodeErrors } }

/-- Publish an event of a replay and count it, as a replay does. -/
def republish (relay : Relay) (latency : UInt64) (event : Event) :
    Except PublishError Unit × Relay :=
  match relay.publishEvent latency false event with
  | (.error error, relay) => (.error error, relay)
  | (.ok _, relay) => (.ok (), { relay with metrics := relay.metrics.recordReplayed })

/-- Be done with the batch of the recorder. -/
def store (books : Books) (result : Except LogError Unit) : Books :=
  let (recorder, metrics) := books.relay.recorder.finish result books.relay.metrics
  { relay := { books.relay with recorder := recorder, metrics := metrics }
    ledger := books.ledger.store books.relay.recorder.batch result }

/-- Start the send of the record that is waiting, if there is room for it. -/
def send (books : Books) : Books :=
  match books.relay.forwarder.start? with
  | none => books
  | some forwarder =>
      { relay := { books.relay with forwarder := forwarder }
        ledger := { books.ledger with started := books.ledger.started ++
          books.relay.forwarder.waiting.toList.map books.relay.forwarder.record } }

/-- End one of the sends under way. -/
def answer (books : Books) (index : Nat) (result : Except BrokerError Unit) : Books :=
  match books.relay.forwarder.complete? index with
  | none => books
  | some (entry, forwarder) =>
      { relay := { books.relay with
          forwarder := forwarder
          metrics := Forwarder.count result books.relay.metrics }
        ledger := { books.ledger with
          answered := books.ledger.answered ++ [(forwarder.record entry, result)] } }

/-- Do something, as far as it can be done. -/
def step (books : Books) : Turn → Books
  | .publish latency event =>
      let (result, relay) := books.relay.publish latency event
      ⟨relay, books.ledger.enter books.relay true event result⟩
  | .republish latency event =>
      let (result, relay) := republish books.relay latency event
      ⟨relay, books.ledger.enter books.relay false event result⟩
  | .take =>
      match books.relay.recorder.receive? with
      | none => books
      | some recorder => { books with relay := { books.relay with recorder := recorder } }
  | .store result => books.store result
  | .fetch =>
      match books.relay.forwarder.receive? with
      | none => books
      | some forwarder => { books with relay := { books.relay with forwarder := forwarder } }
  | .send => books.send
  | .answer index result => books.answer index result
  | .closeRecorder =>
      { books with relay := { books.relay with recorder := books.relay.recorder.close } }
  | .closeForwarder =>
      { books with relay := { books.relay with forwarder := books.relay.forwarder.close } }
  | .refuse => { books with relay := { books.relay with isStopping := true } }
  | .become other => { books with relay := become books.relay other }

def run (books : Books) (turns : List Turn) : Books :=
  turns.foldl step books

/-! ## Publishing -/

/-- Every event that was offered is counted as delivered, live or by a replay, or as not
published. -/
structure Published (metrics : Metrics) (ledger : Ledger) : Prop where
  accepted_grows : Grows 0 metrics.accepted ledger.offered.length
  publishFailures_grows : Grows 0 metrics.publishFailures ledger.refused.length
  delivered_grows : Grows 0 metrics.delivered ledger.delivered.length
  replayed_grows : Grows 0 metrics.replayed ledger.replayed.length
  offerRetries_grows : Grows 0 metrics.offerRetries ledger.retries.length
  offered_perm : (ledger.delivered ++ ledger.refused).Perm ledger.offered
  delivered_perm : (ledger.live ++ ledger.replayed).Perm ledger.delivered

variable {metrics : Metrics} {ledger : Ledger} {offerRetries : UInt64} {retries : List Nat}

theorem Published.refuse
    (published : Published metrics ledger)
    (event : Event)
    (grows : Grows metrics.offerRetries offerRetries retries.length) :
    Published
      { metrics.recordAccepted with offerRetries := offerRetries }.recordPublishFailure
      { ledger.offer event retries with refused := ledger.refused ++ [event] } where
  accepted_grows := published.accepted_grows.concat event
  publishFailures_grows := published.publishFailures_grows.concat event
  delivered_grows := published.delivered_grows
  replayed_grows := published.replayed_grows
  offerRetries_grows := published.offerRetries_grows.append grows
  offered_perm := by
    dsimp only
    rw [← List.append_assoc]
    exact published.offered_perm.append_right [event]
  delivered_perm := published.delivered_perm

/-- An event that is delivered joins those that were before those that were not
published. -/
theorem Published.concat_perm
    (published : Published metrics ledger)
    (event : Event) :
    (ledger.delivered ++ [event] ++ ledger.refused).Perm (ledger.offered ++ [event]) := by
  rw [List.append_assoc]
  refine (List.perm_append_comm.append_left _).trans ?_
  rw [← List.append_assoc]
  exact published.offered_perm.append_right [event]

theorem Published.record
    (published : Published metrics ledger)
    (event : Event)
    (grows : Grows metrics.offerRetries offerRetries retries.length)
    (latency : UInt64)
    (isRecorded isTaken : Bool) :
    Published
      ({ metrics.recordAccepted with offerRetries := offerRetries }.recordDelivered latency)
      (((ledger.offer event retries).record isRecorded event).deliver isTaken event) where
  accepted_grows := published.accepted_grows.concat event
  publishFailures_grows := published.publishFailures_grows
  delivered_grows := published.delivered_grows.concat event
  replayed_grows := published.replayed_grows
  offerRetries_grows := published.offerRetries_grows.append grows
  offered_perm := published.concat_perm event
  delivered_perm := by
    dsimp only [Ledger.deliver, Ledger.record, Ledger.offer]
    rw [List.append_assoc]
    refine (List.perm_append_comm.append_left _).trans ?_
    rw [← List.append_assoc]
    exact published.delivered_perm.append_right [event]

theorem Published.replay
    (published : Published metrics ledger)
    (event : Event)
    (grows : Grows metrics.offerRetries offerRetries retries.length)
    (latency : UInt64)
    (isTaken : Bool) :
    Published
      ({ metrics.recordAccepted with offerRetries := offerRetries }.recordDelivered
        latency).recordReplayed
      (((ledger.offer event retries).replay event).deliver isTaken event) where
  accepted_grows := published.accepted_grows.concat event
  publishFailures_grows := published.publishFailures_grows
  delivered_grows := published.delivered_grows.concat event
  replayed_grows := published.replayed_grows.concat event
  offerRetries_grows := published.offerRetries_grows.append grows
  offered_perm := published.concat_perm event
  delivered_perm := by
    dsimp only [Ledger.deliver, Ledger.replay, Ledger.offer]
    rw [← List.append_assoc]
    exact published.delivered_perm.append_right [event]

/-! ## Recording -/

/-- Every live delivery is counted as stored, refused by the store or turned away, or is
with the recorder. -/
structure Recorded (metrics : Metrics) (recorder : Recorder) (ledger : Ledger) : Prop where
  logAppends_grows : Grows 0 metrics.logAppends ledger.stored.length
  logFailures_grows : Grows 0 metrics.logFailures ledger.unstored.length
  logDropped_grows : Grows 0 metrics.logDropped ledger.unrecorded.length
  live_perm : (ledger.stored ++ (ledger.unstored ++ (ledger.unrecorded ++
    (recorder.batch ++ recorder.queue)))).Perm (ledger.live.map entryOf)

variable {recorder after : Recorder}

/-- What joins one of the lists of the recorder joins them all. -/
theorem Recorded.concat_perm
    (recorded : Recorded metrics recorder ledger)
    (event : Event) :
    (ledger.stored ++ (ledger.unstored ++ (ledger.unrecorded ++ [entryOf event] ++
      (recorder.batch ++ recorder.queue)))).Perm ((ledger.live ++ [event]).map entryOf) := by
  rw [List.map_append]
  refine List.Perm.trans ?_ (recorded.live_perm.append_right _)
  simp only [List.append_assoc]
  refine ((List.Perm.append_left _ ?_).append_left _).append_left _
  rw [← List.append_assoc recorder.batch]
  exact List.perm_append_comm

theorem Recorded.record
    (recorded : Recorded metrics recorder ledger)
    (event : Event) :
    Recorded (recorder.record metrics (entryOf event)).2
      (recorder.record metrics (entryOf event)).1
      (ledger.record (recorder.offer (entryOf event)).1 event) := by
  have concat_perm := recorded.concat_perm event
  unfold Recorder.record Ledger.record
  rcases recorder.offer_cases (entryOf event) with refused | taken
  · rw [refused]
    exact ⟨recorded.logAppends_grows, recorded.logFailures_grows,
      recorded.logDropped_grows.concat (entryOf event), concat_perm⟩
  · rw [taken]
    refine ⟨recorded.logAppends_grows, recorded.logFailures_grows, recorded.logDropped_grows, ?_⟩
    dsimp only
    rw [if_pos rfl, List.map_append, List.map_singleton]
    simpa only [List.append_assoc] using recorded.live_perm.append_right [entryOf event]

theorem Recorded.take
    (recorded : Recorded metrics recorder ledger)
    (received : recorder.receive? = some after) :
    Recorded metrics after ledger := by
  obtain ⟨logAppends_grows, logFailures_grows, logDropped_grows, live_perm⟩ := recorded
  obtain ⟨entry, rest, queued, _, rfl⟩ := Recorder.receive?_eq_some received
  rw [queued] at live_perm
  refine ⟨logAppends_grows, logFailures_grows, logDropped_grows, ?_⟩
  dsimp only
  rwa [List.append_assoc, List.singleton_append]

/-- The batch joins the entries that were stored, or those that the store refused. -/
theorem Recorded.store
    (recorded : Recorded metrics recorder ledger)
    (result : Except LogError Unit) :
    Recorded (recorder.finish result metrics).2 (recorder.finish result metrics).1
      (ledger.store recorder.batch result) := by
  obtain ⟨logAppends_grows, logFailures_grows, logDropped_grows, live_perm⟩ := recorded
  -- The batch goes past whatever stands before it in the list of all entries.
  have passed (others : List Entry) :
      (recorder.batch ++ (others ++ recorder.queue)).Perm
        (others ++ (recorder.batch ++ recorder.queue)) :=
    List.perm_append_comm_assoc _ _ _
  cases result with
  | error error =>
      refine ⟨logAppends_grows, logFailures_grows.append rfl, logDropped_grows, ?_⟩
      refine List.Perm.trans (List.Perm.append_left _ ?_) live_perm
      dsimp only [Ledger.store, Recorder.finish]
      rw [List.append_assoc]
      exact (passed ledger.unrecorded).append_left _
  | ok =>
      refine ⟨logAppends_grows.append rfl, logFailures_grows, logDropped_grows, ?_⟩
      dsimp only [Ledger.store, Recorder.finish]
      rw [List.append_assoc]
      refine List.Perm.trans (List.Perm.append_left _ ?_) live_perm
      exact (List.perm_append_comm_assoc _ _ _).trans
        ((passed ledger.unrecorded).append_left _)

/-! ## Forwarding -/

/-- Every delivery was taken by the forwarder, or turned away and counted. -/
structure Forwarded
    (topic : String)
    (limit : Nat)
    (metrics : Metrics)
    (forwarder : Forwarder)
    (ledger : Ledger) : Prop where
  carries : Replication.Carries topic limit forwarder ledger.taken ledger.started
    ledger.answered
  counted : Replication.Counted .initial metrics ledger.dropped ledger.answered
  delivered_perm : (ledger.taken ++ ledger.dropped).Perm (ledger.delivered.map entryOf)

variable {topic : String} {limit : Nat} {forwarder next : Forwarder}

theorem Forwarded.deliver
    (forwarded : Forwarded topic limit metrics forwarder ledger)
    (event : Event) :
    Forwarded topic limit (forwarder.forward metrics (entryOf event)).2.2
      (forwarder.forward metrics (entryOf event)).2.1
      (ledger.deliver (forwarder.offer (entryOf event)).1 event) := by
  obtain ⟨carries, counted, delivered_perm⟩ := forwarded
  have concat_perm := delivered_perm.append_right [entryOf event]
  rw [List.append_assoc, ← List.map_singleton, ← List.map_append] at concat_perm
  unfold Forwarder.forward Ledger.deliver
  rcases forwarder.offer_cases (entryOf event) with ⟨_, refused⟩ | ⟨_, _, taken⟩
  · rw [refused]
    exact ⟨carries, counted.drop _, concat_perm⟩
  · rw [taken]
    refine ⟨carries.take _, counted, ?_⟩
    refine List.Perm.trans ?_ concat_perm
    dsimp only
    rw [if_pos rfl, if_pos rfl, List.append_assoc]
    exact List.perm_append_comm.append_left _

/-! ## The invariant -/

/-- The books of a recorder, a forwarder and their counters are in order. -/
structure InOrder
    (topic : String)
    (limit : Nat)
    (metrics : Metrics)
    (recorder : Recorder)
    (forwarder : Forwarder)
    (ledger : Ledger) : Prop where
  published : Published metrics ledger
  recorded : Recorded metrics recorder ledger
  forwarded : Forwarded topic limit metrics forwarder ledger

/-- The books of a relay are in order. -/
def Invariant (topic : String) (limit : Nat) (books : Books) : Prop :=
  InOrder topic limit books.relay.metrics books.relay.recorder books.relay.forwarder
    books.ledger

theorem InOrder.refuse
    (inOrder : InOrder topic limit metrics recorder forwarder ledger)
    (event : Event)
    (grows : Grows metrics.offerRetries offerRetries retries.length) :
    InOrder topic limit
      { metrics.recordAccepted with offerRetries := offerRetries }.recordPublishFailure
      recorder forwarder
      { ledger.offer event retries with refused := ledger.refused ++ [event] } := by
  obtain ⟨published, recorded, forwarded⟩ := inOrder
  exact ⟨published.refuse event grows, { recorded with },
    ⟨forwarded.carries, { forwarded.counted with }, forwarded.delivered_perm⟩⟩

/-- A live event goes to the recorder and to the forwarder. -/
theorem InOrder.handOn
    (inOrder : InOrder topic limit metrics recorder forwarder ledger)
    (event : Event)
    (grows : Grows metrics.offerRetries offerRetries retries.length)
    (latency : UInt64)
    {counted : Metrics}
    (counted_eq : counted =
      { metrics.recordAccepted with offerRetries := offerRetries }.recordDelivered latency) :
    InOrder topic limit
      (forwarder.forward (recorder.record counted (entryOf event)).2 (entryOf event)).2.2
      (recorder.record counted (entryOf event)).1
      (forwarder.forward (recorder.record counted (entryOf event)).2 (entryOf event)).2.1
      (((ledger.offer event retries).record (recorder.offer (entryOf event)).1 event).deliver
        (forwarder.offer (entryOf event)).1 event) := by
  obtain ⟨published, recorded, forwarded⟩ := inOrder
  -- Recorder and forwarder each change one counter, which the other accounts do not read.
  obtain ⟨logDropped, recorded_eq⟩ := recorder.exists_record_eq counted (entryOf event)
  obtain ⟨forwardDropped, forwarded_eq⟩ :=
    forwarder.exists_forward_eq (recorder.record counted (entryOf event)).2 (entryOf event)
  have offered : Recorded counted recorder (ledger.offer event retries) := by
    rw [counted_eq]
    exact { recorded with }
  refine ⟨?_, ?_, Forwarded.deliver ?_ event⟩
  · rw [forwarded_eq, recorded_eq, counted_eq]
    exact { published.record event grows latency (recorder.offer (entryOf event)).1
      (forwarder.offer (entryOf event)).1 with }
  · rw [forwarded_eq]
    exact { offered.record event with }
  · rw [recorded_eq, counted_eq]
    exact ⟨forwarded.carries, { forwarded.counted with }, forwarded.delivered_perm⟩

/-- An event of a replay goes to the forwarder only. -/
theorem InOrder.handOnReplayed
    (inOrder : InOrder topic limit metrics recorder forwarder ledger)
    (event : Event)
    (grows : Grows metrics.offerRetries offerRetries retries.length)
    (latency : UInt64)
    {counted : Metrics}
    (counted_eq : counted =
      { metrics.recordAccepted with offerRetries := offerRetries }.recordDelivered latency) :
    InOrder topic limit (forwarder.forward counted (entryOf event)).2.2.recordReplayed recorder
      (forwarder.forward counted (entryOf event)).2.1
      (((ledger.offer event retries).replay event).deliver
        (forwarder.offer (entryOf event)).1 event) := by
  obtain ⟨published, recorded, forwarded⟩ := inOrder
  obtain ⟨forwardDropped, forwarded_eq⟩ :=
    forwarder.exists_forward_eq counted (entryOf event)
  have offered : Forwarded topic limit counted forwarder
      ((ledger.offer event retries).replay event) := by
    rw [counted_eq]
    exact ⟨forwarded.carries, { forwarded.counted with }, forwarded.delivered_perm⟩
  have delivered := offered.deliver event
  refine ⟨?_, ?_, delivered.carries, { delivered.counted with }, delivered.delivered_perm⟩
  · rw [forwarded_eq, counted_eq]
    exact { published.replay event grows latency (forwarder.offer (entryOf event)).1 with }
  · rw [forwarded_eq, counted_eq]
    exact { recorded with }

variable {books : Books}

/-- An event that is not published leaves the books in order.  One that is published is
handed on. -/
theorem Invariant.publishEvent
    (invariant : books.Invariant topic limit)
    {latency : UInt64}
    {isStored : Bool}
    {event : Event}
    {result : Except PublishError Unit}
    {relay : Relay}
    (answered : books.relay.publishEvent latency isStored event = (result, relay)) :
    (∃ error, result = .error error ∧
      Invariant topic limit
        ⟨relay, books.ledger.enter books.relay isStored event (.error error)⟩) ∨
    (result = .ok () ∧ ¬books.relay.isStopping = true ∧
      ∃ publisher channel offerRetries,
        Grows books.relay.metrics.offerRetries offerRetries
          (books.relay.retriesOfEvent event).length ∧
        relay = Relay.handOn { books.relay with
          publisher := publisher
          channel := channel
          metrics := { books.relay.metrics.recordAccepted with offerRetries := offerRetries } }
          latency isStored event) := by
  by_cases stopping : books.relay.isStopping = true
  · rw [Relay.publishEvent, if_pos stopping] at answered
    cases answered
    refine Or.inl ⟨_, rfl, ?_⟩
    rw [Ledger.enter, if_pos stopping]
    exact invariant
  · obtain ⟨publisher, channel, offerRetries, _, grows, rfl, ⟨error, refused⟩ | delivered⟩ :=
      Relay.exists_publishEvent_eq stopping latency isStored event
    · cases answered.symm.trans refused
      refine Or.inl ⟨error, rfl, ?_⟩
      rw [Ledger.enter, if_neg stopping]
      exact InOrder.refuse invariant event grows
    · cases answered.symm.trans delivered
      exact Or.inr ⟨rfl, stopping, publisher, channel, offerRetries, grows, rfl⟩

/-- A live event is entered by what becomes of it. -/
theorem Invariant.publish
    (invariant : books.Invariant topic limit)
    (latency : UInt64)
    (event : Event) :
    (books.step (.publish latency event)).Invariant topic limit := by
  rw [step, Relay.publish]
  cases answered : books.relay.publishEvent latency true event with
  | mk result relay =>
      rcases invariant.publishEvent answered with
        ⟨error, rfl, inOrder⟩ | ⟨rfl, notStopping, _, _, offerRetries, grows, rfl⟩
      · exact inOrder
      · dsimp only
        rw [Ledger.enter, if_neg notStopping]
        exact InOrder.handOn invariant event grows latency rfl

/-- An event of a replay is entered by what becomes of it. -/
theorem Invariant.republish
    (invariant : books.Invariant topic limit)
    (latency : UInt64)
    (event : Event) :
    (books.step (.republish latency event)).Invariant topic limit := by
  rw [step, Books.republish]
  cases answered : books.relay.publishEvent latency false event with
  | mk result relay =>
      rcases invariant.publishEvent answered with
        ⟨error, rfl, inOrder⟩ | ⟨rfl, notStopping, _, _, offerRetries, grows, rfl⟩
      · exact inOrder
      · dsimp only
        rw [Ledger.enter, if_neg notStopping]
        exact InOrder.handOnReplayed invariant event grows latency rfl

/-- Every turn keeps the books in order. -/
theorem Invariant.step
    (invariant : books.Invariant topic limit)
    (turn : Turn) :
    (books.step turn).Invariant topic limit := by
  have inOrder : InOrder topic limit books.relay.metrics books.relay.recorder
    books.relay.forwarder books.ledger := invariant
  obtain ⟨published, recorded, forwarded⟩ := inOrder
  cases turn with
  | publish latency event => exact invariant.publish latency event
  | republish latency event => exact invariant.republish latency event
  | take =>
      rw [Books.step]
      cases received : books.relay.recorder.receive? with
      | none => exact invariant
      | some recorder => exact ⟨published, recorded.take received, forwarded⟩
  | store result =>
      have stored := recorded.store result
      rw [Books.step, Books.store]
      cases result with
      | ok | error =>
          exact ⟨{ published with }, stored,
            ⟨forwarded.carries, { forwarded.counted with }, forwarded.delivered_perm⟩⟩
  | fetch =>
      rw [Books.step]
      cases received : books.relay.forwarder.receive? with
      | none => exact invariant
      | some forwarder =>
          exact ⟨published, recorded, forwarded.carries.fetch received, forwarded.counted,
            forwarded.delivered_perm⟩
  | send =>
      rw [Books.step, Books.send]
      cases begun : books.relay.forwarder.start? with
      | none => exact invariant
      | some forwarder =>
          exact ⟨{ published with }, { recorded with }, forwarded.carries.send begun,
            forwarded.counted, forwarded.delivered_perm⟩
  | answer index result =>
      rw [Books.step, Books.answer]
      cases completed : books.relay.forwarder.complete? index with
      | none => exact invariant
      | some ended =>
          obtain ⟨entry, forwarder⟩ := ended
          have carries := forwarded.carries.answer completed result
          have counted := forwarded.counted.answer (forwarder.record entry) result
          cases result with
          | ok | error =>
              exact ⟨{ published with }, { recorded with }, carries, counted,
                forwarded.delivered_perm⟩
  | closeRecorder => exact ⟨published, { recorded with }, forwarded⟩
  | closeForwarder =>
      exact ⟨published, recorded, forwarded.carries.close, forwarded.counted,
        forwarded.delivered_perm⟩
  | refuse => exact invariant
  | become other =>
      exact ⟨{ published with }, { recorded with },
        ⟨forwarded.carries, { forwarded.counted with }, forwarded.delivered_perm⟩⟩

theorem Invariant.run
    (invariant : books.Invariant topic limit)
    (turns : List Turn) :
    (books.run turns).Invariant topic limit := by
  induction turns generalizing books with
  | nil => exact invariant
  | cons turn turns inductionHypothesis => exact inductionHypothesis (invariant.step turn)

/-! ## The balance -/

/-- Every counter tells how often something happened. -/
structure Tells (metrics : Metrics) (ledger : Ledger) : Prop where
  accepted_eq : metrics.accepted.toNat = ledger.offered.length
  publishFailures_eq : metrics.publishFailures.toNat = ledger.refused.length
  delivered_eq : metrics.delivered.toNat = ledger.delivered.length
  replayed_eq : metrics.replayed.toNat = ledger.replayed.length
  offerRetries_eq : metrics.offerRetries.toNat = ledger.retries.length
  logAppends_eq : metrics.logAppends.toNat = ledger.stored.length
  logFailures_eq : metrics.logFailures.toNat = ledger.unstored.length
  logDropped_eq : metrics.logDropped.toNat = ledger.unrecorded.length
  forwarded_eq :
    metrics.forwarded.toNat = ledger.answered.countP fun answer => answer.2.isOk
  forwardFailures_eq :
    metrics.forwardFailures.toNat = ledger.answered.countP fun answer => !answer.2.isOk
  forwardDropped_eq : metrics.forwardDropped.toNat = ledger.dropped.length

/-- How many events and entries there are. -/
structure Sums (recorder : Recorder) (forwarder : Forwarder) (ledger : Ledger) : Prop where
  offered_eq : ledger.offered.length = ledger.delivered.length + ledger.refused.length
  delivered_eq : ledger.delivered.length = ledger.live.length + ledger.replayed.length
  live_eq : ledger.live.length = ledger.stored.length + ledger.unstored.length +
    ledger.unrecorded.length + recorder.pending
  forwarded_eq : ledger.delivered.length =
    ledger.answered.length + ledger.dropped.length + forwarder.pending

theorem InOrder.sums
    (inOrder : InOrder topic limit metrics recorder forwarder ledger) :
    Sums recorder forwarder ledger := by
  obtain ⟨published, recorded, forwarded⟩ := inOrder
  have offered_eq := published.offered_perm.length_eq
  have delivered_eq := published.delivered_perm.length_eq
  have live_eq := recorded.live_perm.length_eq
  have forwarded_eq := forwarded.delivered_perm.length_eq
  have taken_eq := congrArg List.length forwarded.carries.started_append
  have started_eq := forwarded.carries.answered_perm.length_eq
  simp only [List.length_append, List.length_map] at *
  refine ⟨by omega, by omega, ?_, ?_⟩
  · rw [Recorder.pending]
    omega
  · rw [Forwarder.pending, Forwarder.inFlight]
    omega

/-- Fewer events and retries than a word can count are counted exactly. -/
theorem InOrder.tells
    (inOrder : InOrder topic limit metrics recorder forwarder ledger)
    (events_lt : ledger.offered.length < UInt64.size)
    (retries_lt : ledger.retries.length < UInt64.size) :
    Tells metrics ledger := by
  obtain ⟨offered_eq, delivered_eq, live_eq, forwarded_eq⟩ := inOrder.sums
  obtain ⟨published, recorded, _, counted, _⟩ := inOrder
  have ok_le : (ledger.answered.countP fun answer => answer.2.isOk) ≤ ledger.answered.length :=
    List.countP_le_length
  have failed_le : (ledger.answered.countP fun answer => !answer.2.isOk) ≤
      ledger.answered.length :=
    List.countP_le_length
  exact
    { accepted_eq := published.accepted_grows.toNat_eq events_lt
      publishFailures_eq := published.publishFailures_grows.toNat_eq (by omega)
      delivered_eq := published.delivered_grows.toNat_eq (by omega)
      replayed_eq := published.replayed_grows.toNat_eq (by omega)
      offerRetries_eq := published.offerRetries_grows.toNat_eq retries_lt
      logAppends_eq := recorded.logAppends_grows.toNat_eq (by omega)
      logFailures_eq := recorded.logFailures_grows.toNat_eq (by omega)
      logDropped_eq := recorded.logDropped_grows.toNat_eq (by omega)
      forwarded_eq := counted.forwarded_grows.toNat_eq (by omega)
      forwardFailures_eq := counted.forwardFailures_grows.toNat_eq (by omega)
      forwardDropped_eq := counted.forwardDropped_grows.toNat_eq (by omega) }

/-- The counters of a relay balance, and each of them tells how often something happened.
Every live delivery whose entry is not with the recorder was stored, refused by the store
or turned away, and every delivery whose entry is not with the forwarder was answered by
the broker or turned away, each exactly once. -/
structure Balanced (topic : String) (books : Books) : Prop where
  accepted_eq : books.relay.metrics.accepted.toNat =
    books.relay.metrics.delivered.toNat + books.relay.metrics.publishFailures.toNat
  replayed_le : books.relay.metrics.replayed.toNat ≤ books.relay.metrics.delivered.toNat
  live_eq : books.relay.metrics.delivered.toNat - books.relay.metrics.replayed.toNat =
    books.relay.metrics.logAppends.toNat + books.relay.metrics.logFailures.toNat +
      books.relay.metrics.logDropped.toNat + books.relay.recorder.pending
  delivered_eq : books.relay.metrics.delivered.toNat =
    books.relay.metrics.forwarded.toNat + books.relay.metrics.forwardFailures.toNat +
      books.relay.metrics.forwardDropped.toNat + books.relay.forwarder.pending
  tells : Tells books.relay.metrics books.ledger
  recordedOnce : (books.ledger.stored ++ (books.ledger.unstored ++ (books.ledger.unrecorded ++
    (books.relay.recorder.batch ++ books.relay.recorder.queue)))).Perm
      (books.ledger.live.map entryOf)
  recordedAll : books.relay.recorder.pending = 0 →
    (books.ledger.stored ++ (books.ledger.unstored ++ books.ledger.unrecorded)).Perm
      (books.ledger.live.map entryOf)
  forwardedOnce : (books.ledger.taken ++ books.ledger.dropped).Perm
    (books.ledger.delivered.map entryOf)
  forwardedAll : books.relay.forwarder.pending = 0 →
    (books.ledger.answered.map Prod.fst).Perm
      (books.ledger.taken.map (Forwarder.recordOf topic))

/-- A send is answered in one of two ways. -/
theorem countP_isOk_add (answers : List (Record × Except BrokerError Unit)) :
    (answers.countP fun answer => answer.2.isOk) +
      (answers.countP fun answer => !answer.2.isOk) = answers.length := by
  have split : answers.length = (answers.countP fun answer => answer.2.isOk) +
      answers.countP fun answer => decide ¬answer.2.isOk = true :=
    List.length_eq_countP_add_countP fun answer : Record × Except BrokerError Unit =>
      answer.2.isOk
  rw [split]
  congr 1
  refine List.countP_congr fun answer _ => ?_
  simp

/-- A recorder that holds nothing has passed on everything. -/
theorem Recorded.perm_of_pending_eq_zero
    (recorded : Recorded metrics recorder ledger)
    (drained : recorder.pending = 0) :
    (ledger.stored ++ (ledger.unstored ++ ledger.unrecorded)).Perm
      (ledger.live.map entryOf) := by
  have live_perm := recorded.live_perm
  rw [Recorder.pending, Nat.add_eq_zero_iff, List.length_eq_zero_iff,
    List.length_eq_zero_iff] at drained
  rwa [drained.1, drained.2, List.append_nil, List.append_nil] at live_perm

/-- A forwarder that holds nothing has had an answer to everything. -/
theorem Forwarded.perm_of_pending_eq_zero
    (forwarded : Forwarded topic limit metrics forwarder ledger)
    (drained : forwarder.pending = 0) :
    (ledger.answered.map Prod.fst).Perm
      (ledger.taken.map (Forwarder.recordOf topic)) := by
  have started_append := forwarded.carries.started_append
  have answered_perm := forwarded.carries.answered_perm
  rw [Forwarder.pending, Forwarder.inFlight, Nat.add_eq_zero_iff, Nat.add_eq_zero_iff,
    List.length_eq_zero_iff, List.length_eq_zero_iff, List.length_eq_zero_iff] at drained
  obtain ⟨noQueue, noWaiting, noSends⟩ := drained
  rw [noQueue, noWaiting, List.append_nil, List.map_nil, List.append_nil] at started_append
  rw [noSends, List.map_nil, List.append_nil] at answered_perm
  rwa [started_append] at answered_perm

theorem InOrder.balanced
    (inOrder : books.Invariant topic limit)
    (events_lt : books.ledger.offered.length < UInt64.size)
    (retries_lt : books.ledger.retries.length < UInt64.size) :
    Balanced topic books := by
  have tells := InOrder.tells inOrder events_lt retries_lt
  obtain ⟨offered_eq, delivered_eq, live_eq, forwarded_eq⟩ := InOrder.sums inOrder
  have answered_eq := countP_isOk_add books.ledger.answered
  obtain ⟨_, recorded, forwarded⟩ := inOrder
  refine ⟨?_, ?_, ?_, ?_, tells, recorded.live_perm, recorded.perm_of_pending_eq_zero,
    forwarded.delivered_perm, forwarded.perm_of_pending_eq_zero⟩
  · rw [tells.accepted_eq, tells.delivered_eq, tells.publishFailures_eq]
    exact offered_eq
  · rw [tells.replayed_eq, tells.delivered_eq]
    omega
  · rw [tells.delivered_eq, tells.replayed_eq, tells.logAppends_eq, tells.logFailures_eq,
      tells.logDropped_eq]
    omega
  · rw [tells.delivered_eq, tells.forwarded_eq, tells.forwardFailures_eq,
      tells.forwardDropped_eq]
    omega

/-- The books of a relay that has just started. -/
def opening (relay : Relay) : Books where
  relay := relay
  ledger := .blank

theorem invariant_opening
    {settings : Settings}
    {parts : Relay.Parts}
    {disk opened : Disk}
    {relay : Relay}
    (started : Relay.start settings parts disk = .ok (relay, opened)) :
    (opening relay).Invariant settings.broker.topic
      (max settings.workers.forwardMaxInFlight.toNat 1) := by
  unfold Relay.start at started
  split at started
  · cases started
  · split at started
    · cases started
    · cases started
      exact
        { published := ⟨.refl _, .refl _, .refl _, .refl _, .refl _, .nil, .nil⟩
          recorded := ⟨.refl _, .refl _, .refl _, .nil⟩
          forwarded := ⟨Replication.carries_initial _ _ _, Replication.counted_nil _, .nil⟩ }

/-- The books of a relay balance whatever happens on it. -/
theorem balanced_run
    {settings : Settings}
    {parts : Relay.Parts}
    {disk opened : Disk}
    {relay : Relay}
    (started : Relay.start settings parts disk = .ok (relay, opened))
    (turns : List Turn)
    (events_lt : ((opening relay).run turns).ledger.offered.length < UInt64.size)
    (retries_lt : ((opening relay).run turns).ledger.retries.length < UInt64.size) :
    Balanced settings.broker.topic ((opening relay).run turns) :=
  InOrder.balanced ((invariant_opening started).run turns) events_lt retries_lt

/-- A publisher that is once too busy and once closed, and a store that is out of order. -/
def troubled : Relay.Parts where
  store? := some (.broken false)
  publisher? := some (.scripted (.initial [.backPressured, .accepted 64, .closed] (.accepted 128)))
  broker? := none

/-- Live events and one of a replay, of which one is not published, while the workers are at
work and their queues are closed. -/
def eventful : List Turn :=
  [.publish 5 Event.sample, .take, .publish 5 Event.sample, .fetch, .store (.error .closed),
    .republish 5 Event.sample, .send, .publish 5 Event.sample, .fetch, .send,
    .answer 1 (.error (.send "unavailable")), .closeRecorder, .publish 5 Event.sample, .take,
    .store (.ok ()), .closeForwarder, .publish 5 Event.sample, .refuse, .publish 5 Event.sample]

theorem balanced_run_eventful :
    Relay.start Settings.standard troubled Disk.vacant =
        .ok (Relay.onStore Settings.standard troubled (.broken false), Disk.vacant) ∧
      let books := (opening (Relay.onStore Settings.standard troubled (.broken false))).run
        eventful
      books.ledger.offered.length = 6 ∧ books.ledger.retries = [0] ∧
        books.relay.recorder.pending = 0 ∧ books.relay.forwarder.pending = 3 ∧
        Balanced Settings.standard.broker.topic books := by
  have valid : Settings.standard.violation? = none := by decide +kernel
  have started : Relay.start Settings.standard troubled Disk.vacant =
      .ok (Relay.onStore Settings.standard troubled (.broken false), Disk.vacant) := by
    rw [Relay.start, valid]
    rfl
  refine ⟨started, ?_⟩
  intro books
  have offered_eq : books.ledger.offered.length = 6 := by decide +kernel
  have retries_eq : books.ledger.retries = [0] := by decide +kernel
  exact ⟨offered_eq, retries_eq, by decide +kernel, by decide +kernel,
    balanced_run started eventful (by rw [offered_eq]; decide) (by rw [retries_eq]; decide)⟩

end Books
end EventRelay
