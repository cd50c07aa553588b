import EventRelay.Proofs.Event.RoundTrip
import EventRelay.Proofs.Relay.Forwarding
import EventRelay.Proofs.Relay.Publishing
import EventRelay.Proofs.Relay.Recording

/-!
# A relay at work

Events are published on a relay while its two workers work, each step by step and
at any time, and while subscribers join, read and leave.  Every accepted event is
then in the log or still with the recorder, and sent or still with the forwarder,
as long as the queues are never full.  When the relay stops, all accepted events
are stored and sent.
-/

namespace EventRelay

open Relay (SameWork entryOf)

/-! ## Activities -/

/-- What happens on a relay. -/
inductive Activity where
  /-- An event is published. -/
  | publish (latency : UInt64) (event : Event)
  /-- A subscriber joins. -/
  | join (handler : Handler)
  /-- The subscribers read. -/
  | deliver
  /-- A subscriber is told to leave. -/
  | leave (index : Nat)
  /-- The recorder takes an entry off its queue. -/
  | take
  /-- The recorder stores the entries that it has taken. -/
  | store
  /-- The forwarder takes a record off its queue. -/
  | fetch
  /-- The forwarder starts a send. -/
  | send
  /-- The broker answers one of the sends under way. -/
  | answer (index : Nat)

/-- A relay with its directory, and the events that were accepted. -/
structure Service where
  relay : Relay
  disk : Disk
  published : List Event

namespace Service

/-- Do something, as far as it can be done. -/
def step (service : Service) : Activity → Service
  | .publish latency event =>
      match service.relay.publish latency event with
      | (.error _, relay) => { service with relay := relay }
      | (.ok _, relay) =>
          { service with relay := relay, published := service.published ++ [event] }
  | .join handler =>
      match service.relay.subscribe handler with
      | .error _ => service
      | .ok (_, relay) => { service with relay := relay }
  | .deliver => { service with relay := service.relay.deliver }
  | .leave index => { service with relay := service.relay.stopListener index }
  | .take =>
      match service.relay.recorder.receive? with
      | none => service
      | some recorder => { service with relay := { service.relay with recorder := recorder } }
  | .store =>
      let (recorder, store, disk, metrics) :=
        service.relay.recorder.storeBatch service.relay.store service.disk service.relay.metrics
      { service with
        relay := { service.relay with recorder := recorder, store := store, metrics := metrics }
        disk := disk }
  | .fetch =>
      match service.relay.forwarder.receive? with
      | none => service
      | some forwarder => { service with relay := { service.relay with forwarder := forwarder } }
  | .send =>
      match service.relay.forwarder.start? with
      | none => service
      | some forwarder => { service with relay := { service.relay with forwarder := forwarder } }
  | .answer index =>
      match service.relay.forwarder.answerAt? index service.relay.broker service.relay.metrics with
      | none => service
      | some (forwarder, broker, metrics) =>
          { service with relay := { service.relay with
            forwarder := forwarder
            broker := broker
            metrics := metrics } }

def run (service : Service) (activities : List Activity) : Service :=
  activities.foldl step service

/-- Let the recorder store the entries that it has taken, and stop the relay. -/
def stop (service : Service) : Except RelayError Unit × Relay × Disk :=
  let ready := service.step .store
  ready.relay.stop ready.disk

/-- Both queues of a relay have room for an entry. -/
def HasRoom (relay : Relay) : Prop :=
  relay.recorder.queue.length < relay.recorder.capacity ∧
    relay.forwarder.queue.length < relay.forwarder.capacity

instance (relay : Relay) : Decidable (HasRoom relay) :=
  inferInstanceAs (Decidable (_ ∧ _))

/-- Every event that is published finds room in both queues. -/
def IsNeverFull : Service → List Activity → Prop
  | _, [] => True
  | service, .publish latency event :: rest =>
      HasRoom service.relay ∧ IsNeverFull (service.step (.publish latency event)) rest
  | service, activity :: rest => IsNeverFull (service.step activity) rest

/-! ## Where the accepted events are -/

/-- What holds of a relay at work: the recorder and the forwarder have taken every
accepted event.  The broker is one that was in memory and refused nothing, if at
all something is said about it. -/
structure Invariant (topic : String) (broker : Broker) (service : Service) : Prop where
  isRunning : service.relay.isStopping = false
  recorderIsOpen : service.relay.recorder.isClosed = false
  forwarderIsOpen : service.relay.forwarder.isClosed = false
  holds : ∃ log, service.relay.store = .durable log ∧
    service.relay.recorder.Holds Event.maxEncodedSize log service.disk
      (service.published.map entryOf)
  sends : ∀ before, broker = .memory ⟨before, 0⟩ →
    service.relay.forwarder.Sends topic before service.relay.broker
      (service.published.map entryOf)

variable {topic : String} {broker : Broker} {service : Service}

/-- Publishers, subscribers and counters have no part in the invariant. -/
theorem Invariant.sameWork
    {relay after : Relay}
    {disk : Disk}
    {published : List Event}
    (invariant : Invariant topic broker ⟨relay, disk, published⟩)
    (same : SameWork relay after) :
    Invariant topic broker ⟨after, disk, published⟩ := by
  obtain ⟨isRunning, recorderIsOpen, forwarderIsOpen, holds, sends⟩ := invariant
  obtain ⟨_, store_eq, recorder_eq, forwarder_eq, broker_eq, isStopping_eq⟩ := same
  dsimp only at isRunning recorderIsOpen forwarderIsOpen holds sends
  rw [← isStopping_eq] at isRunning
  rw [← recorder_eq] at recorderIsOpen holds
  rw [← forwarder_eq] at forwarderIsOpen sends
  rw [← store_eq] at holds
  rw [← broker_eq] at sends
  exact ⟨isRunning, recorderIsOpen, forwarderIsOpen, holds, sends⟩

theorem Invariant.publish
    (invariant : service.Invariant topic broker)
    (room : HasRoom service.relay)
    (latency : UInt64)
    (event : Event) :
    (service.step (.publish latency event)).Invariant topic broker := by
  obtain ⟨relay, disk, published⟩ := service
  rw [step, Relay.publish]
  rcases relay.publishEvent_cases latency true event with
    ⟨error, after, refused, same⟩ | ⟨after, accepted, same⟩
  · dsimp only
    rw [refused]
    exact invariant.sameWork same
  · dsimp only
    rw [accepted]
    apply Invariant.sameWork _ same
    obtain ⟨isRunning, recorderIsOpen, forwarderIsOpen, ⟨log, store_eq, holds⟩, sends⟩ := invariant
    have small : (entryOf event).value.length ≤ Event.maxEncodedSize := by
      rw [entryOf, Event.length_encode]
      exact event.encodedSize_le
    refine ⟨isRunning, ?_, ?_, ⟨log, store_eq, ?_⟩, fun before isMemory => ?_⟩
    · exact (Recorder.isClosed_offer _ _).trans recorderIsOpen
    · exact (Forwarder.isClosed_offer _ _).trans forwarderIsOpen
    · rw [List.map_append]
      exact holds.offer recorderIsOpen room.1 small
    · rw [List.map_append]
      exact (sends before isMemory).offer forwarderIsOpen room.2 (entryOf event)

theorem Invariant.take
    (invariant : service.Invariant topic broker) :
    (service.step .take).Invariant topic broker := by
  rw [step]
  cases received : service.relay.recorder.receive? with
  | none => exact invariant
  | some recorder =>
      obtain ⟨isRunning, recorderIsOpen, forwarderIsOpen, holds, sends⟩ := invariant
      obtain ⟨log, store_eq, held⟩ := holds
      exact ⟨isRunning, (Recorder.isClosed_receive received).trans recorderIsOpen,
        forwarderIsOpen, ⟨log, store_eq, held.receive received⟩, sends⟩

theorem Invariant.store
    (invariant : service.Invariant topic broker)
    (numbered : service.published.length < 0x10000000000000000) :
    (service.step .store).Invariant topic broker ∧
      (service.step .store).relay.recorder.batch = [] := by
  obtain ⟨isRunning, recorderIsOpen, forwarderIsOpen, ⟨log, store_eq, holds⟩, sends⟩ := invariant
  obtain ⟨after, grown, counted, stored, nowHolds⟩ :=
    holds.storeBatch (by rwa [List.length_map]) service.relay.metrics
  rw [step, store_eq, stored]
  exact ⟨⟨isRunning, recorderIsOpen, forwarderIsOpen, ⟨after, rfl, nowHolds⟩, sends⟩, rfl⟩

theorem Invariant.fetch
    (invariant : service.Invariant topic broker) :
    (service.step .fetch).Invariant topic broker := by
  rw [step]
  cases received : service.relay.forwarder.receive? with
  | none => exact invariant
  | some forwarder =>
      obtain ⟨isRunning, recorderIsOpen, forwarderIsOpen, holds, sends⟩ := invariant
      exact ⟨isRunning, recorderIsOpen,
        (Forwarder.isClosed_receive received).trans forwarderIsOpen, holds,
        fun before isMemory => (sends before isMemory).receive received⟩

theorem Invariant.send
    (invariant : service.Invariant topic broker) :
    (service.step .send).Invariant topic broker := by
  rw [step]
  cases started : service.relay.forwarder.start? with
  | none => exact invariant
  | some forwarder =>
      obtain ⟨isRunning, recorderIsOpen, forwarderIsOpen, holds, sends⟩ := invariant
      exact ⟨isRunning, recorderIsOpen,
        (Forwarder.isClosed_start started).trans forwarderIsOpen, holds,
        fun before isMemory => (sends before isMemory).start started⟩

theorem Invariant.answer
    (invariant : service.Invariant topic broker)
    (index : Nat) :
    (service.step (.answer index)).Invariant topic broker := by
  rw [step]
  cases answered :
      service.relay.forwarder.answerAt? index service.relay.broker service.relay.metrics with
  | none => exact invariant
  | some result =>
      obtain ⟨forwarder, after, metrics⟩ := result
      obtain ⟨isRunning, recorderIsOpen, forwarderIsOpen, holds, sends⟩ := invariant
      exact ⟨isRunning, recorderIsOpen,
        (Forwarder.isClosed_answerAt answered).trans forwarderIsOpen, holds,
        fun before isMemory => (sends before isMemory).answerAt answered⟩

/-- Only publishing needs room, and only storing needs numbers of segments. -/
theorem Invariant.step
    (invariant : service.Invariant topic broker)
    (numbered : service.published.length < 0x10000000000000000)
    {activity : Activity}
    {rest : List Activity}
    (neverFull : service.IsNeverFull (activity :: rest)) :
    (service.step activity).Invariant topic broker ∧
      (service.step activity).IsNeverFull rest := by
  cases activity with
  | publish latency event => exact ⟨invariant.publish neverFull.1 latency event, neverFull.2⟩
  | join handler =>
      refine ⟨?_, neverFull⟩
      rw [Service.step]
      cases joined : service.relay.subscribe handler with
      | error error => exact invariant
      | ok result => exact invariant.sameWork (Relay.sameWork_subscribe joined)
  | deliver => exact ⟨invariant.sameWork (Relay.sameWork_deliver _), neverFull⟩
  | leave index => exact ⟨invariant.sameWork (Relay.sameWork_stopListener _ index), neverFull⟩
  | take => exact ⟨invariant.take, neverFull⟩
  | store => exact ⟨(invariant.store numbered).1, neverFull⟩
  | fetch => exact ⟨invariant.fetch, neverFull⟩
  | send => exact ⟨invariant.send, neverFull⟩
  | answer index => exact ⟨invariant.answer index, neverFull⟩

/-- Accepted events stay accepted. -/
theorem published_isPrefix_step (service : Service) (activity : Activity) :
    service.published <+: (service.step activity).published := by
  cases activity with
  | publish latency event =>
      unfold step
      dsimp only
      split
      · exact List.prefix_rfl
      · exact List.prefix_append _ _
  | deliver | leave | store => exact List.prefix_rfl
  | join | take | fetch | send | answer =>
      unfold step
      dsimp only
      split <;> exact List.prefix_rfl

theorem published_isPrefix_run (service : Service) (activities : List Activity) :
    service.published <+: (service.run activities).published := by
  induction activities generalizing service with
  | nil => exact List.prefix_rfl
  | cons activity rest inductionHypothesis =>
      exact (published_isPrefix_step service activity).trans (inductionHypothesis _)

theorem Invariant.run
    {activities : List Activity}
    (invariant : service.Invariant topic broker)
    (neverFull : service.IsNeverFull activities)
    (numbered : (service.run activities).published.length < 0x10000000000000000) :
    (service.run activities).Invariant topic broker := by
  induction activities generalizing service with
  | nil => exact invariant
  | cons activity rest inductionHypothesis =>
      have fewer := (published_isPrefix_run service (activity :: rest)).length_le
      obtain ⟨stepped, nowNeverFull⟩ := invariant.step (by omega) neverFull
      exact inductionHypothesis stepped nowNeverFull numbered

/-! ## Starting and stopping -/

/-- A relay with a log of its own starts in an empty directory. -/
theorem exists_start
    {settings : Settings}
    (valid : settings.violation? = none)
    (batchMax_le : settings.workers.logBatchMax.toNat ≤ 500000)
    {parts : Relay.Parts}
    (ownStore : parts.store? = none)
    {disk : Disk}
    (empty : disk.names = [])
    (isPlace : disk.place ≠ .file) :
    ∃ relay opened, Relay.start settings parts disk = .ok (relay, opened) ∧
      Invariant settings.broker.topic (parts.broker?.getD (.memory .initial))
        ⟨relay, opened, []⟩ := by
  obtain ⟨log, opened, accepted, accumulates⟩ :=
    Log.exists_accumulates_nil empty isPlace settings.logSettings
  have started : Relay.start settings parts disk =
      .ok (Relay.onStore settings parts (.durable log), opened) := by
    unfold Relay.start Relay.openStore
    rw [valid, ownStore, accepted]
  have suits : Recorder.Suits Event.maxEncodedSize
      (max settings.workers.logBatchMax.toNat 1) := by
    refine ⟨by omega, by decide, ?_⟩
    have entrySize : Key.size + 4 + Event.maxEncodedSize = 92 := rfl
    have largest : Frame.maxBodySize = 67108864 := rfl
    rw [entrySize]
    omega
  refine ⟨_, _, started, rfl, rfl, rfl, ⟨log, rfl, ⟨[], accumulates, rfl⟩, suits,
    Nat.zero_le _, by simp⟩, ?_⟩
  intro before isMemory
  refine ⟨rfl, Nat.le_max_right _ _, [], ?_, List.Perm.nil⟩
  rw [List.map_nil, List.append_nil]
  exact isMemory

/-- When a relay has stopped, its log and its broker have got all accepted events. -/
theorem Invariant.exists_stopped
    (invariant : service.Invariant topic broker)
    (numbered : service.published.length < 0x10000000000000000) :
    ∃ stopped closed, service.stop = (.ok (), stopped, closed) ∧
      (∃ log disk, closed = (log.close disk).2 ∧
        Log.Accumulates log disk (service.published.map entryOf)) ∧
      ∀ before, broker = .memory ⟨before, 0⟩ → ∃ sent : List Entry,
        stopped.broker = .memory ⟨before ++ sent.map (Forwarder.recordOf topic), 0⟩ ∧
          sent.Perm (service.published.map entryOf) := by
  obtain ⟨ready, noBatch⟩ := invariant.store numbered
  have published_eq : (service.step .store).published = service.published := rfl
  unfold stop
  dsimp only
  generalize service.step .store = finished at ready noBatch published_eq ⊢
  obtain ⟨relay, disk, published⟩ := finished
  obtain ⟨isRunning, _, _, ⟨log, store_eq, holds⟩, sends⟩ := ready
  dsimp only at isRunning store_eq holds sends noBatch published_eq ⊢
  rw [← published_eq] at numbered ⊢
  rw [Relay.stop, isRunning]
  have same := Relay.sameWork_stopListeners { relay with isStopping := true }
  generalize Relay.stopListeners { relay with isStopping := true } = quiet at same ⊢
  obtain ⟨_, quietStore_eq, recorder_eq, forwarder_eq, broker_eq, _⟩ := same
  dsimp only at quietStore_eq recorder_eq forwarder_eq broker_eq
  -- Closing a queue does not touch what it holds.
  have closedHolds : relay.recorder.close.Holds Event.maxEncodedSize log disk
      (published.map entryOf) :=
    ⟨holds.exists_stored, holds.suits, holds.batch_le, holds.value_le⟩
  have closedSends : ∀ before, broker = .memory ⟨before, 0⟩ →
      relay.forwarder.close.Sends topic before relay.broker (published.map entryOf) :=
    fun before isMemory =>
      ⟨(sends before isMemory).topic_eq, (sends before isMemory).maxSending_pos,
        (sends before isMemory).exists_sent⟩
  obtain ⟨recorder, after, grown, counted, recorded, accumulates⟩ :=
    closedHolds.run (by rwa [List.length_map]) noBatch quiet.metrics
  simp only [Relay.settle, Relay.runRecorder, Relay.closeQueues, Relay.runForwarder,
    Relay.closeStore, Relay.closeChannel, recorder_eq, quietStore_eq, store_eq, forwarder_eq,
    broker_eq, recorded, Store.close, Bool.false_eq_true, if_false]
  refine ⟨_, _, rfl, ⟨after, grown, rfl, accumulates⟩, fun before isMemory => ?_⟩
  obtain ⟨stopped, recounted, sent, forwarded, permuted⟩ :=
    (closedSends before isMemory).run counted
  refine ⟨sent, ?_, permuted⟩
  rw [forwarded]

end Service
end EventRelay
