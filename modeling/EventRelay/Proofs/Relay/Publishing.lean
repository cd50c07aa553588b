import EventRelay.Proofs.Replay.Completion
import EventRelay.Relay.Publishing
import EventRelay.Relay.Shutdown

/-!
# What publishing does

A refused event leaves the work of a relay as it is.  An accepted one is offered
to the recorder, unless it is of a replay, and to the forwarder.  Subscribers that
join, read or leave have no part in this work.
-/

namespace EventRelay
namespace Relay

/-- Relays that differ at most in their publishers, channels, subscribers and
counters. -/
structure SameWork (relay after : Relay) : Prop where
  settings_eq : after.settings = relay.settings
  store_eq : after.store = relay.store
  recorder_eq : after.recorder = relay.recorder
  forwarder_eq : after.forwarder = relay.forwarder
  broker_eq : after.broker = relay.broker
  isStopping_eq : after.isStopping = relay.isStopping

@[refl] theorem SameWork.refl (relay : Relay) : SameWork relay relay :=
  ⟨rfl, rfl, rfl, rfl, rfl, rfl⟩

theorem SameWork.trans
    {relay between after : Relay}
    (lower : SameWork relay between)
    (upper : SameWork between after) :
    SameWork relay after where
  settings_eq := upper.settings_eq.trans lower.settings_eq
  store_eq := upper.store_eq.trans lower.store_eq
  recorder_eq := upper.recorder_eq.trans lower.recorder_eq
  forwarder_eq := upper.forwarder_eq.trans lower.forwarder_eq
  broker_eq := upper.broker_eq.trans lower.broker_eq
  isStopping_eq := upper.isStopping_eq.trans lower.isStopping_eq

/-! ## Subscribers -/

theorem sameWork_subscribe
    {relay after : Relay}
    {handler : Handler}
    {listener : Listener}
    (joined : relay.subscribe handler = .ok (listener, after)) :
    SameWork relay after := by
  unfold subscribe at joined
  split at joined
  · cases joined
  · cases joined
    exact ⟨rfl, rfl, rfl, rfl, rfl, rfl⟩

theorem sameWork_deliver (relay : Relay) : SameWork relay relay.deliver :=
  ⟨rfl, rfl, rfl, rfl, rfl, rfl⟩

theorem sameWork_stopListener (relay : Relay) (index : Nat) :
    SameWork relay (relay.stopListener index) := by
  unfold stopListener
  split
  · rfl
  · exact ⟨rfl, rfl, rfl, rfl, rfl, rfl⟩

theorem sameWork_stopListeners (relay : Relay) : SameWork relay relay.stopListeners := by
  unfold stopListeners
  generalize List.range relay.listeners.length = indices
  induction indices generalizing relay with
  | nil => rfl
  | cons index rest inductionHypothesis =>
      rw [List.foldl_cons]
      exact (sameWork_stopListener relay index).trans (inductionHypothesis _)

/-! ## Events -/

/-- Publishing an event is refused, or hands the event on. -/
theorem publishEvent_cases (relay : Relay) (latency : UInt64) (isStored : Bool) (event : Event) :
    (∃ error after, relay.publishEvent latency isStored event = (.error error, after) ∧
      SameWork relay after) ∨
    ∃ after, relay.publishEvent latency isStored event = (.ok (), after) ∧
      SameWork { relay with
        recorder := if isStored then (relay.recorder.offer (entryOf event)).2 else relay.recorder
        forwarder := (relay.forwarder.offer (entryOf event)).2 } after := by
  unfold publishEvent
  split
  · exact Or.inl ⟨.closed, relay, rfl, by rfl⟩
  · unfold offerMessage
    dsimp only
    generalize relay.settings.retryPolicy.offer (Offering.offer event.encode) _
      (⟨relay.publisher, relay.channel, relay.metrics.recordAccepted⟩ : Offering) = offered
    obtain ⟨result, offering⟩ := offered
    cases result with
    | error error => exact Or.inl ⟨error, _, rfl, rfl, rfl, rfl, rfl, rfl, rfl⟩
    | ok delivery =>
        refine Or.inr ⟨_, rfl, ?_⟩
        cases isStored <;> exact ⟨rfl, rfl, rfl, rfl, rfl, rfl⟩

/-! ## Replays -/

/-- From a good relay on, events of a replay are accepted. -/
def Accepts (latency : UInt64) (isGood : Relay → Prop) : Prop :=
  ∀ relay event, isGood relay →
    ∃ after, relay.publishEvent latency false event = (.ok (), after) ∧
      isGood (deliver { after with metrics := after.metrics.recordReplayed })

theorem Accepts.succeeds
    {latency : UInt64}
    {isGood : Relay → Prop}
    (accepts : Accepts latency isGood) :
    Replay.Succeeds (republish latency) isGood := by
  intro event log disk relay good
  obtain ⟨after, published, nowGood⟩ := accepts relay event good
  refine ⟨_, nowGood, ?_⟩
  unfold republish
  rw [published]

/-- The events of a replay, in the order in which they are published. -/
def replayedEvents (relay : Relay) (latency cutover : UInt64) (disk : Disk) : List Event :=
  match relay.store with
  | .broken _ => []
  | .durable log =>
      let (_, scene) := Replay.replaySince (Replay.recording (republish latency)) cutover
        ⟨log, disk, (relay, [])⟩
      scene.state.2

/-- All offers to a publisher of a script are accepted. -/
def IsWilling (script : Script) : Prop :=
  (∀ answer ∈ script.answers, ∃ position, answer = .accepted position) ∧
    ∃ position, script.fallback = .accepted position

theorem IsWilling.offer
    {script : Script}
    (willing : IsWilling script)
    (message : Bytes) :
    ∃ position later, script.offer message = (.accepted position, later) ∧ IsWilling later := by
  obtain ⟨answered, position, fallback_eq⟩ := willing
  unfold Script.offer
  cases answers : script.answers with
  | nil => exact ⟨position, _, Prod.ext fallback_eq rfl, by simp, position, fallback_eq⟩
  | cons answer rest =>
      rw [answers] at answered
      obtain ⟨⟨first, rfl⟩, others⟩ := List.forall_mem_cons.mp answered
      exact ⟨first, _, rfl, others, position, fallback_eq⟩

/-- A relay on a script that accepts everything accepts the events of replays. -/
theorem accepts_of_isWilling (latency : UInt64) :
    Accepts latency fun relay => relay.isStopping = false ∧
      ∃ script, relay.publisher = .scripted script ∧ IsWilling script := by
  rintro relay event ⟨isRunning, script, publisher_eq, willing⟩
  obtain ⟨position, later, offered, stillWilling⟩ := willing.offer event.encode
  unfold publishEvent offerMessage Retry.Policy.offer Retry.offerFrom Offering.offer
    Publisher.offer
  simp only [isRunning, publisher_eq, offered]
  exact ⟨_, rfl, rfl, later, rfl, stillWilling⟩

/-- A relay that starts with a publisher that accepts everything is running, and
offers to this publisher. -/
theorem willing_of_start
    {settings : Settings}
    {parts : Parts}
    {disk opened : Disk}
    {relay : Relay}
    (started : start settings parts disk = .ok (relay, opened))
    {script : Script}
    (publisher_eq : parts.publisher? = some (.scripted script))
    (willing : IsWilling script) :
    relay.isStopping = false ∧
      ∃ script, relay.publisher = .scripted script ∧ IsWilling script := by
  unfold start at started
  split at started
  · cases started
  · split at started
    · cases started
    · cases started
      refine ⟨rfl, script, ?_, willing⟩
      unfold onStore
      rw [publisher_eq]

end Relay
end EventRelay
