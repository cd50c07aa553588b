import EventRelay.Relay.Basic
import EventRelay.Replay

/-!
# Publishing on a relay

An event is encoded, offered with retries and, once it is delivered, queued for
the store and for the broker.  A replay takes the events from the store and
does the same with them, except that they are not stored again.
-/

namespace EventRelay
namespace Relay

/-- What changes while a message is offered. -/
structure Offering where
  /-- Where it is offered. -/
  publisher : Publisher
  /-- The channel. -/
  channel : Channel
  /-- The counters. -/
  metrics : Metrics

/-- Offer a message once. -/
def Offering.offer (message : Bytes) (offering : Offering) : Offer × Offering :=
  let (result, publisher, channel) := offering.publisher.offer offering.channel message
  (result, { offering with publisher := publisher, channel := channel })

/-- Count a retry. -/
def Offering.countRetry (offering : Offering) : Offering :=
  { offering with metrics := offering.metrics.recordOfferRetry }

/-- Offer a message with retries. -/
def offerMessage (relay : Relay) (message : Bytes) :
    Except PublishError Retry.Delivery × Relay :=
  let (result, offering) :=
    relay.settings.retryPolicy.offer (Offering.offer message)
      (fun _ _ offering => offering.countRetry)
      ⟨relay.publisher, relay.channel, relay.metrics⟩
  (result, { relay with
    publisher := offering.publisher
    channel := offering.channel
    metrics := offering.metrics })

/-- Queue an entry for the store. -/
def record (relay : Relay) (entry : Entry) : Relay :=
  let (recorder, metrics) := relay.recorder.record relay.metrics entry
  { relay with recorder := recorder, metrics := metrics }

/-- Queue an entry for the broker. -/
def forward (relay : Relay) (entry : Entry) : Relay :=
  let (_, forwarder, metrics) := relay.forwarder.forward relay.metrics entry
  { relay with forwarder := forwarder, metrics := metrics }

/-- The entry that an event is stored and sent as. -/
def entryOf (event : Event) : Entry where
  key := Key.ofEvent event
  value := event.encode

/-- Publish an event, and store it if so said.  The time that the channel takes
to accept it is measured by the caller. -/
def publishEvent (relay : Relay) (latency : UInt64) (isStored : Bool) (event : Event) :
    Except PublishError Unit × Relay :=
  if relay.isStopping then (.error .closed, relay)
  else
    let relay := { relay with metrics := relay.metrics.recordAccepted }
    match relay.offerMessage event.encode with
    | (.error error, relay) =>
        (.error error, { relay with metrics := relay.metrics.recordPublishFailure })
    | (.ok _, relay) =>
        let relay := { relay with metrics := relay.metrics.recordDelivered latency }
        let relay := if isStored then relay.record (entryOf event) else relay
        (.ok (), relay.forward (entryOf event))

/-- Publish an event and store it. -/
def publish (relay : Relay) (latency : UInt64) (event : Event) :
    Except PublishError Unit × Relay :=
  relay.publishEvent latency true event

/-- Publish an event and let the subscribers read it. -/
def publishAndDeliver (relay : Relay) (latency : UInt64) (event : Event) :
    Except PublishError Unit × Relay :=
  let (result, relay) := relay.publish latency event
  (result, relay.deliver)

/-! ## Replays -/

/-- Publish an event of a replay, count it, and let the subscribers read it. -/
def republish (latency : UInt64) : Replay.Publish Relay := fun event scene =>
  match scene.state.publishEvent latency false event with
  | (.error error, relay) => (.error error, { scene with state := relay.deliver })
  | (.ok _, relay) =>
      let relay := { relay with metrics := relay.metrics.recordReplayed }
      (.ok (), { scene with state := relay.deliver })

/-- Publish the stored events from a time on once more.  A broken store has no
events. -/
def replaySince (relay : Relay) (latency cutover : UInt64) (disk : Disk) :
    Except ReplayError Replay.Stats × Relay × Disk :=
  match relay.store with
  | .broken _ => (.ok .initial, relay, disk)
  | .durable log =>
      let (result, scene) := Replay.replaySince (republish latency) cutover ⟨log, disk, relay⟩
      (result, { scene.state with store := .durable scene.log }, scene.disk)

end Relay
end EventRelay
