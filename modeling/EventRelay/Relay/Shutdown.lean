import EventRelay.Relay.Basic

/-!
# Background work and the end of a relay

The recorder and the forwarder of a relay work when they are let.  Stopping a
relay refuses further events, lets the subscribers leave, does the work that is
queued, and closes the store and then the channel.  A broker that never answers
does not keep a relay from stopping.
-/

namespace EventRelay
namespace Relay

/-- Let the recorder store what is queued. -/
def runRecorder (relay : Relay) (disk : Disk) : Relay × Disk :=
  let (recorder, store, disk, metrics) :=
    relay.recorder.run relay.store disk relay.metrics
  ({ relay with recorder := recorder, store := store, metrics := metrics }, disk)

/-- Let the forwarder send what is queued, as far as the broker answers. -/
def runForwarder (relay : Relay) : Relay :=
  let (forwarder, broker, metrics) := relay.forwarder.run relay.broker relay.metrics
  { relay with forwarder := forwarder, broker := broker, metrics := metrics }

/-- Let both workers do what is queued. -/
def settle (relay : Relay) (disk : Disk) : Relay × Disk :=
  let (relay, disk) := relay.runRecorder disk
  (relay.runForwarder, disk)

/-- Take no more work. -/
def closeQueues (relay : Relay) : Relay :=
  { relay with recorder := relay.recorder.close, forwarder := relay.forwarder.close }

/-- Close the store. -/
def closeStore (relay : Relay) (disk : Disk) : Except LogError Unit × Relay × Disk :=
  let (result, store, disk) := relay.store.close disk
  (result, { relay with store := store }, disk)

/-- Close the publisher and the channel. -/
def closeChannel (relay : Relay) : Relay :=
  let (publisher, channel) := relay.publisher.close relay.channel
  { relay with publisher := publisher, channel := channel.close }

/-- Stop the relay.  Stopping it again does nothing. -/
def stop (relay : Relay) (disk : Disk) : Except RelayError Unit × Relay × Disk :=
  if relay.isStopping then (.ok (), relay, disk)
  else
    let relay := stopListeners { relay with isStopping := true }
    let (relay, disk) := relay.closeQueues.settle disk
    let (result, relay, disk) := relay.closeStore disk
    let relay := relay.closeChannel
    match result with
    | .error error => (.error (.log error), relay, disk)
    | .ok _ => (.ok (), relay, disk)

/-- Give the relay up without stopping it: queued work is not done. -/
def abandon (relay : Relay) : Relay :=
  if relay.isStopping then relay
  else
    let relay := stopListeners { relay with isStopping := true }
    { relay with channel := relay.channel.close }

end Relay
end EventRelay
