import EventRelay.Frame.Basic
import EventRelay.Metrics.Basic
import EventRelay.Replication.Broker

/-!
# Forwarding to a broker

Records wait in a bounded queue for a worker, which sends them on in order.  A
record that finds the queue full or closed is dropped.  The worker takes one
record off the queue at a time and starts its send as soon as fewer than a given
number of sends are under way.
-/

namespace EventRelay

/-- The queue of records and its worker. -/
structure Forwarder where
  /-- The topic of all records. -/
  topic : String
  /-- The greatest number of records in the queue. -/
  capacity : Nat
  /-- The greatest number of sends under way. -/
  maxSending : Nat
  /-- The records in the queue. -/
  queue : List Entry
  /-- The record that the worker took off the queue and cannot send yet. -/
  waiting : Option Entry
  /-- The records whose sends are under way. -/
  sending : List Entry
  /-- Whether the queue takes no more records. -/
  isClosed : Bool
deriving DecidableEq, Repr

namespace Forwarder

/-- A forwarder without records.  It has room for at least one record in the
queue and one send, and can be made only if either number is at most `2 ^ 61 - 1`. -/
def initial (topic : String) (capacity maxSending : Nat) : Forwarder where
  topic := topic
  capacity := max capacity 1
  maxSending := max maxSending 1
  queue := []
  waiting := none
  sending := []
  isClosed := false

/-- Put a record into the queue, unless it is full or closed. -/
def offer (forwarder : Forwarder) (entry : Entry) : Bool × Forwarder :=
  if forwarder.isClosed ∨ forwarder.capacity ≤ forwarder.queue.length then (false, forwarder)
  else (true, { forwarder with queue := forwarder.queue ++ [entry] })

/-- Put a record into the queue, or count that it is dropped. -/
def forward (forwarder : Forwarder) (metrics : Metrics) (entry : Entry) :
    Bool × Forwarder × Metrics :=
  let (isTaken, forwarder) := forwarder.offer entry
  (isTaken, forwarder, if isTaken then metrics else metrics.recordForwardDropped)

/-- The number of records taken off the queue whose sends are not over. -/
def inFlight (forwarder : Forwarder) : Nat :=
  forwarder.waiting.toList.length + forwarder.sending.length

/-- The number of records that are queued or being sent. -/
def pending (forwarder : Forwarder) : Nat :=
  forwarder.queue.length + forwarder.inFlight

/-- Close the queue. -/
def close (forwarder : Forwarder) : Forwarder :=
  { forwarder with isClosed := true }

/-! ## Steps of the worker -/

/-- Take a record off the queue, if none is waiting. -/
def receive? (forwarder : Forwarder) : Option Forwarder :=
  match forwarder.waiting, forwarder.queue with
  | none, entry :: rest => some { forwarder with waiting := some entry, queue := rest }
  | _, _ => none

/-- Start the send of the record that is waiting, if there is room for it. -/
def start? (forwarder : Forwarder) : Option Forwarder :=
  match forwarder.waiting with
  | none => none
  | some entry =>
      if forwarder.sending.length < forwarder.maxSending then
        some { forwarder with waiting := none, sending := forwarder.sending ++ [entry] }
      else none

/-- End one of the sends under way.  The result also holds its record. -/
def complete? (forwarder : Forwarder) (index : Nat) : Option (Entry × Forwarder) :=
  match forwarder.sending[index]? with
  | none => none
  | some entry => some (entry, { forwarder with sending := forwarder.sending.eraseIdx index })

/-- The record that an entry is sent as. -/
def record (forwarder : Forwarder) (entry : Entry) : Record where
  topic := forwarder.topic
  key := entry.key.bytes
  value := entry.value

/-- Count how a send ended. -/
def count (result : Except BrokerError Unit) (metrics : Metrics) : Metrics :=
  match result with
  | .ok _ => metrics.recordForwarded
  | .error _ => metrics.recordForwardFailure

/-- End the oldest send under way, if the broker answers. -/
def answer? (forwarder : Forwarder) (broker : Broker) (metrics : Metrics) :
    Option (Forwarder × Broker × Metrics) :=
  match forwarder.complete? 0 with
  | none => none
  | some (entry, forwarder) =>
      match broker.send? (forwarder.record entry) with
      | none => none
      | some (result, broker) => some (forwarder, broker, count result metrics)

/-- A step of the worker, if it can take one. -/
def step? (forwarder : Forwarder) (broker : Broker) (metrics : Metrics) :
    Option (Forwarder × Broker × Metrics) :=
  match forwarder.start? with
  | some forwarder => some (forwarder, broker, metrics)
  | none =>
      match forwarder.receive? with
      | some forwarder => some (forwarder, broker, metrics)
      | none => forwarder.answer? broker metrics

/-- The greatest number of steps that the worker can take. -/
def work (forwarder : Forwarder) : Nat :=
  3 * forwarder.queue.length + 2 * forwarder.waiting.toList.length + forwarder.sending.length

/-- Take at most a number of steps. -/
def steps : (limit : Nat) → Forwarder → Broker → Metrics → Forwarder × Broker × Metrics
  | 0, forwarder, broker, metrics => (forwarder, broker, metrics)
  | limit + 1, forwarder, broker, metrics =>
      match forwarder.step? broker metrics with
      | none => (forwarder, broker, metrics)
      | some (forwarder, broker, metrics) => steps limit forwarder broker metrics

/-- Let the worker go on as far as it can. -/
def run (forwarder : Forwarder) (broker : Broker) (metrics : Metrics) :
    Forwarder × Broker × Metrics :=
  steps forwarder.work forwarder broker metrics

/-- Close the queue and let the worker do what is left. -/
def shutDown (forwarder : Forwarder) (broker : Broker) (metrics : Metrics) :
    Forwarder × Broker × Metrics :=
  forwarder.close.run broker metrics

end Forwarder
end EventRelay
