import EventRelay.Bytes

/-!
# Brokers

A broker takes records under a topic.  One kind keeps them in memory and can be
told to refuse the next few; another kind never answers.
-/

namespace EventRelay

/-- A record that a broker took. -/
structure Record where
  /-- The topic. -/
  topic : String
  /-- The key. -/
  key : Bytes
  /-- The value. -/
  value : Bytes
deriving DecidableEq, Repr

/-- Why a broker refuses a record. -/
inductive BrokerError where
  /-- The record cannot be sent. -/
  | send (cause : String)
deriving DecidableEq, Repr

/-- The text of the error. -/
def BrokerError.message : BrokerError → String
  | .send cause => "Broker send failed: " ++ cause

/-- A broker that keeps records in memory. -/
structure MemoryBroker where
  /-- The records that it took, in order. -/
  sent : List Record
  /-- How many of the next records it refuses. -/
  refusals : Nat
deriving DecidableEq, Repr

namespace MemoryBroker

/-- A broker without records. -/
def initial : MemoryBroker where
  sent := []
  refusals := 0

/-- Refuse the next records. -/
def failNext (broker : MemoryBroker) (count : Nat) : MemoryBroker :=
  { broker with refusals := count }

/-- Send a record. -/
def send (broker : MemoryBroker) (record : Record) : Except BrokerError Unit × MemoryBroker :=
  match broker.refusals with
  | 0 => (.ok (), { broker with sent := broker.sent ++ [record] })
  | refusals + 1 => (.error (.send "scripted failure"), { broker with refusals := refusals })

end MemoryBroker

/-- A broker. -/
inductive Broker where
  /-- It keeps records in memory. -/
  | memory (broker : MemoryBroker)
  /-- It never answers. -/
  | hanging
deriving DecidableEq, Repr

namespace Broker

/-- Send a record; there is no answer from a broker that hangs. -/
def send? (broker : Broker) (record : Record) : Option (Except BrokerError Unit × Broker) :=
  match broker with
  | .memory broker =>
      let (result, broker) := broker.send record
      some (result, .memory broker)
  | .hanging => none

/-- Refuse the next records. -/
def failNext (broker : Broker) (count : Nat) : Broker :=
  match broker with
  | .memory broker => .memory (broker.failNext count)
  | .hanging => .hanging

/-- The records that a broker took. -/
def sent : Broker → List Record
  | .memory broker => broker.sent
  | .hanging => []

end Broker
end EventRelay
