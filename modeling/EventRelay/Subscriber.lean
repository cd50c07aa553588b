import EventRelay.Channel.Assembler
import EventRelay.Channel.Basic
import EventRelay.Event.Encoding
import EventRelay.Metrics.Basic

/-!
# Subscribers

A subscriber polls its subscription, puts messages together, and hands every
event to a handler.  Messages that are no events, and failures of the handler,
are counted and passed over.  A subscriber leaves when it is told to, when the
channel is closed and read to its end, or when its handler breaks down.
-/

namespace EventRelay

/-- How a handler takes an event. -/
inductive Reaction where
  /-- It is done with the event. -/
  | done
  /-- It fails. -/
  | failed
  /-- It breaks down, and its subscriber with it. -/
  | brokeDown
deriving DecidableEq, Repr

/-- What is done with events. -/
abbrev Handler := Event → Reaction

/-- A subscriber. -/
structure Subscriber where
  /-- The number of its subscription. -/
  subscription : Nat
  /-- The messages being put together. -/
  assembler : Assembler
  /-- The events that reached the handler, in order. -/
  events : List Event
  /-- Whether the handler broke down. -/
  isBroken : Bool
deriving DecidableEq, Repr

namespace Subscriber

/-- The standard name of a subscriber. -/
def standardName : String := "pipeline-subscriber"

/-- The standard number of fragments that are polled at once. -/
def standardFragmentLimit : Nat := 10

/-- A subscriber that has read nothing. -/
def initial (subscription maxMessageSize : Nat) : Subscriber where
  subscription := subscription
  assembler := .initial maxMessageSize
  events := []
  isBroken := false

/-- Hand an event to the handler. -/
def handle (handler : Handler) (subscriber : Subscriber) (metrics : Metrics) (event : Event) :
    Subscriber × Metrics :=
  let metrics := metrics.recordReceived
  let subscriber := { subscriber with events := subscriber.events ++ [event] }
  match handler event with
  | .done => (subscriber, metrics)
  | .failed => (subscriber, metrics.recordHandlerError)
  | .brokeDown => ({ subscriber with isBroken := true }, metrics)

/-- Take a message. -/
def takeMessage (handler : Handler) (subscriber : Subscriber) (metrics : Metrics)
    (message : Bytes) : Subscriber × Metrics :=
  match Event.decode message with
  | .ok event => handle handler subscriber metrics event
  | .error _ => (subscriber, metrics.recordDecodeError)

/-- Take a fragment. -/
def takeFragment (handler : Handler) (subscriber : Subscriber) (metrics : Metrics)
    (fragment : Fragment) : Subscriber × Metrics :=
  let (message, assembler) := subscriber.assembler.feed fragment
  let subscriber := { subscriber with assembler := assembler }
  match message with
  | none => (subscriber, metrics)
  | some message => takeMessage handler subscriber metrics message

/-- Take fragments in order, unless the handler breaks down. -/
def takeFragments (handler : Handler) :
    List Fragment → Subscriber → Metrics → Subscriber × Metrics
  | [], subscriber, metrics => (subscriber, metrics)
  | fragment :: rest, subscriber, metrics =>
      let (subscriber, metrics) := takeFragment handler subscriber metrics fragment
      if subscriber.isBroken then (subscriber, metrics)
      else takeFragments handler rest subscriber metrics

/-- Poll once.  The result tells first whether there was anything to read. -/
def poll (handler : Handler) (limit : Nat)
    (subscriber : Subscriber) (metrics : Metrics) (channel : Channel) :
    Bool × Subscriber × Metrics × Channel :=
  let (fragments, channel) := channel.poll subscriber.subscription limit
  let (subscriber, metrics) := takeFragments handler fragments subscriber metrics
  (!fragments.isEmpty, subscriber, metrics, channel)

/-- Poll at most a number of times, up to a poll that reads nothing. -/
def polls (handler : Handler) (limit : Nat) : (times : Nat) →
    Subscriber → Metrics → Channel → Subscriber × Metrics × Channel
  | 0, subscriber, metrics, channel => (subscriber, metrics, channel)
  | times + 1, subscriber, metrics, channel =>
      let (isActive, subscriber, metrics, channel) := poll handler limit subscriber metrics channel
      if isActive && !subscriber.isBroken then
        polls handler limit times subscriber metrics channel
      else (subscriber, metrics, channel)

/-- The number of fragments that a subscriber has not read. -/
def unread (subscriber : Subscriber) (channel : Channel) : Nat :=
  match channel.cursor? subscriber.subscription with
  | none => 0
  | some cursor => (channel.pendingOf cursor).length

/-- Read everything that is there.  Every poll but the last reads a fragment. -/
def catchUp (handler : Handler) (limit : Nat)
    (subscriber : Subscriber) (metrics : Metrics) (channel : Channel) :
    Subscriber × Metrics × Channel :=
  polls handler limit (subscriber.unread channel + 1) subscriber metrics channel

/-- Let a subscriber run on a channel until it leaves, and end its
subscription. -/
def runToEnd (handler : Handler) (limit : Nat) (isCancelled : Bool)
    (subscriber : Subscriber) (metrics : Metrics) (channel : Channel) :
    Subscriber × Metrics × Channel :=
  let (subscriber, metrics, channel) :=
    if isCancelled then (subscriber, metrics, channel)
    else catchUp handler limit subscriber metrics channel
  (subscriber, metrics, channel.unsubscribe subscriber.subscription)

end Subscriber
end EventRelay
