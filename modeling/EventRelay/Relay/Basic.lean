import EventRelay.Publisher
import EventRelay.Recorder
import EventRelay.Replication.Forwarder
import EventRelay.Settings.Document
import EventRelay.Subscriber

/-!
# Relays

A relay publishes events on a channel, stores the delivered ones through a
recorder and sends them on to a broker through a forwarder.  Recorder and
forwarder work in the background: what becomes of an event there is counted and
never undoes its delivery.  An event that the channel refuses reaches neither.
-/

namespace EventRelay

/-- Why a relay cannot be started, joined or stopped. -/
inductive RelayError where
  /-- The settings break a rule. -/
  | settings (violation : Settings.Violation)
  /-- The store fails. -/
  | log (error : LogError)
  /-- The relay is stopped. -/
  | stopped
deriving DecidableEq, Repr

/-- The name of the kind of error. -/
def RelayError.kind : RelayError → String
  | .settings _ => "Config"
  | .log _ => "Log"
  | .stopped => "Stopped"

/-- The text of the error. -/
def RelayError.message : RelayError → String
  | .settings violation => "Configuration error: " ++ violation.message
  | .log error => "Durable log error: " ++ error.message
  | .stopped => "Pipeline already stopped"

/-- A subscriber of a relay. -/
structure Listener where
  /-- The name. -/
  name : String
  /-- The subscriber. -/
  subscriber : Subscriber
  /-- What it does with events. -/
  handler : Handler
  /-- Whether it was told to leave. -/
  isStopped : Bool

namespace Listener

/-- Whether a subscriber has left, because it was told to or broke down. -/
def hasLeft (listener : Listener) : Bool :=
  listener.isStopped || listener.subscriber.isBroken

/-- Let a subscriber read everything that is there, unless it has left.  One
that breaks down leaves. -/
def catchUp (listener : Listener) (limit : Nat) (metrics : Metrics) (channel : Channel) :
    Listener × Metrics × Channel :=
  if listener.hasLeft then (listener, metrics, channel)
  else
    let (subscriber, metrics, channel) :=
      listener.subscriber.catchUp listener.handler limit metrics channel
    ({ listener with subscriber := subscriber }, metrics,
      if subscriber.isBroken then channel.unsubscribe subscriber.subscription else channel)

/-- Tell a subscriber to leave. -/
def stop (listener : Listener) (channel : Channel) : Listener × Channel :=
  ({ listener with isStopped := true },
    channel.unsubscribe listener.subscriber.subscription)

end Listener

/-- A relay. -/
structure Relay where
  /-- The settings. -/
  settings : Settings
  /-- The channel of the subscribers. -/
  channel : Channel
  /-- Where events are offered. -/
  publisher : Publisher
  /-- Where events are stored. -/
  store : Store
  /-- The way to the store. -/
  recorder : Recorder
  /-- The way to the broker. -/
  forwarder : Forwarder
  /-- The broker. -/
  broker : Broker
  /-- The counters. -/
  metrics : Metrics
  /-- The subscribers, in the order in which they joined. -/
  listeners : List Listener
  /-- Whether the relay is stopped or being stopped. -/
  isStopping : Bool

namespace Relay

/-! ## Starting -/

/-- Parts that a relay uses instead of its own ones. -/
structure Parts where
  /-- The store. -/
  store? : Option Store
  /-- The publisher. -/
  publisher? : Option Publisher
  /-- The broker. -/
  broker? : Option Broker

/-- A relay has only parts of its own. -/
def Parts.own : Parts where
  store? := none
  publisher? := none
  broker? := none

/-- The store that is given, or a log in the directory. -/
def openStore (settings : Settings) (store? : Option Store) (disk : Disk) :
    Except LogError (Store × Disk) :=
  match store? with
  | some store => .ok (store, disk)
  | none =>
      match Log.openIn settings.logSettings disk with
      | .error error => .error error
      | .ok (log, disk) => .ok (.durable log, disk)

/-- A relay on a store.  Its own publisher offers on its channel. -/
def onStore (settings : Settings) (parts : Parts) (store : Store) : Relay :=
  let channel := Channel.initial settings.channelSettings
  let (publisher, channel) :=
    match parts.publisher? with
    | some publisher => (publisher, channel)
    | none =>
        let (session, channel) := channel.publication
        (.onChannel session, channel)
  { settings := settings
    channel := channel
    publisher := publisher
    store := store
    recorder := .initial settings.workers.logQueueCapacity.toNat settings.workers.logBatchMax.toNat
    forwarder :=
      .initial settings.broker.topic settings.workers.forwardQueueCapacity.toNat
        settings.workers.forwardMaxInFlight.toNat
    broker := parts.broker?.getD (.memory .initial)
    metrics := .initial
    listeners := []
    isStopping := false }

/-- Start a relay.  Nothing is touched when the settings break a rule.  A relay stands for
settings under which its queues can be made: no rule says so, but each queue has at most
`2 ^ 61 - 1` places, and at most as many records are sent at once. -/
def start (settings : Settings) (parts : Parts) (disk : Disk) :
    Except RelayError (Relay × Disk) :=
  match settings.violation? with
  | some violation => .error (.settings violation)
  | none =>
      match openStore settings parts.store? disk with
      | .error error => .error (.log error)
      | .ok (store, disk) => .ok (onStore settings parts store, disk)

/-! ## Looking at a relay -/

/-- Whether somebody may receive what is published. -/
def isConnected (relay : Relay) : Bool :=
  relay.publisher.isConnected relay.channel

/-- The figures about the store, if it has any. -/
def storeStats? (relay : Relay) (disk : Disk) : Option Log.Stats :=
  relay.store.stats? disk

/-! ## Subscribers -/

/-- The name of a subscriber by its number. -/
def listenerName (number : Nat) : String :=
  "pipeline-sub-" ++ toString number

/-- Let a new subscriber join, which receives what is published from now on. -/
def subscribe (relay : Relay) (handler : Handler) : Except RelayError (Listener × Relay) :=
  if relay.isStopping then .error .stopped
  else
    let (subscription, channel) := relay.channel.subscribe
    let listener : Listener :=
      { name := listenerName relay.listeners.length
        subscriber := .initial subscription Assembler.standardMaxSize
        handler := handler
        isStopped := false }
    .ok (listener, { relay with
      channel := channel
      listeners := relay.listeners ++ [listener] })

/-- Let subscribers read, one after the other. -/
def catchUpAll (limit : Nat) : List Listener → Metrics → Channel →
    List Listener × Metrics × Channel
  | [], metrics, channel => ([], metrics, channel)
  | listener :: rest, metrics, channel =>
      let (listener, metrics, channel) := listener.catchUp limit metrics channel
      let (rest, metrics, channel) := catchUpAll limit rest metrics channel
      (listener :: rest, metrics, channel)

/-- Let all subscribers read everything that is there. -/
def deliver (relay : Relay) : Relay :=
  let (listeners, metrics, channel) :=
    catchUpAll relay.settings.transport.fragmentLimit.toNat relay.listeners relay.metrics
      relay.channel
  { relay with listeners := listeners, metrics := metrics, channel := channel }

/-- Tell one subscriber to leave. -/
def stopListener (relay : Relay) (index : Nat) : Relay :=
  match relay.listeners[index]? with
  | none => relay
  | some listener =>
      let (listener, channel) := listener.stop relay.channel
      { relay with
        listeners := relay.listeners.set index listener
        channel := channel }

/-- Tell all subscribers to leave. -/
def stopListeners (relay : Relay) : Relay :=
  (List.range relay.listeners.length).foldl stopListener relay

end Relay
end EventRelay
