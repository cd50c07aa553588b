import EventRelay.Metrics.Latency

/-!
# Metrics

Counters of everything that happens to events, with a snapshot of them and
alerts when they pass thresholds.  Counters are 64-bit words, which wrap around when
they are counted up; a sum of two counters does not.
-/

namespace EventRelay

/-- The counters of a relay. -/
structure Metrics where
  /-- Events that were encoded to be offered. -/
  accepted : UInt64
  /-- Events that the channel accepted. -/
  delivered : UInt64
  /-- Events that were not published. -/
  publishFailures : UInt64
  /-- Retries of offers. -/
  offerRetries : UInt64
  /-- The sum of all latencies, in nanoseconds. -/
  totalLatency : UInt64
  /-- The greatest latency, in nanoseconds. -/
  maxLatency : UInt64
  /-- The latest latencies. -/
  latencies : LatencyWindow
  /-- Events that were stored. -/
  logAppends : UInt64
  /-- Events that the store refused. -/
  logFailures : UInt64
  /-- Events that found no place in the queue of the store. -/
  logDropped : UInt64
  /-- Records that the broker took. -/
  forwarded : UInt64
  /-- Records that the broker refused. -/
  forwardFailures : UInt64
  /-- Records that found no place in the queue of the broker. -/
  forwardDropped : UInt64
  /-- Events that reached a handler. -/
  received : UInt64
  /-- Events whose handler failed. -/
  handlerErrors : UInt64
  /-- Messages that are no events. -/
  decodeErrors : UInt64
  /-- Events published once more from the store. -/
  replayed : UInt64
deriving DecidableEq, Repr

namespace Metrics

/-- All counters at zero. -/
def initial : Metrics where
  accepted := 0
  delivered := 0
  publishFailures := 0
  offerRetries := 0
  totalLatency := 0
  maxLatency := 0
  latencies := .initial LatencyWindow.standardSize
  logAppends := 0
  logFailures := 0
  logDropped := 0
  forwarded := 0
  forwardFailures := 0
  forwardDropped := 0
  received := 0
  handlerErrors := 0
  decodeErrors := 0
  replayed := 0

/-- Count an event that is about to be offered. -/
def recordAccepted (metrics : Metrics) : Metrics :=
  { metrics with accepted := metrics.accepted + 1 }

/-- Count an event that the channel accepted, with its latency. -/
def recordDelivered (metrics : Metrics) (latency : UInt64) : Metrics :=
  { metrics with
    delivered := metrics.delivered + 1
    totalLatency := metrics.totalLatency + latency
    maxLatency := max metrics.maxLatency latency
    latencies := metrics.latencies.record latency }

/-- Count an event that was not published. -/
def recordPublishFailure (metrics : Metrics) : Metrics :=
  { metrics with publishFailures := metrics.publishFailures + 1 }

/-- Count a retry. -/
def recordOfferRetry (metrics : Metrics) : Metrics :=
  { metrics with offerRetries := metrics.offerRetries + 1 }

/-- Count stored events. -/
def recordLogAppends (metrics : Metrics) (count : UInt64) : Metrics :=
  { metrics with logAppends := metrics.logAppends + count }

/-- Count events that the store refused. -/
def recordLogFailures (metrics : Metrics) (count : UInt64) : Metrics :=
  { metrics with logFailures := metrics.logFailures + count }

/-- Count an event without a place in the queue of the store. -/
def recordLogDropped (metrics : Metrics) : Metrics :=
  { metrics with logDropped := metrics.logDropped + 1 }

/-- Count a record that the broker took. -/
def recordForwarded (metrics : Metrics) : Metrics :=
  { metrics with forwarded := metrics.forwarded + 1 }

/-- Count a record that the broker refused. -/
def recordForwardFailure (metrics : Metrics) : Metrics :=
  { metrics with forwardFailures := metrics.forwardFailures + 1 }

/-- Count a record without a place in the queue of the broker. -/
def recordForwardDropped (metrics : Metrics) : Metrics :=
  { metrics with forwardDropped := metrics.forwardDropped + 1 }

/-- Count an event that reached a handler. -/
def recordReceived (metrics : Metrics) : Metrics :=
  { metrics with received := metrics.received + 1 }

/-- Count a failure of a handler. -/
def recordHandlerError (metrics : Metrics) : Metrics :=
  { metrics with handlerErrors := metrics.handlerErrors + 1 }

/-- Count a message that is no event. -/
def recordDecodeError (metrics : Metrics) : Metrics :=
  { metrics with decodeErrors := metrics.decodeErrors + 1 }

/-- Count an event published once more. -/
def recordReplayed (metrics : Metrics) : Metrics :=
  { metrics with replayed := metrics.replayed + 1 }

/-- All counters but those of latencies, by name. -/
def counters (metrics : Metrics) : List (String × UInt64) := [
  ("events_accepted", metrics.accepted),
  ("events_delivered", metrics.delivered),
  ("publish_failures", metrics.publishFailures),
  ("offer_retries", metrics.offerRetries),
  ("log_appends", metrics.logAppends),
  ("log_failures", metrics.logFailures),
  ("log_dropped", metrics.logDropped),
  ("forwarded", metrics.forwarded),
  ("forward_failures", metrics.forwardFailures),
  ("forward_dropped", metrics.forwardDropped),
  ("events_received", metrics.received),
  ("handler_errors", metrics.handlerErrors),
  ("decode_errors", metrics.decodeErrors),
  ("events_replayed", metrics.replayed)]

/-- The average latency in microseconds; zero when nothing was delivered. -/
def averageMicroseconds (metrics : Metrics) : Binary64 :=
  if metrics.delivered = 0 then .ofNat 0
  else
    ((Binary64.ofNat metrics.totalLatency.toNat).divide
      (.ofNat metrics.delivered.toNat)).divide (.ofNat 1000)

/-- The latency that 99 percent of the latest events do not pass, in
nanoseconds. -/
def p99 (metrics : Metrics) : Option UInt64 :=
  metrics.latencies.percentile 99

/-! ## Alerts -/

/-- How serious an alert is. -/
inductive AlertLevel where
  /-- Something is to be looked at. -/
  | warning
  /-- Something is lost. -/
  | critical
deriving DecidableEq, Repr

/-- The name of the level. -/
def AlertLevel.label : AlertLevel → String
  | .warning => "Warning"
  | .critical => "Critical"

/-- A counter that passed its threshold. -/
structure Alert where
  /-- How serious it is. -/
  level : AlertLevel
  /-- The name of the counter. -/
  metric : String
  /-- The text of the alert. -/
  message : String
deriving DecidableEq, Repr

/-- The greatest values that give no alert. -/
structure Thresholds where
  /-- Of events that were not published. -/
  publishFailures : UInt64
  /-- Of events that were not stored. -/
  logLosses : UInt64
  /-- Of records that did not reach the broker. -/
  forwardLosses : UInt64
  /-- Of the latency that 99 percent of the events do not pass. -/
  p99 : UInt64
deriving DecidableEq, Repr

/-- The standard thresholds: no loss, a hundred records not replicated, and a
millisecond. -/
def Thresholds.standard : Thresholds where
  publishFailures := 0
  logLosses := 0
  forwardLosses := 100
  p99 := 1000000

/-- An alert if a value is above its threshold. -/
def alertIf
    (level : AlertLevel)
    (metric subject unit : String)
    (value threshold : UInt64) :
    List Alert :=
  if threshold < value then
    [{ level := level
       metric := metric
       message := subject ++ ": " ++ toString value.toNat ++ unit ++ " > threshold " ++
         toString threshold.toNat ++ unit }]
  else []

/-- The alerts of the counters.  Losses of both kinds are added up. -/
def check (metrics : Metrics) (thresholds : Thresholds) : Except Word.Overflow (List Alert) := do
  let logLosses ← Word.add metrics.logFailures metrics.logDropped
  let forwardLosses ← Word.add metrics.forwardFailures metrics.forwardDropped
  return alertIf .critical "publish_failures" "Publish failures" ""
      metrics.publishFailures thresholds.publishFailures ++
    alertIf .critical "log_losses" "Events not persisted" ""
      logLosses thresholds.logLosses ++
    alertIf .warning "forward_losses" "Events not replicated" ""
      forwardLosses thresholds.forwardLosses ++
    (metrics.p99.toList.flatMap fun latency =>
      alertIf .warning "accept_latency_p99" "Accept latency p99" "ns" latency thresholds.p99)

end Metrics
end EventRelay
