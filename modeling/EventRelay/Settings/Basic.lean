import EventRelay.Event.Encoding
import EventRelay.Log.Basic
import EventRelay.Retry

/-!
# Settings of a relay

The settings come in sections, one for each part of a relay, and every setting
has a standard value.  From valid settings every part can be built: the channel
holds the largest encoded event, no queue and no limit is zero, and the delays
between retries stay within thirty doublings.
-/

namespace EventRelay

/-- Settings of the log. -/
structure LogSection where
  /-- The directory. -/
  directory : String
  /-- The size at which a segment is left for the next one. -/
  maxSegmentSize : UInt64
  /-- The number of frames after which the buffer is sent on. -/
  flushEvery : UInt64
  /-- Whether every frame is made durable at once. -/
  syncWrites : Bool
  /-- How hard bodies are compressed. -/
  compressionLevel : Int32
  /-- The least size of a body that is compressed. -/
  compressionMinSize : UInt64
deriving DecidableEq, Repr

/-- Settings of the channel and of its subscribers. -/
structure TransportSection where
  /-- How far the slowest subscriber may fall back. -/
  capacity : UInt64
  /-- The length of a term. -/
  termLength : UInt64
  /-- The greatest payload of a fragment. -/
  mtu : UInt64
  /-- The greatest position. -/
  maxPosition : UInt64
  /-- The number of fragments that a subscriber polls at once. -/
  fragmentLimit : UInt64
  /-- How long a subscriber sleeps after an empty poll, in nanoseconds. -/
  idleSleep : UInt64
deriving DecidableEq, Repr

/-- Settings of retries. -/
structure RetrySection where
  /-- The number of retries. -/
  maxRetries : UInt32
  /-- The delay before the first retry, in microseconds. -/
  initialBackoff : UInt64
deriving DecidableEq, Repr

/-- Settings of the workers in the background. -/
structure WorkerSection where
  /-- The capacity of the log's queue. -/
  logQueueCapacity : UInt64
  /-- The greatest number of entries that are stored at once. -/
  logBatchMax : UInt64
  /-- The capacity of the forwarder's queue. -/
  forwardQueueCapacity : UInt64
  /-- The greatest number of records that are sent at once. -/
  forwardMaxInFlight : UInt64
deriving DecidableEq, Repr

/-- Settings of the broker. -/
structure BrokerSection where
  /-- The topic of the records. -/
  topic : String
  /-- The addresses of an outside broker; none if empty. -/
  bootstrapServers : String
  /-- How many acknowledgements to wait for. -/
  acks : String
  /-- How long to gather records, in milliseconds. -/
  linger : UInt64
  /-- The size up to which records are gathered. -/
  batchSize : UInt64
  /-- The name of the compression. -/
  compression : String
deriving DecidableEq, Repr

/-- All settings. -/
structure Settings where
  /-- Settings of the log. -/
  log : LogSection
  /-- Settings of the channel. -/
  transport : TransportSection
  /-- Settings of retries. -/
  retry : RetrySection
  /-- Settings of the workers. -/
  workers : WorkerSection
  /-- Settings of the broker. -/
  broker : BrokerSection
  /-- How long stopping waits for the workers, in milliseconds. -/
  shutdownGrace : UInt64
  /-- The level of messages that are shown. -/
  logLevel : String
deriving DecidableEq, Repr

/-! ## Standard values -/

/-- The standard settings of the log. -/
def LogSection.standard : LogSection where
  directory := "./data/wal"
  maxSegmentSize := 268435456
  flushEvery := 64
  syncWrites := false
  compressionLevel := 3
  compressionMinSize := 512

/-- The standard settings of the channel. -/
def TransportSection.standard : TransportSection where
  capacity := 4194304
  termLength := 1048576
  mtu := 1408
  maxPosition := 0x7FFFFFFFFFFFFFFF
  fragmentLimit := 10
  idleSleep := 1000

/-- The standard settings of retries. -/
def RetrySection.standard : RetrySection where
  maxRetries := 10
  initialBackoff := 1

/-- The standard settings of the workers. -/
def WorkerSection.standard : WorkerSection where
  logQueueCapacity := 65536
  logBatchMax := 256
  forwardQueueCapacity := 65536
  forwardMaxInFlight := 1024

/-- The standard settings of the broker. -/
def BrokerSection.standard : BrokerSection where
  topic := "market-data"
  bootstrapServers := ""
  acks := "1"
  linger := 10
  batchSize := 65536
  compression := "lz4"

/-- The standard settings. -/
def Settings.standard : Settings where
  log := .standard
  transport := .standard
  retry := .standard
  workers := .standard
  broker := .standard
  shutdownGrace := 30000
  logLevel := "info"

namespace Settings

/-! ## Settings of the parts -/

/-- How the log works. -/
def logSettings (settings : Settings) : Log.Settings where
  maxSegmentSize := settings.log.maxSegmentSize.toNat
  flushEvery := settings.log.flushEvery.toNat
  syncWrites := settings.log.syncWrites
  compression :=
    { level := settings.log.compressionLevel.toInt
      minSize := settings.log.compressionMinSize.toNat }

/-- How the channel works. -/
def channelSettings (settings : Settings) : Channel.Settings where
  capacity := settings.transport.capacity.toNat
  termLength := settings.transport.termLength.toNat
  mtu := settings.transport.mtu.toNat
  maxPosition := settings.transport.maxPosition.toNat

/-- How often and after which delays to offer again. -/
def retryPolicy (settings : Settings) : Retry.Policy where
  maxRetries := settings.retry.maxRetries.toNat
  initialBackoff := settings.retry.initialBackoff.toNat * 1000

/-- How long stopping waits for the workers, in nanoseconds. -/
def shutdownGraceNanoseconds (settings : Settings) : Nat :=
  settings.shutdownGrace.toNat * 1000000

/-! ## Validity -/

/-- A rule that settings break. -/
inductive Violation where
  /-- Fragments carry nothing. -/
  | emptyFragments
  /-- The channel does not hold the largest event. -/
  | capacityTooSmall
  /-- Terms have no length. -/
  | emptyTerms
  /-- A subscriber polls nothing. -/
  | emptyPolls
  /-- Segments hold nothing. -/
  | emptySegments
  /-- A queue holds nothing. -/
  | emptyQueues
  /-- No record may be sent. -/
  | nothingInFlight
  /-- No entry may be stored. -/
  | emptyBatches
  /-- The topic has no name. -/
  | emptyTopic
  /-- The delays may become too long. -/
  | tooManyRetries
deriving DecidableEq, Repr

/-- The name of the setting at fault. -/
def Violation.field : Violation → String
  | .emptyFragments => "transport.mtu"
  | .capacityTooSmall => "transport.capacity_bytes"
  | .emptyTerms => "transport.term_length"
  | .emptyPolls => "transport.fragment_limit"
  | .emptySegments => "log.max_segment_bytes"
  | .emptyQueues => "workers"
  | .nothingInFlight => "workers.forward_max_in_flight"
  | .emptyBatches => "workers.log_batch_max"
  | .emptyTopic => "broker.topic"
  | .tooManyRetries => "retry.max_retries"

/-- The text of the rule. -/
def Violation.reason : Violation → String
  | .capacityTooSmall => "must hold the largest encoded event with its fragment headers"
  | .emptyQueues => "queue capacities must be greater than zero"
  | .emptyTopic => "must not be empty"
  | .tooManyRetries => "backoff would overflow past 30 doublings"
  | _ => "must be greater than zero"

/-- The text of the violation. -/
def Violation.message (violation : Violation) : String :=
  "Invalid value for " ++ violation.field ++ ": " ++ violation.reason

/-- The first rule that the settings break. -/
def violation? (settings : Settings) : Option Violation :=
  let transport := settings.transport
  let workers := settings.workers
  if transport.mtu = 0 then some .emptyFragments
  else if transport.capacity.toNat < framedSize Event.maxEncodedSize transport.mtu.toNat then
    some .capacityTooSmall
  else if transport.termLength = 0 then some .emptyTerms
  else if transport.fragmentLimit = 0 then some .emptyPolls
  else if settings.log.maxSegmentSize = 0 then some .emptySegments
  else if workers.logQueueCapacity = 0 ∨ workers.forwardQueueCapacity = 0 then
    some .emptyQueues
  else if workers.forwardMaxInFlight = 0 then some .nothingInFlight
  else if workers.logBatchMax = 0 then some .emptyBatches
  else if settings.broker.topic.isEmpty then some .emptyTopic
  else if 30 < settings.retry.maxRetries then some .tooManyRetries
  else none

end Settings
end EventRelay
