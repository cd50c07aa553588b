import EventRelay.Event.Encoding
import EventRelay.Log.Scan
import EventRelay.Retry

/-!
# Replaying the log

A replay publishes the logged events from a time on once more, in ascending key
order, up to the greatest key that the log holds when the replay starts.
Entries that are no events, and events whose retries are used up, are counted
and passed over.  A fatal error of publishing, or an error of the log, ends the
replay.
-/

namespace EventRelay

/-- Why a replay ends early. -/
inductive ReplayError where
  /-- The log cannot be read. -/
  | log (error : LogError)
  /-- Nothing more can be published. -/
  | publish (error : PublishError)
deriving DecidableEq, Repr

/-- The name of the kind of error. -/
def ReplayError.kind : ReplayError → String
  | .log _ => "Log"
  | .publish _ => "Publish"

/-- The text of the error. -/
def ReplayError.message : ReplayError → String
  | .log error => "Log read failed during replay: " ++ error.message
  | .publish error => "Transport failed during replay: " ++ error.message

namespace Replay

/-- What a replay came upon. -/
structure Stats where
  /-- The number of entries read. -/
  scanned : Nat
  /-- The number of events published. -/
  republished : Nat
  /-- The number of events whose retries were used up. -/
  failed : Nat
  /-- The number of entries that are no events. -/
  decodeErrors : Nat
deriving DecidableEq, Repr

/-- Nothing yet. -/
def Stats.initial : Stats where
  scanned := 0
  republished := 0
  failed := 0
  decodeErrors := 0

variable {σ : Type}

/-- A log with its directory and further state, all of which may change when an
event is published. -/
structure Scene (σ : Type) where
  /-- The log. -/
  log : Log
  /-- The log's directory. -/
  disk : Disk
  /-- The further state. -/
  state : σ

/-- How events are published during a replay. -/
abbrev Publish (σ : Type) := Event → Scene σ → Except PublishError Unit × Scene σ

/-- Publish the event of an entry. -/
def replayEntry (publish : Publish σ) (value : Bytes) (stats : Stats) (scene : Scene σ) :
    Except ReplayError Stats × Scene σ :=
  let stats := { stats with scanned := stats.scanned + 1 }
  match Event.decode value with
  | .error _ => (.ok { stats with decodeErrors := stats.decodeErrors + 1 }, scene)
  | .ok event =>
      match publish event scene with
      | (.ok _, scene) => (.ok { stats with republished := stats.republished + 1 }, scene)
      | (.error error, scene) =>
          if error.isFatal then (.error (.publish error), scene)
          else (.ok { stats with failed := stats.failed + 1 }, scene)

/-- Where a replay is. -/
inductive Progress where
  /-- It is over. -/
  | ended (result : Except ReplayError Stats)
  /-- It goes on with a scan, up to the last key. -/
  | ongoing (last : Key) (scan : Log.Scan) (stats : Stats)

/-- Begin to replay the entries from a time on. -/
def begin (cutover : UInt64) (log : Log) : Progress :=
  match log.lastKey? with
  | none => .ended (.ok .initial)
  | some last => .ongoing last (.between (Key.first cutover) last) .initial

/-- Read the next entry and publish its event, or come to the end. -/
def advance (publish : Publish σ) (progress : Progress) (scene : Scene σ) :
    Progress × Scene σ :=
  match progress with
  | .ended result => (.ended result, scene)
  | .ongoing last scan stats =>
      let (yielded, scan, log, disk) := scan.next scene.log scene.disk
      let scene := { scene with log := log, disk := disk }
      match yielded with
      | none => (.ended (.ok stats), scene)
      | some (.error error) => (.ended (.error (.log error)), scene)
      | some (.ok entry) =>
          if entry.key.compare last = .gt then (.ended (.ok stats), scene)
          else
            match replayEntry publish entry.value stats scene with
            | (.error error, scene) => (.ended (.error error), scene)
            | (.ok stats, scene) => (.ongoing last scan stats, scene)

/-- Go on with a replay up to its end. -/
def complete (publish : Publish σ) :
    (fuel : Nat) → Progress → Scene σ → Except ReplayError Stats × Scene σ
  | _, .ended result, scene => (result, scene)
  | 0, .ongoing _ _ stats, scene => (.ok stats, scene)
  | fuel + 1, .ongoing last scan stats, scene =>
      let (progress, scene) := advance publish (.ongoing last scan stats) scene
      complete publish fuel progress scene

/-- The number of different keys. -/
def keyCount : Nat := 0x100000000000000000000000000000000

/-- Replay the entries from a time on.  The keys that a scan yields ascend, so it
yields no more of them than there are. -/
def replaySince (publish : Publish σ) (cutover : UInt64) (scene : Scene σ) :
    Except ReplayError Stats × Scene σ :=
  complete publish (keyCount + 1) (begin cutover scene.log) scene

end Replay
end EventRelay
