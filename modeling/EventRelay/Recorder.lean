import EventRelay.Log.Store
import EventRelay.Metrics.Basic

/-!
# Recording in the background

Entries wait in a bounded queue for a worker, which stores them in batches of
at most a given number, each at once.  An entry that finds the queue full or
closed is dropped.
-/

namespace EventRelay

/-- The queue of entries and its worker. -/
structure Recorder where
  /-- The greatest number of entries in the queue. -/
  capacity : Nat
  /-- The greatest number of entries in a batch. -/
  batchMax : Nat
  /-- The entries in the queue. -/
  queue : List Entry
  /-- The entries that the worker took off the queue and is storing. -/
  batch : List Entry
  /-- Whether the queue takes no more entries. -/
  isClosed : Bool
deriving DecidableEq, Repr

namespace Recorder

/-- A recorder without entries.  A batch has room for at least one entry, and the queue
can be made only if it has at most `2 ^ 61 - 1` places. -/
def initial (capacity batchMax : Nat) : Recorder where
  capacity := capacity
  batchMax := max batchMax 1
  queue := []
  batch := []
  isClosed := false

/-- Put an entry into the queue, unless it is full or closed. -/
def offer (recorder : Recorder) (entry : Entry) : Bool × Recorder :=
  if recorder.isClosed ∨ recorder.capacity ≤ recorder.queue.length then (false, recorder)
  else (true, { recorder with queue := recorder.queue ++ [entry] })

/-- Put an entry into the queue, or count that it is dropped. -/
def record (recorder : Recorder) (metrics : Metrics) (entry : Entry) : Recorder × Metrics :=
  let (isTaken, recorder) := recorder.offer entry
  (recorder, if isTaken then metrics else metrics.recordLogDropped)

/-- The number of entries that are queued or being stored. -/
def pending (recorder : Recorder) : Nat :=
  recorder.queue.length + recorder.batch.length

/-- Close the queue. -/
def close (recorder : Recorder) : Recorder :=
  { recorder with isClosed := true }

/-! ## Steps of the worker -/

/-- Take a batch off the queue, unless one is being stored. -/
def takeBatch? (recorder : Recorder) : Option Recorder :=
  if recorder.batch.isEmpty ∧ ¬recorder.queue.isEmpty then
    some { recorder with
      batch := recorder.queue.take recorder.batchMax
      queue := recorder.queue.drop recorder.batchMax }
  else none

/-- Count how the storing of a batch ended. -/
def count (result : Except LogError Unit) (size : Nat) (metrics : Metrics) : Metrics :=
  match result with
  | .ok _ => metrics.recordLogAppends (UInt64.ofNat size)
  | .error _ => metrics.recordLogFailures (UInt64.ofNat size)

/-- Be done with the batch that is being stored. -/
def finish (recorder : Recorder) (result : Except LogError Unit) (metrics : Metrics) :
    Recorder × Metrics :=
  ({ recorder with batch := [] }, count result recorder.batch.length metrics)

/-- Take a batch and store it. -/
def step? (recorder : Recorder) (store : Store) (disk : Disk) (metrics : Metrics) :
    Option (Recorder × Store × Disk × Metrics) :=
  match recorder.takeBatch? with
  | none => none
  | some recorder =>
      let (result, store, disk) := store.append disk recorder.batch
      let (recorder, metrics) := recorder.finish result metrics
      some (recorder, store, disk, metrics)

/-- Take at most a number of steps. -/
def steps : (limit : Nat) → Recorder → Store → Disk → Metrics →
    Recorder × Store × Disk × Metrics
  | 0, recorder, store, disk, metrics => (recorder, store, disk, metrics)
  | limit + 1, recorder, store, disk, metrics =>
      match recorder.step? store disk metrics with
      | none => (recorder, store, disk, metrics)
      | some (recorder, store, disk, metrics) => steps limit recorder store disk metrics

/-- Let the worker store everything that is queued.  Every step takes at least
one entry off the queue. -/
def run (recorder : Recorder) (store : Store) (disk : Disk) (metrics : Metrics) :
    Recorder × Store × Disk × Metrics :=
  steps recorder.queue.length recorder store disk metrics

end Recorder
end EventRelay
