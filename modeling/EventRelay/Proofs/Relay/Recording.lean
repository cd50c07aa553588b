import EventRelay.Proofs.Log.Accumulation
import EventRelay.Recorder

/-!
# What a recorder stores

The entries that a recorder has taken are those that its log holds, those of the
batch under way and those in its queue, in this order.  The worker may take them
off the queue one by one and store a batch of any size; when it stops it has
stored all of them.
-/

namespace EventRelay
namespace Recorder

open Log (Accumulates)

/-! ## The worker -/

/-- Take one entry off the queue into the batch, if there is one and the batch has
room for it. -/
def receive? (recorder : Recorder) : Option Recorder :=
  match recorder.queue with
  | [] => none
  | entry :: rest =>
      if recorder.batch.length < recorder.batchMax then
        some { recorder with batch := recorder.batch ++ [entry], queue := rest }
      else none

/-- Take at most a number of entries off the queue. -/
def receiveAll : (limit : Nat) → Recorder → Recorder
  | 0, recorder => recorder
  | limit + 1, recorder =>
      match recorder.receive? with
      | none => recorder
      | some recorder => receiveAll limit recorder

/-- Store the batch under way. -/
def storeBatch (recorder : Recorder) (store : Store) (disk : Disk) (metrics : Metrics) :
    Recorder × Store × Disk × Metrics :=
  let (result, store, disk) := store.append disk recorder.batch
  let (recorder, metrics) := recorder.finish result metrics
  (recorder, store, disk, metrics)

theorem step?_eq (recorder : Recorder) (store : Store) (disk : Disk) (metrics : Metrics) :
    recorder.step? store disk metrics =
      recorder.takeBatch?.map fun taken => taken.storeBatch store disk metrics := by
  unfold step?
  cases recorder.takeBatch? <;> rfl

theorem receiveAll_eq
    {recorder : Recorder}
    {limit : Nat}
    (room : recorder.batch.length + limit ≤ recorder.batchMax) :
    recorder.receiveAll limit =
      { recorder with
        batch := recorder.batch ++ recorder.queue.take limit
        queue := recorder.queue.drop limit } := by
  induction limit generalizing recorder with
  | zero => simp [receiveAll]
  | succ limit inductionHypothesis =>
      unfold receiveAll receive?
      cases waiting : recorder.queue with
      | nil =>
          obtain ⟨capacity, batchMax, queue, batch, isClosed⟩ := recorder
          cases waiting
          simp
      | cons entry rest =>
          dsimp only
          rw [if_pos (by omega)]
          dsimp only
          have next : (recorder.batch ++ [entry]).length + limit ≤ recorder.batchMax := by
            rw [List.length_append, List.length_singleton]
            omega
          rw [inductionHypothesis next]
          simp

/-- A batch is taken by receiving entries one by one. -/
theorem takeBatch?_eq_some
    {recorder taken : Recorder}
    (isTaken : recorder.takeBatch? = some taken) :
    recorder.batch = [] ∧ recorder.queue ≠ [] ∧
      taken = recorder.receiveAll recorder.batchMax := by
  unfold takeBatch? at isTaken
  split at isTaken
  · rename_i ready
    cases isTaken
    have noBatch : recorder.batch = [] := List.isEmpty_iff.mp ready.1
    refine ⟨noBatch, by simpa using ready.2, ?_⟩
    rw [receiveAll_eq (by simp [noBatch]), noBatch]
    rfl
  · cases isTaken

theorem takeBatch?_eq_none
    {recorder : Recorder}
    (noBatch : recorder.batch = [])
    (isNone : recorder.takeBatch? = none) :
    recorder.queue = [] := by
  unfold takeBatch? at isNone
  split at isNone
  · cases isNone
  · rename_i notReady
    simpa [noBatch] using notReady

theorem isClosed_offer (recorder : Recorder) (entry : Entry) :
    (recorder.offer entry).2.isClosed = recorder.isClosed := by
  unfold offer
  split <;> rfl

theorem receive?_eq_some
    {recorder after : Recorder}
    (received : recorder.receive? = some after) :
    ∃ entry rest, recorder.queue = entry :: rest ∧
      recorder.batch.length < recorder.batchMax ∧
      after = { recorder with batch := recorder.batch ++ [entry], queue := rest } := by
  unfold receive? at received
  split at received
  · cases received
  · rename_i entry rest queued
    split at received
    · rename_i room
      exact ⟨entry, rest, queued, room, (Option.some_inj.mp received).symm⟩
    · cases received

theorem isClosed_receive
    {recorder after : Recorder}
    (received : recorder.receive? = some after) :
    after.isClosed = recorder.isClosed := by
  obtain ⟨_, _, _, _, rfl⟩ := receive?_eq_some received
  rfl

/-! ## What is held -/

/-- Every batch is small enough for a log if its values have at most the given
size. -/
structure Suits (limit batchMax : Nat) : Prop where
  batchMax_pos : 0 < batchMax
  limit_le : limit ≤ Log.maxValueSize
  bodySize_le : 4 + batchMax * (Key.size + 4 + limit) ≤ Frame.maxBodySize

/-- The entries that a recorder has taken are those in its log, in its batch and in
its queue. -/
structure Holds
    (limit : Nat) (recorder : Recorder) (log : Log) (disk : Disk) (taken : List Entry) :
    Prop where
  exists_stored : ∃ stored, Accumulates log disk stored ∧
    taken = stored ++ (recorder.batch ++ recorder.queue)
  suits : Suits limit recorder.batchMax
  batch_le : recorder.batch.length ≤ recorder.batchMax
  value_le : ∀ entry ∈ taken, entry.value.length ≤ limit

variable {limit : Nat} {recorder : Recorder} {log : Log} {disk : Disk} {taken : List Entry}

theorem Holds.offer
    (holds : recorder.Holds limit log disk taken)
    (isOpen : recorder.isClosed = false)
    (room : recorder.queue.length < recorder.capacity)
    {entry : Entry}
    (small : entry.value.length ≤ limit) :
    (recorder.offer entry).2.Holds limit log disk (taken ++ [entry]) := by
  obtain ⟨⟨stored, accumulates, taken_eq⟩, suits, batch_le, value_le⟩ := holds
  unfold Recorder.offer
  rw [if_neg (by simp [isOpen, room])]
  refine ⟨⟨stored, accumulates, ?_⟩, suits, batch_le, ?_⟩
  · rw [taken_eq, List.append_assoc, List.append_assoc]
  · intro other present
    rcases List.mem_append.mp present with old | new
    · exact value_le other old
    · rwa [List.mem_singleton.mp new]

theorem Holds.receive
    (holds : recorder.Holds limit log disk taken)
    {after : Recorder}
    (received : recorder.receive? = some after) :
    after.Holds limit log disk taken := by
  obtain ⟨⟨stored, accumulates, taken_eq⟩, suits, batch_le, value_le⟩ := holds
  obtain ⟨entry, rest, queued, room, rfl⟩ := receive?_eq_some received
  refine ⟨⟨stored, accumulates, ?_⟩, suits, ?_, value_le⟩
  · rw [taken_eq, queued, List.append_cons, List.append_assoc]
  · rwa [List.length_append, List.length_singleton]

theorem Holds.receiveAll
    (holds : recorder.Holds limit log disk taken)
    (count : Nat) :
    (recorder.receiveAll count).Holds limit log disk taken := by
  induction count generalizing recorder with
  | zero => exact holds
  | succ count inductionHypothesis =>
      unfold Recorder.receiveAll
      split
      · exact holds
      · rename_i after received
        exact inductionHypothesis (holds.receive received)

/-- A batch of values that have at most a size is not too large. -/
theorem Suits.isSmall
    {batchMax : Nat}
    (suits : Suits limit batchMax)
    {batch : List Entry}
    (batch_le : batch.length ≤ batchMax)
    (value_le : ∀ entry ∈ batch, entry.value.length ≤ limit) :
    Log.IsSmall batch ∧ batch.length < Bytes.cardinality 4 := by
  have bodySize := Frame.bodySize_le value_le
  have scaled : batch.length * (Key.size + 4 + limit) ≤ batchMax * (Key.size + 4 + limit) :=
    Nat.mul_le_mul_right _ batch_le
  have whole := suits.bodySize_le
  have atLeast : batch.length * 1 ≤ batch.length * (Key.size + 4 + limit) :=
    Nat.mul_le_mul_left _ (by rw [Key.size]; omega)
  refine ⟨⟨fun entry present => ?_, ?_⟩, ?_⟩
  · exact Nat.le_trans (value_le entry present) suits.limit_le
  · omega
  · have cardinality : Bytes.cardinality 4 = 0x100000000 := rfl
    have largest : Frame.maxBodySize = 67108864 := rfl
    omega

/-- The batch under way is stored whole. -/
theorem Holds.storeBatch
    (holds : recorder.Holds limit log disk taken)
    (numbered : taken.length < 0x10000000000000000)
    (metrics : Metrics) :
    ∃ after grown counted,
      recorder.storeBatch (.durable log) disk metrics =
        ({ recorder with batch := [] }, .durable after, grown, counted) ∧
      ({ recorder with batch := [] } : Recorder).Holds limit after grown taken := by
  obtain ⟨⟨stored, accumulates, taken_eq⟩, suits, batch_le, value_le⟩ := holds
  have value_le_batch : ∀ entry ∈ recorder.batch, entry.value.length ≤ limit := by
    intro entry present
    apply value_le
    simp [taken_eq, present]
  obtain ⟨small, length_lt⟩ := suits.isSmall batch_le value_le_batch
  have lengths := congrArg List.length taken_eq
  rw [List.length_append, List.length_append] at lengths
  obtain ⟨after, grown, accepted, grownAccumulates⟩ :=
    accumulates.append small length_lt (by omega)
  unfold Recorder.storeBatch Store.append finish
  dsimp only
  rw [accepted]
  refine ⟨after, grown, _, rfl, ⟨stored ++ recorder.batch, grownAccumulates, ?_⟩, suits,
    Nat.zero_le _, value_le⟩
  rw [taken_eq, List.append_assoc, List.nil_append]

/-- When the worker stops it has stored everything. -/
theorem Holds.steps
    {count : Nat}
    (holds : recorder.Holds limit log disk taken)
    (numbered : taken.length < 0x10000000000000000)
    (noBatch : recorder.batch = [])
    (enough : recorder.queue.length ≤ count)
    (metrics : Metrics) :
    ∃ stopped after grown counted,
      recorder.steps count (.durable log) disk metrics =
        (stopped, .durable after, grown, counted) ∧
      Accumulates after grown taken := by
  induction count generalizing recorder log disk metrics with
  | zero =>
      have noQueue : recorder.queue = [] := List.eq_nil_of_length_eq_zero (by omega)
      obtain ⟨stored, accumulates, taken_eq⟩ := holds.exists_stored
      rw [noBatch, noQueue, List.append_nil, List.append_nil] at taken_eq
      exact ⟨_, _, _, _, rfl, taken_eq ▸ accumulates⟩
  | succ count inductionHypothesis =>
      unfold Recorder.steps
      rw [step?_eq]
      cases isTaken : recorder.takeBatch? with
      | none =>
          obtain ⟨stored, accumulates, taken_eq⟩ := holds.exists_stored
          rw [noBatch, takeBatch?_eq_none noBatch isTaken, List.append_nil, List.append_nil]
            at taken_eq
          exact ⟨_, _, _, _, rfl, taken_eq ▸ accumulates⟩
      | some batched =>
          obtain ⟨_, notEmpty, batched_eq⟩ := takeBatch?_eq_some isTaken
          have received := holds.receiveAll recorder.batchMax
          rw [receiveAll_eq (by simp [noBatch])] at batched_eq received
          obtain ⟨after, grown, counted, stored, nowHolds⟩ :=
            received.storeBatch numbered metrics
          rw [batched_eq, Option.map_some, stored]
          have pos := holds.suits.batchMax_pos
          have lengths := List.length_pos_iff.mpr notEmpty
          exact inductionHypothesis nowHolds rfl
            (by rw [List.length_drop]; omega) counted

theorem Holds.run
    (holds : recorder.Holds limit log disk taken)
    (numbered : taken.length < 0x10000000000000000)
    (noBatch : recorder.batch = [])
    (metrics : Metrics) :
    ∃ stopped after grown counted,
      recorder.run (.durable log) disk metrics = (stopped, .durable after, grown, counted) ∧
      Accumulates after grown taken :=
  holds.steps numbered noBatch (Nat.le_refl _) metrics

end Recorder
end EventRelay
