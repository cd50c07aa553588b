import EventRelay.Proofs.Replication.Accounts

/-!
# The worker of a forwarder

Records are handed to a forwarder while its worker takes them off the queue, starts
their sends and sees the sends end, each at any time and in any order.  A send needs a
permit.  When the broker has answered it, it is counted by its result, then lowers the
counter of the records in flight, and at last gives its permit back.  At some time the
worker is told to stop: it closes the queue, takes what is left, waits for the sends
under way and ends.

The records that were taken are sent in their order, each once and under the topic
of the forwarder; every send that has ended is counted once by its result, and every
record that was not taken is counted as dropped.  No more sends are under way than
there may be, and no permit and no count is lost.  A worker that has ended has sent
everything, and its forwarder takes nothing more.
-/

namespace EventRelay

open Forwarder (recordOf)

/-! ## A forwarder at work -/

/-- How far the worker of a forwarder has come. -/
inductive Replication.Stage where
  /-- It takes records off the queue. -/
  | serving
  /-- It has closed the queue and takes what is left. -/
  | draining
  /-- It has taken everything and waits for the sends under way. -/
  | finishing
  /-- It has ended. -/
  | ended
deriving DecidableEq, Repr

/-- A forwarder with its worker, and what became of the records. -/
structure Replication where
  forwarder : Forwarder
  metrics : Metrics
  stage : Replication.Stage
  /-- Whether the worker was told to stop. -/
  isCancelled : Bool
  /-- The counter of the records that were taken off the queue and are not sent. -/
  inFlight : Nat
  /-- The number of sends that may be started. -/
  permits : Nat
  /-- The number of sends that the broker has answered and the counter still holds. -/
  ending : Nat
  /-- The number of sends that the counter no longer holds and that keep their permits. -/
  releasing : Nat
  /-- The entries that the forwarder took, in order. -/
  taken : List Entry
  /-- The entries that it turned away. -/
  dropped : List Entry
  /-- The records passed to the broker, in order. -/
  started : List Record
  /-- The records whose sends have ended, with the broker's answers. -/
  answered : List (Record × Except BrokerError Unit)

namespace Replication

/-- What happens to a forwarder. -/
inductive Move where
  /-- A record is handed to it. -/
  | forward (entry : Entry)
  /-- The worker is told to stop. -/
  | cancel
  /-- No one is left to hand records to it, which closes the queue. -/
  | abandon
  /-- The worker takes a record off the queue. -/
  | fetch
  /-- The worker starts the send of the record that it has taken. -/
  | send
  /-- The broker answers one of the sends under way. -/
  | answer (index : Nat) (result : Except BrokerError Unit)
  /-- A send that was answered lowers the counter of the records in flight. -/
  | lower
  /-- A send that has lowered the counter gives its permit back. -/
  | release
  /-- The worker goes on to its next stage. -/
  | proceed

/-- A new forwarder. -/
def start (topic : String) (capacity maxSending : Nat) (metrics : Metrics) : Replication where
  forwarder := .initial topic capacity maxSending
  metrics := metrics
  stage := .serving
  isCancelled := false
  inFlight := 0
  permits := max maxSending 1
  ending := 0
  releasing := 0
  taken := []
  dropped := []
  started := []
  answered := []

/-- Hand a record to the forwarder. -/
def forward (replication : Replication) (entry : Entry) : Replication :=
  let (isTaken, forwarder, metrics) := replication.forwarder.forward replication.metrics entry
  { replication with
    forwarder := forwarder
    metrics := metrics
    taken := if isTaken then replication.taken ++ [entry] else replication.taken
    dropped := if isTaken then replication.dropped else replication.dropped ++ [entry] }

/-- Let the worker take a record off the queue and count it as in flight. -/
def fetch (replication : Replication) : Replication :=
  match replication.forwarder.receive? with
  | none => replication
  | some forwarder =>
      { replication with forwarder := forwarder, inFlight := replication.inFlight + 1 }

/-- Let the worker start the send of the record that it has taken, if a permit is free. -/
def send (replication : Replication) : Replication :=
  match replication.forwarder.waiting, replication.permits with
  | some entry, permits + 1 =>
      { replication with
        forwarder := { replication.forwarder with
          waiting := none
          sending := replication.forwarder.sending ++ [entry] }
        permits := permits
        started := replication.started ++ [replication.forwarder.record entry] }
  | _, _ => replication

/-- Let the broker answer one of the sends under way. -/
def answer (replication : Replication) (index : Nat) (result : Except BrokerError Unit) :
    Replication :=
  match replication.forwarder.complete? index with
  | none => replication
  | some (entry, forwarder) =>
      { replication with
        forwarder := forwarder
        metrics := Forwarder.count result replication.metrics
        ending := replication.ending + 1
        answered := replication.answered ++ [(forwarder.record entry, result)] }

/-- Let a send that was answered lower the counter. -/
def lower (replication : Replication) : Replication :=
  match replication.ending with
  | 0 => replication
  | ending + 1 =>
      { replication with
        inFlight := replication.inFlight - 1
        ending := ending
        releasing := replication.releasing + 1 }

/-- Let a send that has lowered the counter give its permit back. -/
def release (replication : Replication) : Replication :=
  match replication.releasing with
  | 0 => replication
  | releasing + 1 =>
      { replication with permits := replication.permits + 1, releasing := releasing }

/-- Every send that was answered has lowered the counter and given its permit back. -/
def IsSettled (replication : Replication) : Prop :=
  replication.ending = 0 ∧ replication.releasing = 0

/-- No send is under way, and none that was answered has anything left to do. -/
def IsIdle (replication : Replication) : Prop :=
  replication.forwarder.sending = [] ∧ replication.IsSettled

instance (replication : Replication) : Decidable replication.IsIdle :=
  inferInstanceAs (Decidable (_ ∧ _ ∧ _))

/-- Let the worker go on to its next stage, if it has come to the end of the one it
is in.  It does not look whether it was told to stop while it waits to start a
send, and when it stops there may be records in the queue.  A queue that was closed
from outside is at its end when it is empty. -/
def proceed (replication : Replication) : Replication :=
  match replication.stage with
  | .serving =>
      if replication.isCancelled && replication.forwarder.waiting.isNone then
        { replication with forwarder := replication.forwarder.close, stage := .draining }
      else if replication.forwarder.isClosed && replication.forwarder.waiting.isNone &&
          replication.forwarder.queue.isEmpty then
        { replication with stage := .finishing }
      else replication
  | .draining =>
      if replication.forwarder.waiting.isNone && replication.forwarder.queue.isEmpty then
        { replication with stage := .finishing }
      else replication
  | .finishing =>
      if replication.IsIdle then { replication with stage := .ended } else replication
  | .ended => replication

/-- Do something, as far as it can be done. -/
def step (replication : Replication) : Move → Replication
  | .forward entry => replication.forward entry
  | .cancel => { replication with isCancelled := true }
  | .abandon => { replication with forwarder := replication.forwarder.close }
  | .fetch => replication.fetch
  | .send => replication.send
  | .answer index result => replication.answer index result
  | .lower => replication.lower
  | .release => replication.release
  | .proceed => replication.proceed

def run (replication : Replication) (moves : List Move) : Replication :=
  moves.foldl step replication

theorem run_append (replication : Replication) (moves later : List Move) :
    replication.run (moves ++ later) = (replication.run moves).run later :=
  List.foldl_append

/-- A move of the worker or of one of its sends, with a given answer of the broker. -/
def Move.IsOwn (result : Except BrokerError Unit) : Move → Prop
  | .fetch | .send | .lower | .release | .proceed => True
  | .answer _ ending => ending = result
  | .forward _ | .cancel | .abandon => False

/-- The entry that a move hands to the forwarder. -/
def Move.entry? : Move → Option Entry
  | .forward entry => some entry
  | _ => none

variable {before : Metrics} {topic : String} {limit : Nat} {forwarder next : Forwarder}
variable {entry : Entry}

/-! ## Where the worker is -/

/-- What the stages say about a forwarder and the number of sends that were answered and
keep their permits. -/
structure Agrees (stage : Stage) (forwarder : Forwarder) (unreleased : Nat) : Prop where
  isClosed : stage ≠ .serving → forwarder.isClosed = true
  isDrained : stage = .finishing ∨ stage = .ended →
    forwarder.waiting = none ∧ forwarder.queue = []
  isFinished : stage = .ended → forwarder.sending = [] ∧ unreleased = 0

variable {stage : Stage} {unreleased : Nat}

theorem agrees_serving (forwarder : Forwarder) (unreleased : Nat) :
    Agrees .serving forwarder unreleased where
  isClosed := fun notServing => absurd rfl notServing
  isDrained := by rintro (isStage | isStage) <;> cases isStage
  isFinished := by rintro ⟨⟩

theorem Agrees.fetch
    (agrees : Agrees stage forwarder unreleased)
    (received : forwarder.receive? = some next) :
    Agrees stage next unreleased := by
  obtain ⟨entry, rest, noWaiting, queued, rfl⟩ := Forwarder.receive?_eq_some received
  refine ⟨agrees.isClosed, fun isLate => ?_, agrees.isFinished⟩
  rw [(agrees.isDrained isLate).2] at queued
  cases queued

theorem Agrees.send
    (agrees : Agrees stage forwarder unreleased)
    (begun : forwarder.start? = some next) :
    Agrees stage next unreleased := by
  obtain ⟨entry, isWaiting, _, rfl⟩ := Forwarder.start?_eq_some begun
  have isEarly : ¬(stage = .finishing ∨ stage = .ended) := by
    intro isLate
    rw [(agrees.isDrained isLate).1] at isWaiting
    cases isWaiting
  exact ⟨agrees.isClosed, fun isLate => absurd isLate isEarly,
    fun isLate => absurd (Or.inr isLate) isEarly⟩

theorem Agrees.answer
    (agrees : Agrees stage forwarder unreleased)
    {index : Nat}
    (completed : forwarder.complete? index = some (entry, next)) :
    Agrees stage next (unreleased + 1) := by
  obtain ⟨permuted, next_eq⟩ := Forwarder.complete?_eq_some completed
  generalize next.sending = sending at permuted next_eq
  subst next_eq
  refine ⟨agrees.isClosed, agrees.isDrained, fun isLate => ?_⟩
  rw [(agrees.isFinished isLate).1, List.perm_nil] at permuted
  cases permuted

theorem Agrees.release
    (agrees : Agrees stage forwarder (unreleased + 1)) :
    Agrees stage forwarder unreleased where
  isClosed := agrees.isClosed
  isDrained := agrees.isDrained
  isFinished := fun isLate => absurd (agrees.isFinished isLate).2 (Nat.succ_ne_zero _)

/-! ## Permits -/

/-- The counter holds what was taken off the queue up to the sends that have lowered it,
and every permit is free or with one of the sends. -/
structure Tallies (limit : Nat) (replication : Replication) : Prop where
  inFlight_eq : replication.inFlight = replication.forwarder.inFlight + replication.ending
  permits_add : replication.permits + replication.forwarder.sending.length +
    (replication.ending + replication.releasing) = limit

variable {replication : Replication}

theorem Tallies.fetch
    (tallies : Tallies limit replication)
    (received : replication.forwarder.receive? = some next) :
    Tallies limit
      { replication with forwarder := next, inFlight := replication.inFlight + 1 } := by
  obtain ⟨inFlight_eq, permits_add⟩ := tallies
  obtain ⟨entry, rest, noWaiting, queued, rfl⟩ := Forwarder.receive?_eq_some received
  rw [Forwarder.inFlight, noWaiting, Option.toList_none, List.length_nil] at inFlight_eq
  refine ⟨?_, permits_add⟩
  dsimp only [Forwarder.inFlight, Option.toList_some, List.length_singleton]
  omega

/-- A free permit is room for a send. -/
theorem Tallies.start?_eq_some
    (tallies : Tallies limit replication)
    (maxSending_eq : replication.forwarder.maxSending = limit)
    (isWaiting : replication.forwarder.waiting = some entry)
    {permits : Nat}
    (permitted : replication.permits = permits + 1) :
    replication.forwarder.start? = some { replication.forwarder with
      waiting := none, sending := replication.forwarder.sending ++ [entry] } := by
  have permits_add := tallies.permits_add
  rw [Forwarder.start?, isWaiting]
  exact if_pos (by omega)

theorem Tallies.send
    (tallies : Tallies limit replication)
    (isWaiting : replication.forwarder.waiting = some entry)
    {permits : Nat}
    (permitted : replication.permits = permits + 1)
    (started : List Record) :
    Tallies limit
      { replication with
        forwarder := { replication.forwarder with
          waiting := none
          sending := replication.forwarder.sending ++ [entry] }
        permits := permits
        started := started } := by
  obtain ⟨inFlight_eq, permits_add⟩ := tallies
  rw [Forwarder.inFlight, isWaiting, Option.toList_some, List.length_singleton] at inFlight_eq
  refine ⟨?_, ?_⟩
  · dsimp only [Forwarder.inFlight, Option.toList_none, List.length_nil]
    rw [List.length_append, List.length_singleton]
    omega
  · dsimp only
    rw [List.length_append, List.length_singleton]
    omega

theorem Tallies.answer
    (tallies : Tallies limit replication)
    {index : Nat}
    (completed : replication.forwarder.complete? index = some (entry, next))
    (metrics : Metrics)
    (answered : List (Record × Except BrokerError Unit)) :
    Tallies limit
      { replication with
        forwarder := next
        metrics := metrics
        ending := replication.ending + 1
        answered := answered } := by
  obtain ⟨inFlight_eq, permits_add⟩ := tallies
  obtain ⟨permuted, next_eq⟩ := Forwarder.complete?_eq_some completed
  have length_eq := permuted.length_eq
  rw [List.length_cons] at length_eq
  have waiting_eq : next.waiting = replication.forwarder.waiting := by rw [next_eq]
  rw [Forwarder.inFlight] at inFlight_eq
  refine ⟨?_, ?_⟩
  · dsimp only
    rw [Forwarder.inFlight, waiting_eq]
    omega
  · dsimp only
    omega

/-! ## The invariant -/

/-- What holds of a forwarder at work whose counters started from others. -/
structure Invariant
    (topic : String) (limit : Nat) (before : Metrics) (replication : Replication) : Prop where
  carries : Carries topic limit replication.forwarder replication.taken replication.started
    replication.answered
  counted : Counted before replication.metrics replication.dropped replication.answered
  tallies : Tallies limit replication
  agrees : Agrees replication.stage replication.forwarder
    (replication.ending + replication.releasing)

theorem invariant_start (topic : String) (capacity maxSending : Nat) (metrics : Metrics) :
    (start topic capacity maxSending metrics).Invariant topic (max maxSending 1) metrics where
  carries := carries_initial topic capacity maxSending
  counted := counted_nil metrics
  tallies := ⟨rfl, rfl⟩
  agrees := agrees_serving _ _

/-- Only a worker that serves leaves its queue open. -/
theorem Invariant.forward
    (invariant : replication.Invariant topic limit before)
    (entry : Entry) :
    (replication.forward entry).Invariant topic limit before := by
  obtain ⟨carries, counted, tallies, agrees⟩ := invariant
  unfold Replication.forward Forwarder.forward
  rcases replication.forwarder.offer_cases entry with ⟨_, refused⟩ | ⟨isOpen, _, isTaken⟩
  · rw [refused]
    exact ⟨carries, counted.drop entry, { tallies with }, agrees⟩
  · rw [isTaken]
    refine ⟨carries.take entry, counted, { tallies with }, ?_⟩
    have isServing : replication.stage = .serving := by
      by_contra notServing
      rw [agrees.isClosed notServing] at isOpen
      cases isOpen
    dsimp only
    rw [isServing]
    exact agrees_serving _ _

theorem Invariant.fetch
    (invariant : replication.Invariant topic limit before) :
    replication.fetch.Invariant topic limit before := by
  unfold Replication.fetch
  cases received : replication.forwarder.receive? with
  | none => exact invariant
  | some next =>
      exact ⟨invariant.carries.fetch received, invariant.counted,
        invariant.tallies.fetch received, invariant.agrees.fetch received⟩

theorem Invariant.send
    (invariant : replication.Invariant topic limit before) :
    replication.send.Invariant topic limit before := by
  unfold Replication.send
  split
  · rename_i entry permits isWaiting permitted
    obtain ⟨carries, counted, tallies, agrees⟩ := invariant
    -- A free permit stands for room among the sends, so the forwarder itself may start one.
    have begun := tallies.start?_eq_some carries.maxSending_eq isWaiting permitted
    have carriesOn := carries.send begun
    rw [isWaiting] at carriesOn
    exact ⟨carriesOn, counted, tallies.send isWaiting permitted _, agrees.send begun⟩
  · exact invariant

theorem Invariant.answer
    (invariant : replication.Invariant topic limit before)
    (index : Nat)
    (result : Except BrokerError Unit) :
    (replication.answer index result).Invariant topic limit before := by
  unfold Replication.answer
  cases completed : replication.forwarder.complete? index with
  | none => exact invariant
  | some ended =>
      obtain ⟨entry, next⟩ := ended
      refine ⟨invariant.carries.answer completed result, invariant.counted.answer _ result,
        invariant.tallies.answer completed _ _, ?_⟩
      -- The send leaves those under way and joins those that keep their permits.
      dsimp only
      rw [Nat.add_right_comm]
      exact invariant.agrees.answer completed

theorem Invariant.lower
    (invariant : replication.Invariant topic limit before) :
    replication.lower.Invariant topic limit before := by
  unfold Replication.lower
  split
  · exact invariant
  · rename_i ending ending_eq
    obtain ⟨carries, counted, ⟨inFlight_eq, permits_add⟩, agrees⟩ := invariant
    rw [ending_eq] at inFlight_eq permits_add agrees
    refine ⟨carries, counted, ⟨?_, ?_⟩, ?_⟩
    · dsimp only
      omega
    · dsimp only
      omega
    · rwa [Nat.succ_add_eq_add_succ] at agrees

theorem Invariant.release
    (invariant : replication.Invariant topic limit before) :
    replication.release.Invariant topic limit before := by
  unfold Replication.release
  split
  · exact invariant
  · rename_i releasing releasing_eq
    obtain ⟨carries, counted, ⟨inFlight_eq, permits_add⟩, agrees⟩ := invariant
    rw [releasing_eq] at permits_add agrees
    refine ⟨carries, counted, ⟨inFlight_eq, ?_⟩, agrees.release⟩
    dsimp only
    omega

theorem Invariant.proceed
    (invariant : replication.Invariant topic limit before) :
    replication.proceed.Invariant topic limit before := by
  obtain ⟨carries, counted, tallies, agrees⟩ := invariant
  unfold Replication.proceed
  split
  · split
    · refine ⟨carries.close, counted, { tallies with }, fun _ => rfl, ?_, ?_⟩
      · rintro (isStage | isStage) <;> cases isStage
      · rintro ⟨⟩
    · split
      · rename_i atEnd
        rw [Bool.and_eq_true, Bool.and_eq_true, Option.isNone_iff_eq_none,
          List.isEmpty_iff] at atEnd
        refine ⟨carries, counted, { tallies with }, fun _ => atEnd.1.1,
          fun _ => ⟨atEnd.1.2, atEnd.2⟩, ?_⟩
        rintro ⟨⟩
      · exact ⟨carries, counted, tallies, agrees⟩
  · rename_i isDraining
    split
    · rename_i empty
      rw [Bool.and_eq_true, Option.isNone_iff_eq_none, List.isEmpty_iff] at empty
      refine ⟨carries, counted, { tallies with },
        fun _ => agrees.isClosed (by simp [isDraining]), fun _ => empty, ?_⟩
      rintro ⟨⟩
    · exact ⟨carries, counted, tallies, agrees⟩
  · rename_i isFinishing
    split
    · rename_i idle
      refine ⟨carries, counted, { tallies with },
        fun _ => agrees.isClosed (by simp [isFinishing]),
        fun _ => agrees.isDrained (Or.inl isFinishing), fun _ => ⟨idle.1, ?_⟩⟩
      exact Nat.add_eq_zero_iff.mpr idle.2
    · exact ⟨carries, counted, tallies, agrees⟩
  · exact ⟨carries, counted, tallies, agrees⟩

/-- Every move keeps the invariant. -/
theorem Invariant.step
    (invariant : replication.Invariant topic limit before)
    (move : Move) :
    (replication.step move).Invariant topic limit before := by
  cases move with
  | forward entry => exact invariant.forward entry
  | cancel =>
      obtain ⟨carries, counted, tallies, agrees⟩ := invariant
      exact ⟨carries, counted, { tallies with }, agrees⟩
  | abandon =>
      obtain ⟨carries, counted, tallies, agrees⟩ := invariant
      exact ⟨carries.close, counted, { tallies with },
        fun _ => rfl, agrees.isDrained, agrees.isFinished⟩
  | fetch => exact invariant.fetch
  | send => exact invariant.send
  | answer index result => exact invariant.answer index result
  | lower => exact invariant.lower
  | release => exact invariant.release
  | proceed => exact invariant.proceed

theorem Invariant.run
    (invariant : replication.Invariant topic limit before)
    (moves : List Move) :
    (replication.run moves).Invariant topic limit before := by
  induction moves generalizing replication with
  | nil => exact invariant
  | cons move moves inductionHypothesis => exact inductionHypothesis (invariant.step move)

/-! ## The end -/

/-- A worker that has ended does nothing more. -/
theorem stage_step_of_ended
    (isEnded : replication.stage = .ended)
    (move : Move) :
    (replication.step move).stage = .ended := by
  cases move with
  | forward | cancel | abandon => exact isEnded
  | fetch => rw [step, fetch]; split <;> exact isEnded
  | send => rw [step, send]; split <;> exact isEnded
  | answer => rw [step, answer]; split <;> exact isEnded
  | lower => rw [step, lower]; split <;> exact isEnded
  | release => rw [step, release]; split <;> exact isEnded
  | proceed =>
      rw [step, proceed, isEnded]
      exact isEnded

theorem stage_run_of_ended
    (isEnded : replication.stage = .ended)
    (moves : List Move) :
    (replication.run moves).stage = .ended := by
  induction moves generalizing replication with
  | nil => exact isEnded
  | cons move moves inductionHypothesis =>
      exact inductionHypothesis (stage_step_of_ended isEnded move)

/-- What the worker and its sends do leaves what others did. -/
theorem outside_step
    (replication : Replication)
    {result : Except BrokerError Unit}
    {move : Move}
    (isOwn : move.IsOwn result) :
    (replication.step move).isCancelled = replication.isCancelled ∧
      (replication.step move).taken = replication.taken ∧
      (replication.step move).dropped = replication.dropped := by
  cases move with
  | forward | cancel | abandon => exact isOwn.elim
  | fetch => rw [step, fetch]; split <;> exact ⟨rfl, rfl, rfl⟩
  | send => rw [step, send]; split <;> exact ⟨rfl, rfl, rfl⟩
  | answer => rw [step, answer]; split <;> exact ⟨rfl, rfl, rfl⟩
  | lower => rw [step, lower]; split <;> exact ⟨rfl, rfl, rfl⟩
  | release => rw [step, release]; split <;> exact ⟨rfl, rfl, rfl⟩
  | proceed =>
      rw [step, proceed]
      cases replication.stage <;> dsimp only <;> repeat' split
      all_goals exact ⟨rfl, rfl, rfl⟩

/-- A bound on the number of moves that the worker and its sends have still to make. -/
def remaining (replication : Replication) : Nat :=
  5 * replication.forwarder.queue.length + 4 * replication.forwarder.waiting.toList.length +
      3 * replication.forwarder.sending.length + 2 * replication.ending +
      replication.releasing +
    match replication.stage with
    | .serving => 3
    | .draining => 2
    | .finishing => 1
    | .ended => 0

/-- A send that is not over comes further. -/
theorem exists_progress_of_not_isIdle
    (busy : ¬replication.IsIdle)
    (result : Except BrokerError Unit) :
    ∃ move : Move, move.IsOwn result ∧
      (replication.step move).remaining < replication.remaining := by
  cases releasing_eq : replication.releasing with
  | succ releasing =>
      refine ⟨.release, trivial, ?_⟩
      simp only [step, release, releasing_eq, remaining]
      omega
  | zero =>
      cases ending_eq : replication.ending with
      | succ ending =>
          refine ⟨.lower, trivial, ?_⟩
          simp only [step, lower, ending_eq, remaining]
          omega
      | zero =>
          cases sending_eq : replication.forwarder.sending with
          | cons entry rest =>
              refine ⟨.answer 0 result, rfl, ?_⟩
              have completed : replication.forwarder.complete? 0 =
                  some (entry, { replication.forwarder with sending := rest }) := by
                rw [Forwarder.complete?, sending_eq]
                rfl
              simp only [step, answer, completed, remaining, sending_eq, List.length_cons]
              omega
          | nil => exact absurd ⟨sending_eq, ending_eq, releasing_eq⟩ busy

/-- A worker that waits to start a send comes further: a permit is free, or a send is not
over. -/
theorem exists_progress_of_waiting
    (tallies : Tallies limit replication)
    (limit_pos : 0 < limit)
    (isWaiting : replication.forwarder.waiting = some entry)
    (result : Except BrokerError Unit) :
    ∃ move : Move, move.IsOwn result ∧
      (replication.step move).remaining < replication.remaining := by
  cases permitted : replication.permits with
  | succ permits =>
      refine ⟨.send, trivial, ?_⟩
      simp only [step, send, isWaiting, permitted, remaining, Option.toList_some,
        Option.toList_none, List.length_append, List.length_singleton, List.length_nil]
      omega
  | zero =>
      refine exists_progress_of_not_isIdle (fun idle => ?_) result
      obtain ⟨sending_eq, ending_eq, releasing_eq⟩ := idle
      have permits_add := tallies.permits_add
      rw [permitted, sending_eq, ending_eq, releasing_eq] at permits_add
      exact Nat.ne_of_lt limit_pos permits_add

/-- A worker that waits for nothing and has records in the queue comes further. -/
theorem exists_progress_of_queued
    {rest : List Entry}
    (noWaiting : replication.forwarder.waiting = none)
    (queued : replication.forwarder.queue = entry :: rest)
    (result : Except BrokerError Unit) :
    ∃ move : Move, move.IsOwn result ∧
      (replication.step move).remaining < replication.remaining := by
  have received : replication.forwarder.receive? = some { replication.forwarder with
      waiting := some entry, queue := rest } := by
    rw [Forwarder.receive?, noWaiting, queued]
  refine ⟨.fetch, trivial, ?_⟩
  simp only [step, fetch, received, remaining, noWaiting, queued, List.length_cons,
    Option.toList_some, Option.toList_none, List.length_nil]
  omega

/-- A worker that was told to stop comes further until it has ended, whatever the
broker answers. -/
theorem exists_progress
    (invariant : replication.Invariant topic limit before)
    (limit_pos : 0 < limit)
    (isCancelled : replication.isCancelled = true)
    (notEnded : replication.stage ≠ .ended)
    (result : Except BrokerError Unit) :
    ∃ move : Move, move.IsOwn result ∧
      (replication.step move).remaining < replication.remaining := by
  -- A record that waits for a permit comes first: until it is sent the worker looks
  -- neither at the queue nor at its orders.
  cases isWaiting : replication.forwarder.waiting with
  | some entry => exact exists_progress_of_waiting invariant.tallies limit_pos isWaiting result
  | none =>
      cases queued : replication.forwarder.queue with
      | cons entry rest => exact exists_progress_of_queued isWaiting queued result
      | nil =>
          cases stage_eq : replication.stage with
          | serving | draining =>
              refine ⟨.proceed, trivial, ?_⟩
              simp [step, proceed, stage_eq, isCancelled, isWaiting, queued, remaining,
                Forwarder.close]
          | finishing =>
              by_cases idle : replication.IsIdle
              · refine ⟨.proceed, trivial, ?_⟩
                simp [step, proceed, stage_eq, idle, remaining]
              · exact exists_progress_of_not_isIdle idle result
          | ended => exact absurd stage_eq notEnded

/-- A worker that was told to stop can come to its end by itself. -/
theorem exists_ended
    (invariant : replication.Invariant topic limit before)
    (limit_pos : 0 < limit)
    (isCancelled : replication.isCancelled = true)
    (result : Except BrokerError Unit) :
    ∃ moves : List Move, (∀ move ∈ moves, move.IsOwn result) ∧
      (replication.run moves).stage = .ended := by
  induction bound : replication.remaining using Nat.strongRecOn generalizing replication with
  | ind bound inductionHypothesis =>
      subst bound
      by_cases isEnded : replication.stage = .ended
      · exact ⟨[], fun _ member => absurd member List.not_mem_nil, isEnded⟩
      · obtain ⟨move, isOwn, less⟩ :=
          exists_progress invariant limit_pos isCancelled isEnded result
        obtain ⟨moves, areOwn, ended⟩ := inductionHypothesis _ less (invariant.step move)
          ((outside_step replication isOwn).1.trans isCancelled) rfl
        exact ⟨move :: moves, List.forall_mem_cons.mpr ⟨isOwn, areOwn⟩, ended⟩

/-! ## What the worker does -/

/-- What is handed to a forwarder is taken or turned away. -/
theorem handed_forward (replication : Replication) (entry : Entry) :
    ((replication.forward entry).taken ++ (replication.forward entry).dropped).Perm
      (replication.taken ++ replication.dropped ++ [entry]) := by
  unfold Replication.forward Forwarder.forward
  rcases replication.forwarder.offer_cases entry with ⟨_, refused⟩ | ⟨_, _, isTaken⟩
  · rw [refused]
    exact List.Perm.of_eq (List.append_assoc _ _ _).symm
  · rw [isTaken]
    change (replication.taken ++ [entry] ++ replication.dropped).Perm _
    rw [List.append_assoc, List.append_assoc]
    exact List.perm_append_comm.append_left _

theorem handed_step_of_isOwn
    (replication : Replication)
    {result : Except BrokerError Unit}
    {move : Move}
    (isOwn : move.IsOwn result) :
    ((replication.step move).taken ++ (replication.step move).dropped).Perm
      (replication.taken ++ replication.dropped ++ move.entry?.toList) := by
  obtain ⟨_, taken_eq, dropped_eq⟩ := outside_step replication isOwn
  have nothing : move.entry?.toList = [] := by
    cases move with
    | forward => exact isOwn.elim
    | _ => rfl
  rw [taken_eq, dropped_eq, nothing, List.append_nil]

theorem handed_step (replication : Replication) (move : Move) :
    ((replication.step move).taken ++ (replication.step move).dropped).Perm
      (replication.taken ++ replication.dropped ++ move.entry?.toList) := by
  cases move with
  | forward entry => exact handed_forward replication entry
  | cancel | abandon => exact List.Perm.of_eq (List.append_nil _).symm
  | fetch | send | lower | release | proceed =>
      exact handed_step_of_isOwn replication (show Move.IsOwn (.ok ()) _ from trivial)
  | answer index result =>
      exact handed_step_of_isOwn replication (rfl : result = result)

theorem handed_run (replication : Replication) (moves : List Move) :
    ((replication.run moves).taken ++ (replication.run moves).dropped).Perm
      (replication.taken ++ replication.dropped ++ moves.filterMap Move.entry?) := by
  induction moves generalizing replication with
  | nil => exact List.Perm.of_eq (List.append_nil _).symm
  | cons move moves inductionHypothesis =>
      refine (inductionHypothesis (replication.step move)).trans ?_
      refine ((handed_step replication move).append_right _).trans (List.Perm.of_eq ?_)
      rw [List.append_assoc]
      cases handed : move.entry? <;> simp [handed]

/-- A forwarder at work does what it is for: whatever was handed to it is taken or turned
away, few sends are under way, the counter and the permits are right, the records
taken are sent in order, each once, and what is answered or turned away is counted.
When its worker has ended all of them are sent and answered, no count and no permit is
missing, and nothing more is ever taken.  A worker that is told to stop can come to its
end by itself, whatever the broker answers. -/
structure Replicates
    (topic : String)
    (limit : Nat)
    (before : Metrics)
    (handed : List Entry)
    (replication : Replication) : Prop where
  handed_perm : (replication.taken ++ replication.dropped).Perm handed
  sending_le : replication.forwarder.sending.length ≤ limit
  inFlight_le : replication.inFlight ≤ limit + 1
  tallies : Tallies limit replication
  started_isPrefix : replication.started <+: replication.taken.map (recordOf topic)
  answered_perm : (replication.answered.map Prod.fst ++
    replication.forwarder.sending.map (recordOf topic)).Perm replication.started
  counted : Counted before replication.metrics replication.dropped replication.answered
  atEnd : replication.stage = .ended →
    replication.started = replication.taken.map (recordOf topic) ∧
      (replication.answered.map Prod.fst).Perm (replication.taken.map (recordOf topic)) ∧
      replication.inFlight = 0 ∧ replication.permits = limit
  afterEnd : replication.stage = .ended → ∀ later entry,
    (replication.run later).stage = .ended ∧
      ((replication.run later).forwarder.forward (replication.run later).metrics entry).1 = false
  canEnd : ∀ result : Except BrokerError Unit, ∃ later : List Move,
    (∀ move ∈ later, move.IsOwn result) ∧ (replication.run (.cancel :: later)).stage = .ended

/-- Beside the sends that hold a permit only the record that waits for one is in flight. -/
theorem Tallies.inFlight_le
    (tallies : Tallies limit replication) :
    replication.inFlight ≤ limit + 1 := by
  obtain ⟨inFlight_eq, permits_add⟩ := tallies
  have waiting_le : replication.forwarder.waiting.toList.length ≤ 1 := by
    cases replication.forwarder.waiting <;> simp
  rw [Forwarder.inFlight] at inFlight_eq
  omega

/-- A worker that has ended has sent everything and has had all answers. -/
theorem Invariant.atEnd
    (invariant : replication.Invariant topic limit before)
    (isEnded : replication.stage = .ended) :
    replication.started = replication.taken.map (recordOf topic) ∧
      (replication.answered.map Prod.fst).Perm (replication.taken.map (recordOf topic)) ∧
      replication.inFlight = 0 ∧ replication.permits = limit := by
  obtain ⟨carries, _, ⟨inFlight_eq, permits_add⟩, agrees⟩ := invariant
  have started_append := carries.started_append
  have answered_perm := carries.answered_perm
  obtain ⟨noWaiting, noQueue⟩ := agrees.isDrained (Or.inr isEnded)
  obtain ⟨noSends, noneLeft⟩ := agrees.isFinished isEnded
  obtain ⟨noneEnding, _⟩ := Nat.add_eq_zero_iff.mp noneLeft
  rw [noWaiting, noQueue] at started_append
  rw [noSends] at answered_perm
  rw [Forwarder.inFlight, noWaiting, noSends, noneEnding] at inFlight_eq
  rw [noSends, noneLeft] at permits_add
  simp only [Option.toList_none, List.map_nil, List.append_nil] at started_append answered_perm
  exact ⟨started_append, started_append ▸ answered_perm, inFlight_eq, permits_add⟩

/-- A closed queue takes nothing. -/
theorem forward_of_isClosed
    (isClosed : forwarder.isClosed = true)
    (metrics : Metrics)
    (entry : Entry) :
    (forwarder.forward metrics entry).1 = false := by
  rw [Forwarder.forward, Forwarder.offer, if_pos (Or.inl isClosed)]

/-- A forwarder does what it is for, whatever happens to it. -/
theorem replicates_run
    (topic : String)
    (capacity maxSending : Nat)
    (metrics : Metrics)
    (moves : List Move) :
    Replicates topic (max maxSending 1) metrics (moves.filterMap Move.entry?)
      ((start topic capacity maxSending metrics).run moves) := by
  have handed_perm := handed_run (start topic capacity maxSending metrics) moves
  have invariant := (invariant_start topic capacity maxSending metrics).run moves
  generalize (start topic capacity maxSending metrics).run moves = replication at *
  refine ⟨handed_perm, invariant.carries.sending_le, invariant.tallies.inFlight_le,
    invariant.tallies, ⟨_, invariant.carries.started_append⟩, invariant.carries.answered_perm,
    invariant.counted, invariant.atEnd, ?_, ?_⟩
  · intro isEnded later entry
    have stillEnded := stage_run_of_ended isEnded later
    refine ⟨stillEnded, forward_of_isClosed ?_ _ entry⟩
    exact (invariant.run later).agrees.isClosed (by simp [stillEnded])
  · intro result
    exact exists_ended (invariant.step .cancel) (by omega) rfl result

/-! ## The worker as it runs -/

/-- A step of the worker is a move, or an answer after which the send lowers the counter
and gives its permit back at once. -/
theorem exists_moves_step
    (invariant : replication.Invariant topic limit before)
    (settled : replication.IsSettled)
    {broker grown : Broker}
    {metrics : Metrics}
    (stepped : replication.forwarder.step? broker replication.metrics =
      some (next, grown, metrics)) :
    ∃ moves, (replication.run moves).forwarder = next ∧
      (replication.run moves).metrics = metrics ∧ (replication.run moves).IsSettled := by
  obtain ⟨noneEnding, noneReleasing⟩ := settled
  rcases Forwarder.step?_cases stepped with
    ⟨begun, _, rfl⟩ | ⟨received, _, rfl⟩ | ⟨entry, result, completed, rfl⟩
  · obtain ⟨entry, isWaiting, room, rfl⟩ := Forwarder.start?_eq_some begun
    have permits_add := invariant.tallies.permits_add
    rw [noneEnding, noneReleasing, ← invariant.carries.maxSending_eq] at permits_add
    obtain ⟨permits, permitted⟩ := Nat.exists_eq_add_one_of_ne_zero
      (show replication.permits ≠ 0 by omega)
    refine ⟨[.send], ?_⟩
    change (replication.send).forwarder = _ ∧ (replication.send).metrics = _ ∧
      (replication.send).IsSettled
    rw [Replication.send, isWaiting, permitted]
    exact ⟨rfl, rfl, noneEnding, noneReleasing⟩
  · refine ⟨[.fetch], ?_⟩
    change (replication.fetch).forwarder = _ ∧ (replication.fetch).metrics = _ ∧
      (replication.fetch).IsSettled
    rw [Replication.fetch, received]
    exact ⟨rfl, rfl, noneEnding, noneReleasing⟩
  · refine ⟨[.answer 0 result, .lower, .release], ?_⟩
    have answered : (replication.answer 0 result).lower.release =
        { replication with
          forwarder := next
          metrics := Forwarder.count result replication.metrics
          inFlight := replication.inFlight - 1
          permits := replication.permits + 1
          answered := replication.answered ++ [(next.record entry, result)] } := by
      simp [answer, completed, lower, release, noneEnding, noneReleasing]
    change (replication.answer 0 result).lower.release.forwarder = _ ∧
      (replication.answer 0 result).lower.release.metrics = _ ∧
      (replication.answer 0 result).lower.release.IsSettled
    rw [answered]
    exact ⟨rfl, rfl, noneEnding, noneReleasing⟩

/-- What the worker does until it can do nothing more is a run of moves. -/
theorem exists_moves_steps
    (invariant : replication.Invariant topic limit before)
    (settled : replication.IsSettled)
    (times : Nat)
    (broker : Broker) :
    ∃ moves, ∃ grown : Broker,
      replication.forwarder.steps times broker replication.metrics =
        ((replication.run moves).forwarder, grown, (replication.run moves).metrics) := by
  induction times generalizing broker replication with
  | zero => exact ⟨[], broker, rfl⟩
  | succ times inductionHypothesis =>
      unfold Forwarder.steps
      cases stepped : replication.forwarder.step? broker replication.metrics with
      | none => exact ⟨[], broker, rfl⟩
      | some result =>
          obtain ⟨next, grown, metrics⟩ := result
          obtain ⟨first, rfl, rfl, stillSettled⟩ := exists_moves_step invariant settled stepped
          obtain ⟨moves, ending, moved⟩ :=
            inductionHypothesis (invariant.run first) stillSettled grown
          refine ⟨first ++ moves, ending, ?_⟩
          rw [run_append]
          exact moved

end Replication
end EventRelay
