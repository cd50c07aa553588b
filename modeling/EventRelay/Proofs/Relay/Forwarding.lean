import EventRelay.Replication.Forwarder
import Mathlib.Data.List.Perm.Basic

/-!
# What a forwarder sends

The entries that a forwarder has taken are, in some order, those that it has sent
and those that it still has.  Sends may end in any order.  A broker in memory that
refuses nothing has got all of them when the worker stops.
-/

namespace EventRelay
namespace Forwarder

/-- The record that an entry is sent as under a topic. -/
def recordOf (topic : String) (entry : Entry) : Record where
  topic := topic
  key := entry.key.bytes
  value := entry.value

/-- The entries that are not sent yet. -/
def unsent (forwarder : Forwarder) : List Entry :=
  forwarder.sending ++ (forwarder.waiting.toList ++ forwarder.queue)

/-- End one of the sends under way, if the broker answers. -/
def answerAt? (forwarder : Forwarder) (index : Nat) (broker : Broker) (metrics : Metrics) :
    Option (Forwarder × Broker × Metrics) :=
  match forwarder.complete? index with
  | none => none
  | some (entry, forwarder) =>
      match broker.send? (forwarder.record entry) with
      | none => none
      | some (result, broker) => some (forwarder, broker, count result metrics)

theorem answer?_eq (forwarder : Forwarder) (broker : Broker) (metrics : Metrics) :
    forwarder.answer? broker metrics = forwarder.answerAt? 0 broker metrics :=
  rfl

theorem isClosed_offer (forwarder : Forwarder) (entry : Entry) :
    (forwarder.offer entry).2.isClosed = forwarder.isClosed := by
  unfold offer
  split <;> rfl

/-- Only a forwarder that holds nothing back takes a record off its queue. -/
theorem receive?_eq_some
    {forwarder after : Forwarder}
    (received : forwarder.receive? = some after) :
    ∃ entry rest, forwarder.waiting = none ∧ forwarder.queue = entry :: rest ∧
      after = { forwarder with waiting := some entry, queue := rest } := by
  unfold receive? at received
  split at received
  · rename_i entry rest noWaiting queued
    exact ⟨entry, rest, noWaiting, queued, (Option.some_inj.mp received).symm⟩
  · cases received

/-- A record is sent only if there is room for its send. -/
theorem start?_eq_some
    {forwarder after : Forwarder}
    (started : forwarder.start? = some after) :
    ∃ entry, forwarder.waiting = some entry ∧
      forwarder.sending.length < forwarder.maxSending ∧
      after = { forwarder with waiting := none, sending := forwarder.sending ++ [entry] } := by
  unfold start? at started
  split at started
  · cases started
  · rename_i entry isWaiting
    split at started
    · rename_i room
      exact ⟨entry, isWaiting, room, (Option.some_inj.mp started).symm⟩
    · cases started

/-- A send ends when the broker has answered it. -/
theorem answerAt?_eq_some
    {forwarder after : Forwarder}
    {broker grown : Broker}
    {metrics counted : Metrics}
    {index : Nat}
    (answered : forwarder.answerAt? index broker metrics = some (after, grown, counted)) :
    ∃ entry result, forwarder.sending[index]? = some entry ∧
      after = { forwarder with sending := forwarder.sending.eraseIdx index } ∧
      broker.send? (forwarder.record entry) = some (result, grown) := by
  unfold answerAt? complete? at answered
  cases found : forwarder.sending[index]? with
  | none => simp [found] at answered
  | some entry =>
      rw [found] at answered
      dsimp only at answered
      split at answered
      · cases answered
      · rename_i result after sent
        cases answered
        exact ⟨entry, result, rfl, rfl, sent⟩

theorem isClosed_receive
    {forwarder after : Forwarder}
    (received : forwarder.receive? = some after) :
    after.isClosed = forwarder.isClosed := by
  obtain ⟨_, _, _, _, rfl⟩ := receive?_eq_some received
  rfl

theorem isClosed_start
    {forwarder after : Forwarder}
    (started : forwarder.start? = some after) :
    after.isClosed = forwarder.isClosed := by
  obtain ⟨_, _, _, rfl⟩ := start?_eq_some started
  rfl

theorem isClosed_answerAt
    {forwarder after : Forwarder}
    {broker grown : Broker}
    {metrics counted : Metrics}
    {index : Nat}
    (answered : forwarder.answerAt? index broker metrics = some (after, grown, counted)) :
    after.isClosed = forwarder.isClosed := by
  obtain ⟨_, _, _, rfl, _⟩ := answerAt?_eq_some answered
  rfl

/-! ## What is sent -/

/-- A broker in memory has got the records that it had before and those of all
entries that were taken and are not unsent. -/
structure Sends
    (topic : String) (before : List Record) (forwarder : Forwarder) (broker : Broker)
    (taken : List Entry) : Prop where
  topic_eq : forwarder.topic = topic
  maxSending_pos : 0 < forwarder.maxSending
  exists_sent : ∃ sent, broker = .memory ⟨before ++ sent.map (recordOf topic), 0⟩ ∧
    (sent ++ forwarder.unsent).Perm taken

variable {topic : String} {before : List Record} {forwarder after : Forwarder}
variable {broker grown : Broker} {taken : List Entry} {metrics counted : Metrics}

theorem Sends.offer
    (sends : forwarder.Sends topic before broker taken)
    (isOpen : forwarder.isClosed = false)
    (room : forwarder.queue.length < forwarder.capacity)
    (entry : Entry) :
    (forwarder.offer entry).2.Sends topic before broker (taken ++ [entry]) := by
  obtain ⟨topic_eq, hasRoom, sent, broker_eq, permuted⟩ := sends
  unfold Forwarder.offer
  rw [if_neg (by simp [isOpen, room])]
  refine ⟨topic_eq, hasRoom, sent, broker_eq, ?_⟩
  unfold unsent at permuted ⊢
  simpa only [List.append_assoc] using permuted.append_right [entry]

theorem Sends.receive
    (sends : forwarder.Sends topic before broker taken)
    (received : forwarder.receive? = some after) :
    after.Sends topic before broker taken := by
  obtain ⟨topic_eq, hasRoom, sent, broker_eq, permuted⟩ := sends
  obtain ⟨entry, rest, noWaiting, queued, rfl⟩ := receive?_eq_some received
  refine ⟨topic_eq, hasRoom, sent, broker_eq, ?_⟩
  unfold unsent at permuted ⊢
  rw [noWaiting, queued] at permuted
  exact permuted

theorem Sends.start
    (sends : forwarder.Sends topic before broker taken)
    (started : forwarder.start? = some after) :
    after.Sends topic before broker taken := by
  obtain ⟨topic_eq, hasRoom, sent, broker_eq, permuted⟩ := sends
  obtain ⟨entry, isWaiting, _, rfl⟩ := start?_eq_some started
  refine ⟨topic_eq, hasRoom, sent, broker_eq, ?_⟩
  unfold unsent at permuted ⊢
  rw [isWaiting] at permuted
  rw [List.append_assoc]
  exact permuted

/-- An entry whose send ends has been sent. -/
theorem Sends.answerAt
    (sends : forwarder.Sends topic before broker taken)
    {index : Nat}
    (answered : forwarder.answerAt? index broker metrics = some (after, grown, counted)) :
    after.Sends topic before grown taken := by
  obtain ⟨topic_eq, hasRoom, sent, rfl, permuted⟩ := sends
  obtain ⟨entry, result, found, rfl, accepted⟩ := answerAt?_eq_some answered
  cases accepted
  refine ⟨topic_eq, hasRoom, sent ++ [entry], ?_, ?_⟩
  · rw [List.map_append, ← List.append_assoc, ← topic_eq]
    rfl
  · obtain ⟨inside, rfl⟩ := List.getElem?_eq_some_iff.mp found
    have moved := List.getElem_cons_eraseIdx_perm inside
    unfold unsent at permuted ⊢
    rw [List.append_assoc]
    refine List.Perm.trans (List.Perm.append_left sent ?_) permuted
    exact moved.append_right _

/-! ## The worker -/

theorem work_receive
    (received : forwarder.receive? = some after) :
    after.work < forwarder.work := by
  obtain ⟨entry, rest, noWaiting, queued, rfl⟩ := receive?_eq_some received
  simp only [work, noWaiting, queued, List.length_cons, Option.toList_some, Option.toList_none,
    List.length_nil]
  omega

theorem work_start
    (started : forwarder.start? = some after) :
    after.work < forwarder.work := by
  obtain ⟨entry, isWaiting, _, rfl⟩ := start?_eq_some started
  simp only [work, isWaiting, List.length_append, List.length_singleton, Option.toList_some,
    Option.toList_none, List.length_nil]
  omega

theorem work_answerAt
    {index : Nat}
    (answered : forwarder.answerAt? index broker metrics = some (after, grown, counted)) :
    after.work < forwarder.work := by
  obtain ⟨entry, result, found, rfl, _⟩ := answerAt?_eq_some answered
  obtain ⟨inside, _⟩ := List.getElem?_eq_some_iff.mp found
  simp only [work, List.length_eraseIdx_of_lt inside]
  omega

/-- A step of the worker keeps what is sent, and leaves it less to do. -/
theorem Sends.step
    (sends : forwarder.Sends topic before broker taken)
    (stepped : forwarder.step? broker metrics = some (after, grown, counted)) :
    after.Sends topic before grown taken ∧ after.work < forwarder.work := by
  unfold step? at stepped
  cases started : forwarder.start? with
  | some next =>
      rw [started] at stepped
      cases stepped
      exact ⟨sends.start started, work_start started⟩
  | none =>
      rw [started] at stepped
      cases received : forwarder.receive? with
      | some next =>
          rw [received] at stepped
          cases stepped
          exact ⟨sends.receive received, work_receive received⟩
      | none =>
          rw [received] at stepped
          dsimp only at stepped
          rw [answer?_eq] at stepped
          exact ⟨sends.answerAt stepped, work_answerAt stepped⟩

/-- The worker stops when everything is sent. -/
theorem Sends.unsent_eq_nil
    (sends : forwarder.Sends topic before broker taken)
    (stuck : forwarder.step? broker metrics = none) :
    forwarder.unsent = [] := by
  obtain ⟨_, hasRoom, sent, rfl, _⟩ := sends
  unfold step? at stuck
  cases started : forwarder.start? with
  | some next => simp [started] at stuck
  | none =>
      cases received : forwarder.receive? with
      | some next => simp [started, received] at stuck
      | none =>
          rw [started, received] at stuck
          dsimp only at stuck
          unfold answer? complete? at stuck
          have noSends : forwarder.sending = [] := by
            cases sending : forwarder.sending with
            | nil => rfl
            | cons entry rest => simp [sending, Broker.send?, MemoryBroker.send] at stuck
          have noWaiting : forwarder.waiting = none := by
            unfold start? at started
            rw [noSends] at started
            cases isWaiting : forwarder.waiting with
            | none => rfl
            | some entry => simp [isWaiting, hasRoom] at started
          have noQueue : forwarder.queue = [] := by
            unfold receive? at received
            rw [noWaiting] at received
            cases queued : forwarder.queue with
            | nil => rfl
            | cons entry rest => simp [queued] at received
          simp [unsent, noSends, noWaiting, noQueue]

/-- When the worker stops it has sent everything. -/
theorem Sends.steps
    {limit : Nat}
    (sends : forwarder.Sends topic before broker taken)
    (enough : forwarder.work ≤ limit)
    (metrics : Metrics) :
    ∃ stopped counted, ∃ sent : List Entry,
      forwarder.steps limit broker metrics =
        (stopped, .memory ⟨before ++ sent.map (recordOf topic), 0⟩, counted) ∧
      sent.Perm taken := by
  induction limit generalizing forwarder broker metrics with
  | zero =>
      obtain ⟨_, _, sent, rfl, permuted⟩ := sends
      have nothing : forwarder.unsent = [] := by
        unfold work at enough
        apply List.eq_nil_of_length_eq_zero
        rw [unsent, List.length_append, List.length_append]
        omega
      rw [nothing, List.append_nil] at permuted
      exact ⟨_, _, sent, rfl, permuted⟩
  | succ limit inductionHypothesis =>
      unfold Forwarder.steps
      cases stepped : forwarder.step? broker metrics with
      | none =>
          have nothing := sends.unsent_eq_nil stepped
          obtain ⟨_, _, sent, rfl, permuted⟩ := sends
          rw [nothing, List.append_nil] at permuted
          exact ⟨_, _, sent, rfl, permuted⟩
      | some result =>
          obtain ⟨after, grown, counted⟩ := result
          obtain ⟨nowSends, less⟩ := sends.step stepped
          exact inductionHypothesis nowSends (by omega) counted

theorem Sends.run
    (sends : forwarder.Sends topic before broker taken)
    (metrics : Metrics) :
    ∃ stopped counted, ∃ sent : List Entry,
      forwarder.run broker metrics =
        (stopped, .memory ⟨before ++ sent.map (recordOf topic), 0⟩, counted) ∧
      sent.Perm taken :=
  sends.steps (Nat.le_refl _) metrics

end Forwarder
end EventRelay
