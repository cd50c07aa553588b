import EventRelay.Proofs.Metrics
import EventRelay.Proofs.Relay.Forwarding

/-!
# The accounts of a forwarder

What a forwarder has taken waits in its queue or with its worker, or was passed to the
broker, in the order in which it was taken.  What was passed to the broker was answered
or is under way.  The counters tell how many answers were good, how many were not, and
how many records were turned away.
-/

namespace EventRelay

open Forwarder (recordOf)

/-! ## Queues -/

/-- A record that is offered is turned away from a closed or full queue, or taken. -/
theorem Forwarder.offer_cases (forwarder : Forwarder) (entry : Entry) :
    ((forwarder.isClosed = true ∨ forwarder.capacity ≤ forwarder.queue.length) ∧
      forwarder.offer entry = (false, forwarder)) ∨
    (forwarder.isClosed = false ∧ forwarder.queue.length < forwarder.capacity ∧
      forwarder.offer entry = (true, { forwarder with queue := forwarder.queue ++ [entry] })) := by
  unfold offer
  by_cases refused : forwarder.isClosed = true ∨ forwarder.capacity ≤ forwarder.queue.length
  · rw [if_pos refused]
    exact Or.inl ⟨refused, rfl⟩
  · rw [if_neg refused]
    rw [not_or, Bool.not_eq_true, Nat.not_le] at refused
    exact Or.inr ⟨refused.1, refused.2, rfl⟩

/-- A send that ends is one of those under way. -/
theorem Forwarder.complete?_eq_some
    {forwarder after : Forwarder}
    {index : Nat}
    {entry : Entry}
    (completed : forwarder.complete? index = some (entry, after)) :
    (entry :: after.sending).Perm forwarder.sending ∧
      after = { forwarder with sending := after.sending } := by
  unfold complete? at completed
  split at completed
  · cases completed
  · rename_i found
    cases completed
    obtain ⟨inside, rfl⟩ := List.getElem?_eq_some_iff.mp found
    exact ⟨List.getElem_cons_eraseIdx_perm inside, rfl⟩

/-- The worker starts a send, takes a record off the queue, or lets the oldest send under
way end. -/
theorem Forwarder.step?_cases
    {forwarder after : Forwarder}
    {broker grown : Broker}
    {metrics counted : Metrics}
    (stepped : forwarder.step? broker metrics = some (after, grown, counted)) :
    (forwarder.start? = some after ∧ grown = broker ∧ counted = metrics) ∨
      (forwarder.receive? = some after ∧ grown = broker ∧ counted = metrics) ∨
      ∃ entry result, forwarder.complete? 0 = some (entry, after) ∧
        counted = count result metrics := by
  unfold step? at stepped
  split at stepped
  · rename_i begun
    cases stepped
    exact Or.inl ⟨begun, rfl, rfl⟩
  · split at stepped
    · rename_i received
      cases stepped
      exact Or.inr (Or.inl ⟨received, rfl, rfl⟩)
    · unfold answer? at stepped
      split at stepped
      · cases stepped
      · rename_i entry _ completed
        split at stepped
        · cases stepped
        · rename_i result _ _
          cases stepped
          exact Or.inr (Or.inr ⟨entry, result, completed, rfl⟩)

namespace Replication

/-! ## What is counted -/

/-- The counters have grown by the records that were turned away, and by the sends that
ended well and those that failed. -/
structure Counted
    (before after : Metrics)
    (dropped : List Entry)
    (answered : List (Record × Except BrokerError Unit)) : Prop where
  forwarded_grows :
    Grows before.forwarded after.forwarded (answered.countP fun answer => answer.2.isOk)
  forwardFailures_grows : Grows before.forwardFailures after.forwardFailures
    (answered.countP fun answer => !answer.2.isOk)
  forwardDropped_grows : Grows before.forwardDropped after.forwardDropped dropped.length

variable {before after : Metrics} {dropped : List Entry}
variable {answered : List (Record × Except BrokerError Unit)}

theorem counted_nil (metrics : Metrics) : Counted metrics metrics [] [] :=
  ⟨.refl _, .refl _, .refl _⟩

theorem Counted.drop
    (counted : Counted before after dropped answered)
    (entry : Entry) :
    Counted before after.recordForwardDropped (dropped ++ [entry]) answered where
  forwarded_grows := counted.forwarded_grows
  forwardFailures_grows := counted.forwardFailures_grows
  forwardDropped_grows := counted.forwardDropped_grows.concat entry

/-- A send that ends is counted by its result. -/
theorem Counted.answer
    (counted : Counted before after dropped answered)
    (record : Record)
    (result : Except BrokerError Unit) :
    Counted before (Forwarder.count result after) dropped (answered ++ [(record, result)]) := by
  have forwarded_grows := counted.forwarded_grows.countP_concat (record, result)
  have forwardFailures_grows := counted.forwardFailures_grows.countP_concat (record, result)
  cases result <;> exact ⟨forwarded_grows, forwardFailures_grows, counted.forwardDropped_grows⟩

/-! ## What is sent -/

/-- What a forwarder has taken is passed to the broker or still with the worker or in
the queue, in this order.  What is passed to the broker is answered or under way. -/
structure Carries
    (topic : String)
    (limit : Nat)
    (forwarder : Forwarder)
    (taken : List Entry)
    (started : List Record)
    (answered : List (Record × Except BrokerError Unit)) : Prop where
  topic_eq : forwarder.topic = topic
  maxSending_eq : forwarder.maxSending = limit
  sending_le : forwarder.sending.length ≤ limit
  started_append :
    started ++ (forwarder.waiting.toList ++ forwarder.queue).map (recordOf topic) =
      taken.map (recordOf topic)
  answered_perm :
    (answered.map Prod.fst ++ forwarder.sending.map (recordOf topic)).Perm started

variable {topic : String} {limit : Nat} {forwarder next : Forwarder} {entry : Entry}
variable {taken : List Entry} {started : List Record}

theorem carries_initial (topic : String) (capacity maxSending : Nat) :
    Carries topic (max maxSending 1) (.initial topic capacity maxSending) [] [] [] where
  topic_eq := rfl
  maxSending_eq := rfl
  sending_le := Nat.zero_le _
  started_append := rfl
  answered_perm := List.Perm.nil

theorem Carries.take
    (carries : Carries topic limit forwarder taken started answered)
    (entry : Entry) :
    Carries topic limit { forwarder with queue := forwarder.queue ++ [entry] }
      (taken ++ [entry]) started answered where
  topic_eq := carries.topic_eq
  maxSending_eq := carries.maxSending_eq
  sending_le := carries.sending_le
  started_append := by
    simp only [List.map_append, ← carries.started_append, List.append_assoc]
  answered_perm := carries.answered_perm

theorem Carries.close
    (carries : Carries topic limit forwarder taken started answered) :
    Carries topic limit forwarder.close taken started answered :=
  ⟨carries.topic_eq, carries.maxSending_eq, carries.sending_le, carries.started_append,
    carries.answered_perm⟩

theorem Carries.fetch
    (carries : Carries topic limit forwarder taken started answered)
    (received : forwarder.receive? = some next) :
    Carries topic limit next taken started answered := by
  obtain ⟨topic_eq, maxSending_eq, sending_le, started_append, answered_perm⟩ := carries
  obtain ⟨entry, rest, noWaiting, queued, rfl⟩ := Forwarder.receive?_eq_some received
  rw [noWaiting, queued] at started_append
  exact ⟨topic_eq, maxSending_eq, sending_le, started_append, answered_perm⟩

/-- The record that is waiting is the next one to be passed to the broker. -/
theorem Carries.send
    (carries : Carries topic limit forwarder taken started answered)
    (begun : forwarder.start? = some next) :
    Carries topic limit next taken
      (started ++ forwarder.waiting.toList.map forwarder.record) answered := by
  obtain ⟨rfl, rfl, sending_le, started_append, answered_perm⟩ := carries
  obtain ⟨entry, isWaiting, room, rfl⟩ := Forwarder.start?_eq_some begun
  rw [isWaiting] at started_append ⊢
  refine ⟨rfl, rfl, ?_, ?_, ?_⟩
  · rw [List.length_append, List.length_singleton]
    omega
  · rw [← started_append, List.append_assoc]
    rfl
  · rw [List.map_append, ← List.append_assoc]
    exact answered_perm.append_right _

theorem Carries.answer
    (carries : Carries topic limit forwarder taken started answered)
    {index : Nat}
    (completed : forwarder.complete? index = some (entry, next))
    (result : Except BrokerError Unit) :
    Carries topic limit next taken started (answered ++ [(next.record entry, result)]) := by
  obtain ⟨topic_eq, maxSending_eq, sending_le, started_append, answered_perm⟩ := carries
  obtain ⟨permuted, next_eq⟩ := Forwarder.complete?_eq_some completed
  have record_eq : next.record entry = recordOf topic entry := by
    rw [next_eq, ← topic_eq]
    rfl
  have length_eq := permuted.length_eq
  rw [List.length_cons] at length_eq
  rw [record_eq]
  generalize next.sending = sending at permuted next_eq length_eq
  subst next_eq
  refine ⟨topic_eq, maxSending_eq, ?_, started_append, ?_⟩
  · dsimp only
    omega
  · rw [List.map_append, List.append_assoc]
    exact ((permuted.map (recordOf topic)).append_left _).trans answered_perm

end Replication
end EventRelay
