import EventRelay.Proofs.Channel.Finality
import Mathlib.Algebra.Group.Nat.Defs
import Mathlib.Data.Nat.Find

/-!
# What offering with retries does

A message is offered until an offer is not refused for the time being, or the
retries are used up.  The number of the last offer says how many offers, retries
and delays there are, whatever the publisher answers.  On a channel on which
nobody else offers meanwhile, the position moves on by the size of the message
if the message is accepted, and not at all if it is not.
-/

namespace EventRelay
namespace Retry

/-! ## The last offer -/

/-- What offering ends with if the offer after a number of retries is the last. -/
def outcome (answer : Offer) (retries : Nat) : Except PublishError Delivery :=
  match answer with
  | .accepted position => .ok ⟨position, retries⟩
  | .closed => .error .closed
  | .maxPositionExceeded => .error .maxPositionExceeded
  | .backPressured => .error (.exhausted retries)
  | .adminAction => .error (.exhausted retries)

/-- Among answers to offers, the one that ends offering: all before it refuse for
the time being, and it does not, or no retry is left. -/
structure Policy.EndsAt (policy : Policy) (answers : Nat → Offer) (last : Nat) : Prop where
  le : last ≤ policy.maxRetries
  refused : ∀ earlier < last, (answers earlier).isTransient = true
  ends : (answers last).isTransient = false ∨ last = policy.maxRetries

/-- Some answer ends offering. -/
theorem Policy.exists_endsAt (policy : Policy) (answers : Nat → Offer) :
    ∃ last, policy.EndsAt answers last := by
  classical
  have ended : ∃ last, (answers last).isTransient = false ∨ last = policy.maxRetries :=
    ⟨policy.maxRetries, Or.inr rfl⟩
  refine ⟨Nat.find ended, Nat.find_min' ended (Or.inr rfl), ?_, Nat.find_spec ended⟩
  intro earlier before
  have goesOn := Nat.find_min ended before
  simpa using (not_or.mp goesOn).1

section Runs

variable {σ : Type} {policy : Policy} {offer : σ → Offer × σ}
variable {onRetry : Nat → Except Overflow Nat → σ → σ}

/-- The state in which the offer after a number of retries is made. -/
def stateBefore
    (policy : Policy)
    (offer : σ → Offer × σ)
    (onRetry : Nat → Except Overflow Nat → σ → σ)
    (state : σ) :
    (retries : Nat) → σ
  | 0 => state
  | retry + 1 =>
      onRetry retry (policy.backoff retry)
        (offer (stateBefore policy offer onRetry state retry)).2

/-- An offer that is the last one gives its outcome. -/
theorem offerFrom_of_last
    {remaining retries : Nat}
    {state : σ}
    (last : (offer state).1.isTransient = false ∨ remaining = 0) :
    offerFrom policy offer onRetry remaining retries state =
      (outcome (offer state).1 retries, (offer state).2) := by
  rw [offerFrom]
  cases offered : offer state with
  | mk answer after =>
      rw [offered] at last
      cases answer with
      | accepted | closed | maxPositionExceeded => rfl
      | backPressured | adminAction =>
          rcases last with settled | rfl
          · cases settled
          · rfl

/-- After an offer that is refused for the time being comes a retry. -/
theorem offerFrom_of_isTransient
    {state : σ}
    (refused : (offer state).1.isTransient = true)
    (remaining retries : Nat) :
    offerFrom policy offer onRetry (remaining + 1) retries state =
      offerFrom policy offer onRetry remaining (retries + 1)
        (onRetry retries (policy.backoff retries) (offer state).2) := by
  rw [offerFrom]
  cases offered : offer state with
  | mk answer after =>
      rw [offered] at refused
      cases answer with
      | accepted | closed | maxPositionExceeded => cases refused
      | backPressured | adminAction => rfl

/-- Offers that are refused for the time being lead to the one after them. -/
theorem offerFrom_stateBefore
    {state : σ}
    {retries : Nat}
    (refused : ∀ earlier < retries,
      (offer (stateBefore policy offer onRetry state earlier)).1.isTransient = true)
    (remaining : Nat) :
    offerFrom policy offer onRetry (remaining + retries) 0 state =
      offerFrom policy offer onRetry remaining retries
        (stateBefore policy offer onRetry state retries) := by
  induction retries generalizing remaining with
  | zero => rfl
  | succ retry inductionHypothesis =>
      have earlier := inductionHypothesis
        (fun before less => refused before (Nat.lt_succ_of_lt less)) (remaining + 1)
      rw [← Nat.add_assoc, Nat.add_right_comm, earlier,
        offerFrom_of_isTransient (refused retry (Nat.lt_succ_self retry))]
      rfl

/-- Offering with retries gives the outcome of the answer that ends it. -/
theorem offer_eq_outcome
    {state : σ}
    {last : Nat}
    (endsAt : policy.EndsAt
      (fun retries => (offer (stateBefore policy offer onRetry state retries)).1) last) :
    policy.offer offer onRetry state =
      (outcome (offer (stateBefore policy offer onRetry state last)).1 last,
        (offer (stateBefore policy offer onRetry state last)).2) := by
  obtain ⟨remaining, parts⟩ := Nat.exists_eq_add_of_le' endsAt.le
  have ends : (offer (stateBefore policy offer onRetry state last)).1.isTransient = false ∨
      remaining = 0 := by
    refine endsAt.ends.imp_right fun usedUp => ?_
    omega
  rw [Policy.offer, parts, offerFrom_stateBefore endsAt.refused, offerFrom_of_last ends]

end Runs

/-! ## Counting offers, retries and delays -/

/-- What happens while a message is offered. -/
structure Diary where
  /-- The messages that were offered. -/
  offered : List Bytes
  /-- The numbers of the retries. -/
  retries : List Nat
  /-- The delays before the retries. -/
  delays : List (Except Overflow Nat)

namespace Diary

/-- Nothing has happened. -/
def empty : Diary where
  offered := []
  retries := []
  delays := []

/-- Offer a message to a publisher that gives its answers in order. -/
def offer (answers : Nat → Offer) (message : Bytes) (diary : Diary) : Offer × Diary :=
  (answers diary.offered.length, { diary with offered := diary.offered ++ [message] })

/-- Enter a retry and its delay. -/
def retry (retry : Nat) (delay : Except Overflow Nat) (diary : Diary) : Diary :=
  { diary with retries := diary.retries ++ [retry], delays := diary.delays ++ [delay] }

/-- The diary before the offer after a number of retries. -/
theorem stateBefore_eq
    (policy : Policy)
    (answers : Nat → Offer)
    (message : Bytes)
    (retries : Nat) :
    stateBefore policy (offer answers message) retry empty retries =
      ⟨List.replicate retries message, List.range retries,
        (List.range retries).map policy.backoff⟩ := by
  induction retries with
  | zero => rfl
  | succ number inductionHypothesis =>
      rw [stateBefore, inductionHypothesis]
      simp [offer, retry, List.range_succ, List.replicate_succ']

end Diary

/-- Offering a message to a publisher that gives its answers in order. -/
def Policy.diaryOf (policy : Policy) (answers : Nat → Offer) (message : Bytes) :
    Except PublishError Delivery × Diary :=
  policy.offer (Diary.offer answers message) Diary.retry Diary.empty

/-- No delay before a retry is too long. -/
def Policy.Fits (policy : Policy) : Prop :=
  ∀ retry < policy.maxRetries, policy.backoff retry ≠ .error .product

instance (policy : Policy) : Decidable policy.Fits :=
  inferInstanceAs (Decidable (∀ retry < policy.maxRetries,
    policy.backoff retry ≠ .error .product))

/-- The delay before a retry is doubled at most thirty times. -/
theorem Policy.Fits.backoff_eq
    {policy : Policy}
    (fits : policy.Fits)
    {retry : Nat}
    (isRetry : retry < policy.maxRetries) :
    policy.backoff retry = .ok (policy.initialBackoff * 2 ^ min retry 30) := by
  have inRange := fits retry isRetry
  unfold backoff at inRange ⊢
  dsimp only at inRange ⊢
  split
  · rw [Nat.shiftLeft_eq]
  · rename_i tooLong
    exact absurd (if_neg tooLong) inRange

/-- What has happened when the offer after a number of retries was the last: the
message was offered once more than that, and before every retry there was its
delay. -/
structure Policy.Retries (policy : Policy) (message : Bytes) (last : Nat) (diary : Diary) :
    Prop where
  offered_eq : diary.offered = List.replicate (last + 1) message
  retries_eq : diary.retries = List.range last
  delays_eq : diary.delays =
    (List.range last).map fun retry => .ok (policy.initialBackoff * 2 ^ min retry 30)

/-- The diary at the end: one more offer than retries, and the delay before each retry
as it is computed. -/
theorem Policy.EndsAt.diaryOf_eq_diary
    {policy : Policy}
    {answers : Nat → Offer}
    {last : Nat}
    (endsAt : policy.EndsAt answers last)
    (message : Bytes) :
    policy.diaryOf answers message =
      (outcome (answers last) last,
        ⟨List.replicate (last + 1) message, List.range last,
          (List.range last).map policy.backoff⟩) := by
  have answered : ∀ retries, (Diary.offer answers message (stateBefore policy
      (Diary.offer answers message) Diary.retry Diary.empty retries)).1 = answers retries := by
    intro retries
    simp [Diary.stateBefore_eq, Diary.offer]
  have offered : policy.diaryOf answers message = _ :=
    offer_eq_outcome (by simpa only [answered] using endsAt)
  rw [answered, Diary.stateBefore_eq, Diary.offer] at offered
  rw [offered, List.replicate_succ']

theorem Policy.EndsAt.diaryOf_eq
    {policy : Policy}
    {answers : Nat → Offer}
    {last : Nat}
    (endsAt : policy.EndsAt answers last)
    (fits : policy.Fits)
    (message : Bytes) :
    (policy.diaryOf answers message).1 = outcome (answers last) last ∧
      policy.Retries message last (policy.diaryOf answers message).2 := by
  rw [endsAt.diaryOf_eq_diary message]
  refine ⟨rfl, rfl, rfl, ?_⟩
  apply List.map_congr_left
  intro retry isRetry
  exact fits.backoff_eq (Nat.lt_of_lt_of_le (List.mem_range.mp isRetry) endsAt.le)

end Retry

/-! ## On a channel -/

namespace Channel

/-- A call offers a message. -/
def Call.IsOffer : Call → Prop
  | .offer _ _ => True
  | _ => False

/-- Only an accepted offer moves the position. -/
theorem position_perform
    {call : Call}
    (notOffer : ¬call.IsOffer)
    (channel : Channel) :
    (channel.perform call).position = channel.position := by
  cases call with
  | publication | subscribe | unsubscribe | close => rfl
  | offer => exact absurd trivial notOffer
  | poll subscription limit =>
      rw [perform, poll]
      split <;> rfl

theorem position_performAll
    {calls : List Call}
    (notOffers : ∀ call ∈ calls, ¬call.IsOffer)
    (channel : Channel) :
    (channel.performAll calls).position = channel.position := by
  induction calls generalizing channel with
  | nil => rfl
  | cons call calls inductionHypothesis =>
      obtain ⟨first, others⟩ := List.forall_mem_cons.mp notOffers
      rw [performAll, List.foldl_cons, ← position_perform first channel]
      exact inductionHypothesis others _

/-- An offer that is not accepted leaves the position, and one that is accepted
answers with the new position. -/
theorem position_offer (channel : Channel) (session : UInt32) (message : Bytes) :
    (∀ position, (channel.offer session message).1 = .accepted position →
      position = channel.positionAfter message ∧
        (channel.offer session message).2.position = position) ∧
    ((∀ position, (channel.offer session message).1 ≠ .accepted position) →
      (channel.offer session message).2.position = channel.position) := by
  have offered := offered_offer channel session message
  generalize channel.offer session message = answered at offered ⊢
  cases offered with
  | closed | maxPositionExceeded | backPressured | adminAction =>
      refine ⟨fun _ accepted => ?_, fun _ => rfl⟩
      cases accepted
  | accepted =>
      refine ⟨fun position accepted => ?_, fun refused => absurd rfl (refused _)⟩
      cases accepted
      exact ⟨rfl, rfl⟩

/-- Refused offers, and what others do between them, leave the position. -/
theorem stateBefore_keeps
    {channel : Channel}
    {policy : Retry.Policy}
    {session : UInt32}
    {message : Bytes}
    {meanwhile : Nat → List Call}
    (notOffers : ∀ retry, ∀ call ∈ meanwhile retry, ¬call.IsOffer)
    {retries : Nat}
    (refused : ∀ earlier < retries,
      ((Retry.stateBefore policy (fun channel => channel.offer session message)
        (fun retry _ channel => channel.performAll (meanwhile retry)) channel earlier).offer
          session message).1.isTransient = true) :
    let before := Retry.stateBefore policy (fun channel => channel.offer session message)
      (fun retry _ channel => channel.performAll (meanwhile retry)) channel retries
    before.position = channel.position ∧ before.settings = channel.settings := by
  induction retries with
  | zero => exact ⟨rfl, rfl⟩
  | succ retry inductionHypothesis =>
      obtain ⟨position_eq, settings_eq⟩ := inductionHypothesis
        fun earlier less => refused earlier (Nat.lt_succ_of_lt less)
      have isTransient := refused retry (Nat.lt_succ_self retry)
      rw [Retry.stateBefore]
      generalize Retry.stateBefore policy _ _ channel retry = before at *
      dsimp only at position_eq settings_eq isTransient ⊢
      constructor
      · rw [position_performAll (notOffers retry), (position_offer before session message).2,
          position_eq]
        intro position accepted
        rw [accepted] at isTransient
        cases isTransient
      · rw [(follows_performAll _ _).settings_eq,
          (follows_offer before session message).settings_eq, settings_eq]

/-- What offering a message with retries does to the position: an accepted message
moves it by its size, and any other leaves it. -/
structure MovesOnce
    (channel : Channel) (message : Bytes)
    (result : Except PublishError Retry.Delivery) (after : Channel) : Prop where
  accepted : ∀ delivery, result = .ok delivery →
    after.position = channel.position + channel.sizeOf message ∧
      delivery.position = after.position
  refused : ∀ error, result = .error error → after.position = channel.position

theorem movesOnce_offerWithRetries
    {channel : Channel}
    {policy : Retry.Policy}
    {meanwhile : Nat → List Call}
    (notOffers : ∀ retry, ∀ call ∈ meanwhile retry, ¬call.IsOffer)
    (session : UInt32)
    (message : Bytes) :
    channel.MovesOnce message (channel.offerWithRetries policy session message meanwhile).1
      (channel.offerWithRetries policy session message meanwhile).2 := by
  obtain ⟨last, endsAt⟩ := policy.exists_endsAt fun retries =>
    ((Retry.stateBefore policy (fun channel => channel.offer session message)
      (fun retry _ channel => channel.performAll (meanwhile retry)) channel retries).offer
        session message).1
  obtain ⟨position_eq, settings_eq⟩ := stateBefore_keeps notOffers endsAt.refused
  rw [offerWithRetries, Retry.offer_eq_outcome endsAt]
  generalize Retry.stateBefore policy _ _ channel last = before at *
  obtain ⟨whenAccepted, whenRefused⟩ := position_offer before session message
  have size_eq : before.sizeOf message = channel.sizeOf message := by
    rw [sizeOf, sizeOf, settings_eq]
  cases answered : (before.offer session message).1 with
  | accepted position =>
      obtain ⟨position_after, moved⟩ := whenAccepted position answered
      constructor
      · intro delivery accepted
        cases accepted
        rw [moved, position_after, positionAfter, position_eq, size_eq]
        exact ⟨rfl, rfl⟩
      · intro error failed
        cases failed
  | closed | maxPositionExceeded | backPressured | adminAction =>
      constructor
      · intro delivery accepted
        cases accepted
      · intro error _
        rw [whenRefused (by simp [answered]), position_eq]

end Channel

namespace Retry

/-- Offering with retries follows its policy, whatever the publisher answers.  If the
first answer that does not refuse for the time being is among the first offer and the
retries, it is the last one and gives the result; otherwise all retries are used up.
On a channel on which nobody else offers meanwhile, the position moves by the size of
the message if it is accepted, and not at all if it is not. -/
theorem follows_policy
    {policy : Policy}
    (fits : policy.Fits)
    (message : Bytes) :
    (∀ answers last, last ≤ policy.maxRetries →
      (∀ earlier < last, (answers earlier).isTransient = true) →
      (answers last).isTransient = false →
        policy.Retries message last (policy.diaryOf answers message).2 ∧
        (∀ position, answers last = .accepted position →
          (policy.diaryOf answers message).1 = .ok ⟨position, last⟩) ∧
        (answers last = .closed → (policy.diaryOf answers message).1 = .error .closed) ∧
        (answers last = .maxPositionExceeded →
          (policy.diaryOf answers message).1 = .error .maxPositionExceeded)) ∧
    (∀ answers, (∀ retries ≤ policy.maxRetries, (answers retries).isTransient = true) →
      policy.Retries message policy.maxRetries (policy.diaryOf answers message).2 ∧
        (policy.diaryOf answers message).1 = .error (.exhausted policy.maxRetries)) ∧
    ∀ channel session meanwhile, (∀ retry, ∀ call ∈ meanwhile retry, ¬call.IsOffer) →
      Channel.MovesOnce channel message
        (channel.offerWithRetries policy session message meanwhile).1
        (channel.offerWithRetries policy session message meanwhile).2 := by
  refine ⟨?_, ?_, ?_⟩
  · intro answers last le refused settled
    have endsAt : policy.EndsAt answers last := ⟨le, refused, Or.inl settled⟩
    obtain ⟨result, retried⟩ := endsAt.diaryOf_eq fits message
    rw [result]
    refine ⟨retried, ?_, ?_, ?_⟩
    · rintro position answered
      rw [answered, outcome]
    · intro answered
      rw [answered, outcome]
    · intro answered
      rw [answered, outcome]
  · intro answers refused
    have endsAt : policy.EndsAt answers policy.maxRetries :=
      ⟨Nat.le_refl _, fun earlier before => refused earlier (Nat.le_of_lt before), Or.inr rfl⟩
    obtain ⟨result, retried⟩ := endsAt.diaryOf_eq fits message
    refine ⟨retried, ?_⟩
    have usedUp := refused policy.maxRetries (Nat.le_refl _)
    rw [result]
    cases answered : answers policy.maxRetries with
    | accepted | closed | maxPositionExceeded =>
        rw [answered] at usedUp
        cases usedUp
    | backPressured | adminAction => rfl
  · intro channel session meanwhile notOffers
    exact Channel.movesOnce_offerWithRetries notOffers session message

/-- A message that is accepted at the second retry, and one that a channel accepts while
somebody subscribes and polls. -/
theorem follows_policy_standard :
    Policy.standard.Fits ∧
      (Policy.standard.diaryOf
          (fun retries => if retries < 2 then .backPressured else .accepted 128) [7]).1 =
        .ok ⟨128, 2⟩ ∧
      Policy.standard.Retries [7] 2 (Policy.standard.diaryOf
        (fun retries => if retries < 2 then .backPressured else .accepted 128) [7]).2 ∧
      Channel.MovesOnce (Channel.initial Channel.narrow) [7]
        ((Channel.initial Channel.narrow).offerWithRetries Policy.standard 1 [7]
          fun retry => [.subscribe, .poll 0 retry]).1
        ((Channel.initial Channel.narrow).offerWithRetries Policy.standard 1 [7]
          fun retry => [.subscribe, .poll 0 retry]).2 := by
  have fits : Policy.standard.Fits := by decide
  obtain ⟨whenSettled, _, onChannel⟩ := follows_policy fits [7]
  obtain ⟨retried, accepted, _⟩ := whenSettled
    (fun retries => if retries < 2 then .backPressured else .accepted 128) 2
    (by decide) (by decide) rfl
  refine ⟨fits, accepted 128 rfl, retried, onChannel _ 1 _ ?_⟩
  simp [Channel.Call.IsOffer]

end Retry
end EventRelay
