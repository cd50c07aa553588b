import EventRelay.Channel.Basic

/-!
# Offering with retries

A message that is refused for the time being is offered again after a delay,
which doubles from one retry to the next up to thirty times, until the retries
are used up.  Delays are counted in nanoseconds and hold less than `2 ^ 64`
seconds.
-/

namespace EventRelay

/-- Why a message is not published. -/
inductive PublishError where
  /-- All retries are used up. -/
  | exhausted (retries : Nat)
  /-- The channel is closed. -/
  | closed
  /-- The channel would pass its greatest position. -/
  | maxPositionExceeded
deriving DecidableEq, Repr

/-- The name of the kind of error. -/
def PublishError.kind : PublishError → String
  | .exhausted _ => "Exhausted"
  | .closed => "Closed"
  | .maxPositionExceeded => "MaxPositionExceeded"

/-- The text of the error. -/
def PublishError.message : PublishError → String
  | .exhausted retries => "Transport not accepting after " ++ toString retries ++ " retries"
  | .closed => "Transport closed"
  | .maxPositionExceeded => "Transport max position exceeded"

/-- Whether no later message can be published either. -/
def PublishError.isFatal : PublishError → Bool
  | .exhausted _ => false
  | .closed => true
  | .maxPositionExceeded => true

namespace Retry

/-- How often and after which delays to offer again. -/
structure Policy where
  /-- The number of retries. -/
  maxRetries : Nat
  /-- The delay before the first retry, in nanoseconds. -/
  initialBackoff : Nat
deriving DecidableEq, Repr

/-- Ten retries from one microsecond on. -/
def Policy.standard : Policy where
  maxRetries := 10
  initialBackoff := 1000

/-- The nanoseconds of a second. -/
def second : Nat := 1000000000

/-- The number of different counts of whole seconds. -/
def secondsBound : Nat := 0x10000000000000000

/-- Why a delay cannot be computed. -/
inductive Overflow where
  /-- A single delay is too long. -/
  | product
  /-- The delays together are too long. -/
  | sum
deriving DecidableEq, Repr

/-- The text of the overflow. -/
def Overflow.message : Overflow → String
  | .product => "overflow when multiplying duration by scalar"
  | .sum => "overflow in iter::sum over durations"

/-- The delay before a retry, of which the first has number zero. -/
def Policy.backoff (policy : Policy) (attempt : Nat) : Except Overflow Nat :=
  let delay := policy.initialBackoff <<< min attempt 30
  if delay / second < secondsBound then .ok delay else .error .product

/-- Add the delays before a number of retries to whole seconds and
nanoseconds.  The whole seconds of each delay are added at once, and the
nanoseconds are carried over at the end. -/
def Policy.sumFrom (policy : Policy) :
    (count attempt seconds nanoseconds : Nat) → Except Overflow Nat
  | 0, _, seconds, nanoseconds =>
      if seconds + nanoseconds / second < secondsBound then
        .ok (seconds * second + nanoseconds)
      else .error .sum
  | count + 1, attempt, seconds, nanoseconds =>
      match policy.backoff attempt with
      | .error overflow => .error overflow
      | .ok delay =>
          let seconds := seconds + delay / second
          if seconds < secondsBound then
            policy.sumFrom count (attempt + 1) seconds (nanoseconds + delay % second)
          else .error .sum

/-- The sum of the delays before all retries. -/
def Policy.totalBackoff (policy : Policy) : Except Overflow Nat :=
  policy.sumFrom policy.maxRetries 0 0 0

/-- A message that was accepted. -/
structure Delivery where
  /-- The channel's position after the message. -/
  position : Nat
  /-- The number of retries that it took. -/
  retries : Nat
deriving DecidableEq, Repr

variable {σ : Type}

/-- Offer with `remaining` retries left after a number of retries.  Before each
further offer `onRetry` is told the number of the retry and the delay that
follows. -/
def offerFrom
    (policy : Policy)
    (offer : σ → Offer × σ)
    (onRetry : Nat → Except Overflow Nat → σ → σ) :
    (remaining retries : Nat) → σ → Except PublishError Delivery × σ
  | remaining, retries, state =>
      match offer state with
      | (.accepted position, state) => (.ok ⟨position, retries⟩, state)
      | (.closed, state) => (.error .closed, state)
      | (.maxPositionExceeded, state) => (.error .maxPositionExceeded, state)
      | (_, state) =>
          match remaining with
          | 0 => (.error (.exhausted retries), state)
          | remaining + 1 =>
              offerFrom policy offer onRetry remaining (retries + 1)
                (onRetry retries (policy.backoff retries) state)

/-- Offer a message with retries by a policy. -/
def Policy.offer
    (policy : Policy)
    (offer : σ → Offer × σ)
    (onRetry : Nat → Except Overflow Nat → σ → σ)
    (state : σ) :
    Except PublishError Delivery × σ :=
  offerFrom policy offer onRetry policy.maxRetries 0 state

end Retry
end EventRelay
