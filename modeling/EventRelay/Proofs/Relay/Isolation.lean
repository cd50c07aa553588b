import EventRelay.Proofs.Relay.Front

/-!
# What publishers and subscribers see of store and broker

Store and broker may answer as they like, or never, and recorder and forwarder may be at
work at any time, also while calls that publish events wait for their next offer.  None of
it is seen by those who publish and subscribe: two relays with the same settings and the same
publisher, of which the same is asked, give the same answers, hand the same events to their
subscribers and count them alike.
-/

namespace EventRelay
namespace Isolation

open Relay (Call Progress Work Parts)

/-! ## What is asked for -/

/-- A relay with the calls that were begun on it, in order.  A call that is over leaves its
place empty. -/
structure Traffic where
  relay : Relay
  calls : List (Option Call)

/-- What publishers and subscribers ask of a relay. -/
inductive Request where
  /-- Publish an event, with nothing between its offers. -/
  | publish (event : Event)
  /-- Begin a call that publishes an event. -/
  | call (event : Event)
  /-- Make an offer of a call. -/
  | offer (index : Nat)
  /-- Join with a handler. -/
  | join (handler : Handler)
  /-- Let a subscriber poll once. -/
  | poll (index : Nat)
  /-- Tell a subscriber to leave. -/
  | leave (index : Nat)
  /-- Offer to another publisher from now on. -/
  | equip (publisher : Publisher)

/-- What a relay answers. -/
inductive Answer where
  /-- The result of publishing. -/
  | published (result : Except PublishError Unit)
  /-- How a call goes on. -/
  | called (progress : Progress)
  /-- The new subscriber. -/
  | joined (result : Except RelayError Listener)
  /-- The fragments that were read. -/
  | polled (fragments : List Fragment)
  /-- Nothing. -/
  | silent

/-- The call that goes on. -/
def callOf? : Progress → Option Call
  | .ended _ => none
  | .ongoing call => some call

namespace Traffic

/-- Do what is asked for. -/
def serve (traffic : Traffic) (latency : UInt64) : Request → Answer × Traffic
  | .publish event =>
      let (result, relay) := traffic.relay.publish latency event
      (.published result, { traffic with relay := relay })
  | .call event =>
      let (progress, relay) := traffic.relay.beginCall event
      (.called progress, ⟨relay, traffic.calls ++ [callOf? progress]⟩)
  | .offer index =>
      match traffic.calls[index]? with
      | some (some call) =>
          let (progress, relay) := traffic.relay.offerOnce latency call
          (.called progress, ⟨relay, traffic.calls.set index (callOf? progress)⟩)
      | _ => (.silent, traffic)
  | .join handler =>
      let (result, relay) := traffic.relay.join handler
      (.joined result, { traffic with relay := relay })
  | .poll index =>
      let (fragments, relay) := traffic.relay.pollOnce index
      (.polled fragments, { traffic with relay := relay })
  | .leave index => (.silent, { traffic with relay := traffic.relay.stopListener index })
  | .equip publisher =>
      (.silent, { traffic with relay := { traffic.relay with publisher := publisher } })

/-- Two relays with the same calls differ at most behind their fronts. -/
structure Same (left right : Traffic) : Prop where
  front : left.relay.SameFront right.relay
  calls_eq : left.calls = right.calls

end Traffic

/-- The same request has the same answer on both relays, however long it takes. -/
theorem Traffic.Same.serve
    {left right : Traffic}
    (same : Same left right)
    (latency other : UInt64)
    (request : Request) :
    (left.serve latency request).1 = (right.serve other request).1 ∧
      Same (left.serve latency request).2 (right.serve other request).2 := by
  obtain ⟨left, calls⟩ := left
  obtain ⟨right, _⟩ := right
  obtain ⟨front, rfl⟩ := same
  cases request with
  | publish event =>
      obtain ⟨result_eq, after⟩ := front.publish latency other event
      exact ⟨congrArg Answer.published result_eq, after, rfl⟩
  | call event =>
      obtain ⟨progress_eq, after⟩ := front.beginCall event
      exact ⟨congrArg Answer.called progress_eq, after,
        congrArg (fun progress => calls ++ [callOf? progress]) progress_eq⟩
  | offer index =>
      unfold Traffic.serve
      dsimp only
      split
      · rename_i call _
        obtain ⟨progress_eq, after⟩ := front.offerOnce latency other call
        exact ⟨congrArg Answer.called progress_eq, after,
          congrArg (fun progress => calls.set index (callOf? progress)) progress_eq⟩
      · exact ⟨rfl, front, rfl⟩
  | join handler =>
      obtain ⟨result_eq, after⟩ := front.join handler
      exact ⟨congrArg Answer.joined result_eq, after, rfl⟩
  | poll index =>
      obtain ⟨fragments_eq, after⟩ := front.pollOnce index
      exact ⟨congrArg Answer.polled fragments_eq, after, rfl⟩
  | leave index => exact ⟨rfl, front.stopListener index, rfl⟩
  | equip publisher => exact ⟨rfl, { front with publisher_eq := rfl }, rfl⟩

/-! ## What is seen -/

/-- What happens on a relay. -/
inductive Turn where
  /-- Something is asked for; the time that it takes is measured by the caller. -/
  | request (latency : UInt64) (request : Request)
  /-- Something happens behind the front. -/
  | work (work : Work)

/-- What is asked for in a turn. -/
def Turn.request? : Turn → Option Request
  | .request _ asked => some asked
  | .work _ => none

/-- What publishers and subscribers see after a request. -/
structure Seen where
  /-- The answer. -/
  answer : Answer
  /-- All subscribers, with the events that they have received. -/
  subscribers : List Subscriber
  /-- The counter of events that were offered. -/
  accepted : UInt64
  /-- The counter of events that were delivered. -/
  delivered : UInt64
  /-- The counter of events that were not published. -/
  publishFailures : UInt64
  /-- The counter of retries. -/
  offerRetries : UInt64

namespace Traffic

/-- What is seen with an answer. -/
def seen (traffic : Traffic) (answer : Answer) : Seen where
  answer := answer
  subscribers := traffic.relay.listeners.map Listener.subscriber
  accepted := traffic.relay.metrics.accepted
  delivered := traffic.relay.metrics.delivered
  publishFailures := traffic.relay.metrics.publishFailures
  offerRetries := traffic.relay.metrics.offerRetries

/-- What is seen after each request. -/
def trace (traffic : Traffic) : List Turn → List Seen
  | [] => []
  | .request latency request :: turns =>
      let (answer, after) := traffic.serve latency request
      after.seen answer :: after.trace turns
  | .work work :: turns => trace { traffic with relay := traffic.relay.act work } turns

/-- What is seen when nothing happens behind the front. -/
def quietTrace (traffic : Traffic) : List Request → List Seen
  | [] => []
  | request :: requests =>
      let (answer, after) := traffic.serve 0 request
      after.seen answer :: after.quietTrace requests

variable {left right : Traffic}

theorem Same.seen_eq (same : Same left right) (answer : Answer) :
    left.seen answer = right.seen answer := by
  obtain ⟨⟨_, _, _, listeners_eq, _, counts⟩, _⟩ := same
  unfold seen
  rw [listeners_eq, counts.accepted_eq, counts.delivered_eq, counts.publishFailures_eq,
    counts.offerRetries_eq]

/-- What happens behind the front is not seen, and neither is when it happens. -/
theorem Same.trace_eq_quietTrace (same : Same left right) (turns : List Turn) :
    left.trace turns = right.quietTrace (turns.filterMap Turn.request?) := by
  induction turns generalizing left right with
  | nil => rfl
  | cons turn turns inductionHypothesis =>
      cases turn with
      | work work =>
          have worked : Same { left with relay := left.relay.act work } right :=
            ⟨(left.relay.sameFront_act work).symm.trans same.front, same.calls_eq⟩
          exact inductionHypothesis worked
      | request latency request =>
          obtain ⟨answer_eq, after⟩ := same.serve latency 0 request
          calc
            left.trace (.request latency request :: turns) =
                (left.serve latency request).2.seen (left.serve latency request).1 ::
                  (left.serve latency request).2.trace turns := rfl
            _ = (right.serve 0 request).2.seen (right.serve 0 request).1 ::
                  (right.serve 0 request).2.quietTrace (turns.filterMap Turn.request?) := by
              rw [answer_eq, after.seen_eq, inductionHypothesis after]
            _ = right.quietTrace ((Turn.request latency request :: turns).filterMap
                  Turn.request?) := rfl

end Traffic

/-- Two relays with the same settings and the same publisher, of which the same is asked, are
seen to do the same, whatever their stores and brokers do. -/
theorem traces_agree
    {settings : Settings}
    {parts others : Parts}
    {disk opened otherDisk otherOpened : Disk}
    {relay other : Relay}
    (started : Relay.start settings parts disk = .ok (relay, opened))
    (otherStarted : Relay.start settings others otherDisk = .ok (other, otherOpened))
    (samePublisher : others.publisher? = parts.publisher?)
    {turns otherTurns : List Turn}
    (sameRequests : otherTurns.filterMap Turn.request? = turns.filterMap Turn.request?) :
    Traffic.trace ⟨other, []⟩ otherTurns = Traffic.trace ⟨relay, []⟩ turns := by
  have same : Traffic.Same ⟨relay, []⟩ ⟨other, []⟩ :=
    ⟨Relay.sameFront_of_start started otherStarted samePublisher, rfl⟩
  have itself : Traffic.Same ⟨other, []⟩ ⟨other, []⟩ := ⟨.refl other, rfl⟩
  -- Both are compared with a third run, as the turns of one need not match those of the other.
  rw [same.trace_eq_quietTrace, itself.trace_eq_quietTrace, sameRequests]

/-- A store that refuses everything and a broker that never answers. -/
def outOfOrder : Parts where
  store? := some (.broken true)
  publisher? := none
  broker? := some .hanging

/-- Two events are published and read, the second one after a retry.  The store refuses the
first one, the broker never answers, and both queues are closed before the second one. -/
def disturbed : List Turn :=
  [.request 1 (.join fun _ => .done), .request 2 (.publish Event.sample),
    .work (.turn .take rfl), .work (.turn .fetch rfl), .work (.turn .send rfl),
    .work (.turn .closeForwarder rfl), .request 3 (.call Event.sample),
    .request 4 (.equip (.scripted (.initial [] .backPressured))), .request 5 (.offer 0),
    .work (.turn (.store (.error .closed)) rfl), .work (.turn .closeRecorder rfl),
    .request 6 (.equip (.onChannel 1)), .request 7 (.offer 0), .request 8 (.poll 0)]

/-- The same, while both workers keep up with what is queued. -/
def undisturbed : List Turn :=
  (disturbed.filterMap Turn.request?).flatMap fun request =>
    [.request 0 request, .work (.settle (Log.activated Disk.vacant).1)]

theorem traces_agree_outOfOrder :
    let relay := Relay.onStore Settings.standard outOfOrder (.broken true)
    let other := Relay.onStore Settings.standard .own
      (.durable (Log.openedLog Settings.standard.logSettings Disk.vacant))
    Relay.start Settings.standard outOfOrder Disk.vacant = .ok (relay, Disk.vacant) ∧
      Relay.start Settings.standard .own Disk.vacant =
        .ok (other, (Log.activated Disk.vacant).1) ∧
      undisturbed.filterMap Turn.request? = disturbed.filterMap Turn.request? ∧
      Traffic.trace ⟨other, []⟩ undisturbed = Traffic.trace ⟨relay, []⟩ disturbed ∧
      (Traffic.trace ⟨relay, []⟩ disturbed).getLast?.map
          (fun seen => (seen.subscribers.map Subscriber.events, seen.offerRetries)) =
        some ([[Event.sample, Event.sample]], 1) := by
  have valid : Settings.standard.violation? = none := by decide +kernel
  intro relay other
  have started : Relay.start Settings.standard outOfOrder Disk.vacant =
      .ok (relay, Disk.vacant) := by
    rw [Relay.start, valid]
    rfl
  have otherStarted : Relay.start Settings.standard .own Disk.vacant =
      .ok (other, (Log.activated Disk.vacant).1) := by
    unfold Relay.start Relay.openStore
    rw [valid, show Parts.own.store? = none from rfl, Log.openIn_vacant]
  have sameRequests : undisturbed.filterMap Turn.request? =
      disturbed.filterMap Turn.request? := rfl
  exact ⟨started, otherStarted, sameRequests,
    traces_agree started otherStarted rfl sameRequests, by decide +kernel⟩

end Isolation
end EventRelay
