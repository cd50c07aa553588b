import EventRelay.Proofs.Channel.Accounts

/-!
# What a refused offer leaves

A message that ends a term is refused, and fragments are given up on the occasion.
Nobody can see this: the position, the closing and the subscriptions stay as they
are, and every subscription has the same fragments to read as before.  Whatever is
done later, it gets just these and then the messages that are accepted later.  The
same message is not refused for its term again.

A message that is accepted moves the position by what it counts for, and all of its
fragments are kept, or none of them if nobody listens.
-/

namespace EventRelay
namespace Channel

open Fragment (ofMessage)

/-! ## Single offers -/

theorem offer_eq_accepted
    {channel : Channel}
    {message : Bytes}
    (isOpen : channel.isClosed = false)
    (within : channel.positionAfter message ≤ channel.settings.maxPosition)
    (inTime : channel.exceedsCapacity (channel.sizeOf message) = false)
    (sameTerm : channel.termOf (channel.positionAfter message) ≤ channel.activeTerm)
    (session : UInt32) :
    channel.offer session message =
      (.accepted (channel.positionAfter message),
        channel.accept session message (channel.positionAfter message)) := by
  have cases_of := offered_offer channel session message
  generalize channel.offer session message = answered at cases_of ⊢
  cases cases_of with
  | closed closed =>
      rw [isOpen] at closed
      cases closed
  | maxPositionExceeded _ tooFar => exact absurd within (Nat.not_le.mpr tooFar)
  | backPressured _ _ slow =>
      rw [inTime] at slow
      cases slow
  | adminAction _ _ _ newTerm => exact absurd sameTerm (Nat.not_le.mpr newTerm)
  | accepted => rfl

/-- What is offered again after a term was announced for it is accepted. -/
theorem offer_of_adminAction
    {channel after : Channel}
    {session : UInt32}
    {message : Bytes}
    (offered : channel.offer session message = (.adminAction, after)) :
    after.offer session message =
      (.accepted (channel.positionAfter message),
        after.accept session message (channel.positionAfter message)) := by
  have cases_of := offered_offer channel session message
  rw [offered] at cases_of
  cases cases_of with
  | adminAction isOpen within inTime =>
      -- Of what an offer is judged by, only the latest term has changed.
      let announced := compact
        { channel with activeTerm := channel.termOf (channel.positionAfter message) }
      have stillOpen : announced.isClosed = false := isOpen
      have sameTerm : announced.termOf (announced.positionAfter message) ≤ announced.activeTerm :=
        Nat.le_refl _
      exact offer_eq_accepted stillOpen within inTime sameTerm session

/-! ## What somebody sees of a channel -/

/-- The fragments that a subscription has still to read; none if there is no such
subscription. -/
def pendingFor (channel : Channel) (subscription : Nat) : List Fragment :=
  match channel.cursor? subscription with
  | none => []
  | some cursor => channel.pendingOf cursor

/-- Two channels that cannot be told apart by their position, their closing, their
subscriptions and what these have still to read. -/
structure SameView (channel after : Channel) : Prop where
  position_eq : after.position = channel.position
  isClosed_eq : after.isClosed = channel.isClosed
  cursors_eq : after.cursors = channel.cursors
  pendingFor_eq : ∀ subscription, after.pendingFor subscription = channel.pendingFor subscription

theorem SameView.refl (channel : Channel) : SameView channel channel :=
  ⟨rfl, rfl, rfl, fun _ => rfl⟩

/-- Giving up fragments when a term is announced cannot be seen. -/
theorem WellFormed.sameView_compact
    {channel : Channel}
    (wellFormed : channel.WellFormed)
    (activeTerm : Nat) :
    SameView channel (compact { channel with activeTerm := activeTerm }) where
  position_eq := rfl
  isClosed_eq := rfl
  cursors_eq := rfl
  pendingFor_eq := by
    intro subscription
    have same : (compact { channel with activeTerm := activeTerm }).cursor? subscription =
        channel.cursor? subscription :=
      rfl
    rw [pendingFor, pendingFor, same]
    cases found : channel.cursor? subscription with
    | none => rfl
    | some cursor =>
        have present := mem_of_cursor?_eq_some found
        have inRange := wellFormed.inRange _ present
        let announced := { channel with activeTerm := activeTerm }
        have listed : (subscription, cursor) ∈ announced.cursors := present
        exact (pendingOf_compact listed ⟨inRange.baseIndex_le, inRange.le_tailIndex⟩).1

/-- A refused offer cannot be seen. -/
theorem WellFormed.sameView_offer
    {channel after : Channel}
    (wellFormed : channel.WellFormed)
    {session : UInt32}
    {message : Bytes}
    {result : Offer}
    (offered : channel.offer session message = (result, after))
    (refused : ∀ position, result ≠ .accepted position) :
    SameView channel after := by
  have cases_of := offered_offer channel session message
  rw [offered] at cases_of
  cases cases_of with
  | closed | maxPositionExceeded | backPressured => exact .refl channel
  | adminAction => exact wellFormed.sameView_compact _
  | accepted => exact absurd rfl (refused _)

/-! ## What a subscription gets -/

/-- The fragments that a call hands out to a subscription. -/
def takenBy (channel : Channel) (subscription : Nat) : Call → List Fragment
  | .poll number limit =>
      if number = subscription then (channel.poll number limit).1 else []
  | _ => []

/-- The message that is accepted by a call while a subscription is there. -/
def sentTo (channel : Channel) (subscription : Nat) : Call → List Sent
  | .offer session message =>
      match channel.cursor? subscription, (channel.offer session message).1 with
      | some _, .accepted _ => [⟨session, message⟩]
      | _, _ => []
  | _ => []

/-- A call gives nothing to a subscription that is not there. -/
theorem takenBy_of_cursor?_eq_none
    {channel : Channel}
    {subscription : Nat}
    (nobody : channel.cursor? subscription = none)
    (call : Call) :
    channel.takenBy subscription call = [] := by
  cases call with
  | poll number limit =>
      rw [takenBy]
      split
      · rename_i same
        rw [same, poll, nobody]
      · rfl
  | publication | subscribe | offer | unsubscribe | close => rfl

theorem sentTo_of_cursor?_eq_none
    {channel : Channel}
    {subscription : Nat}
    (nobody : channel.cursor? subscription = none)
    (call : Call) :
    channel.sentTo subscription call = [] := by
  cases call with
  | offer session message => rw [sentTo, nobody]
  | publication | subscribe | poll | unsubscribe | close => rfl

/-- The fragments that calls hand out to a subscription. -/
def takenIn (channel : Channel) (subscription : Nat) : List Call → List Fragment
  | [] => []
  | call :: rest =>
      channel.takenBy subscription call ++ (channel.perform call).takenIn subscription rest

/-- The messages that are accepted by calls while a subscription is there. -/
def sentIn (channel : Channel) (subscription : Nat) : List Call → List Sent
  | [] => []
  | call :: rest =>
      channel.sentTo subscription call ++ (channel.perform call).sentIn subscription rest

section Exchanges

variable {settings : Settings} {exchange : Exchange} {subscription : Nat}

/-- What a subscription has received and has still to read are the fragments of what
was accepted since it attached. -/
theorem Exchange.Invariant.received_append_pendingFor
    (invariant : Exchange.Invariant settings exchange)
    (attached : subscription ∈ exchange.attached) :
    exchange.received subscription ++ exchange.channel.pendingFor subscription =
      fragmentsOf settings.mtu (exchange.accepted subscription) := by
  obtain ⟨cursor, found, _, fragments_eq⟩ := invariant.exists_cursor attached
  rw [pendingFor, found]
  exact fragments_eq

/-- A subscription that is not attached has no cursor. -/
theorem Exchange.Invariant.cursor?_eq_none
    (invariant : Exchange.Invariant settings exchange)
    (absent : subscription ∉ exchange.attached) :
    exchange.channel.cursor? subscription = none := by
  cases found : exchange.channel.cursor? subscription with
  | none => rfl
  | some cursor =>
      rw [invariant.attached_eq] at absent
      exact absurd (List.mem_map.mpr ⟨_, mem_of_cursor?_eq_some found, rfl⟩) absent

/-- What a call enters for a subscription that stays attached. -/
theorem Exchange.Invariant.step_of_attached
    (invariant : Exchange.Invariant settings exchange)
    (attached : subscription ∈ exchange.attached)
    {call : Call}
    (stays : call ≠ .unsubscribe subscription) :
    subscription ∈ (exchange.step call).attached ∧
      (exchange.step call).received subscription =
        exchange.received subscription ++ exchange.channel.takenBy subscription call ∧
      (exchange.step call).accepted subscription =
        exchange.accepted subscription ++ exchange.channel.sentTo subscription call := by
  cases call with
  | publication | close =>
      exact ⟨attached, (List.append_nil _).symm, (List.append_nil _).symm⟩
  | subscribe =>
      have different := invariant.ne_nextSubscription attached
      refine ⟨List.mem_append_left _ attached, ?_, ?_⟩
      · exact (Function.update_of_ne different _ _).trans (List.append_nil _).symm
      · exact (Function.update_of_ne different _ _).trans (List.append_nil _).symm
  | offer session message =>
      obtain ⟨cursor, found, _⟩ := invariant.exists_cursor attached
      rw [Exchange.step, sentTo, found]
      cases answered : exchange.channel.offer session message with
      | mk result after =>
          cases result with
          | accepted position => exact ⟨attached, (List.append_nil _).symm, rfl⟩
          | backPressured | adminAction | closed | maxPositionExceeded =>
              exact ⟨attached, (List.append_nil _).symm, (List.append_nil _).symm⟩
  | poll number limit =>
      refine ⟨attached, ?_, (List.append_nil _).symm⟩
      rw [takenBy]
      split
      · rename_i same
        subst same
        exact Function.update_self _ _ _
      · rename_i different
        exact (Function.update_of_ne (Ne.symm different) _ _).trans (List.append_nil _).symm
  | unsubscribe number =>
      refine ⟨?_, (List.append_nil _).symm, (List.append_nil _).symm⟩
      refine List.mem_filter.mpr ⟨attached, bne_iff_ne.mpr fun same => ?_⟩
      exact stays (congrArg Call.unsubscribe same.symm)

/-- Nothing is entered yet for a subscription that a call attaches. -/
theorem Exchange.step_of_not_attached
    (absent : subscription ∉ exchange.attached)
    {call : Call}
    (attached : subscription ∈ (exchange.step call).attached) :
    (exchange.step call).received subscription = [] ∧
      (exchange.step call).accepted subscription = [] := by
  cases call with
  | publication | close | poll => exact absurd attached absent
  | subscribe =>
      rcases List.mem_append.mp attached with old | new
      · exact absurd old absent
      · rw [List.mem_singleton.mp new]
        exact ⟨Function.update_self _ _ _, Function.update_self _ _ _⟩
  | offer session message =>
      rw [Exchange.step] at attached
      split at attached <;> exact absurd attached absent
  | unsubscribe => exact absurd (List.mem_filter.mp attached).1 absent

/-- What a call hands out to a subscription is taken off what it has still to read,
and what is accepted is added at the end. -/
theorem Exchange.Invariant.pendingFor_step
    (invariant : Exchange.Invariant settings exchange)
    {call : Call}
    (stays : call ≠ .unsubscribe subscription) :
    exchange.channel.takenBy subscription call ++
        (exchange.channel.perform call).pendingFor subscription =
      exchange.channel.pendingFor subscription ++
        fragmentsOf settings.mtu (exchange.channel.sentTo subscription call) := by
  rw [← Exchange.channel_step]
  by_cases attached : subscription ∈ exchange.attached
  · obtain ⟨still, received_eq, accepted_eq⟩ := invariant.step_of_attached attached stays
    have before := invariant.received_append_pendingFor attached
    have after := (invariant.step call).received_append_pendingFor still
    rw [received_eq, accepted_eq, fragmentsOf, List.flatMap_append, ← fragmentsOf, ← before,
      List.append_assoc, List.append_assoc] at after
    exact List.append_cancel_left after
  · have nobody := invariant.cursor?_eq_none attached
    have nothingLeft : (exchange.step call).channel.pendingFor subscription = [] := by
      by_cases added : subscription ∈ (exchange.step call).attached
      · obtain ⟨received_eq, accepted_eq⟩ := Exchange.step_of_not_attached attached added
        have after := (invariant.step call).received_append_pendingFor added
        rw [received_eq, accepted_eq] at after
        exact after
      · rw [pendingFor, (invariant.step call).cursor?_eq_none added]
    rw [takenBy_of_cursor?_eq_none nobody, sentTo_of_cursor?_eq_none nobody, nothingLeft,
      pendingFor, nobody]
    rfl

/-- A subscription that stays gets what it had still to read, and then what is
accepted. -/
theorem Exchange.Invariant.pendingFor_run
    (invariant : Exchange.Invariant settings exchange)
    {calls : List Call}
    (stays : .unsubscribe subscription ∉ calls) :
    exchange.channel.takenIn subscription calls ++
        (exchange.channel.performAll calls).pendingFor subscription =
      exchange.channel.pendingFor subscription ++
        fragmentsOf settings.mtu (exchange.channel.sentIn subscription calls) := by
  induction calls generalizing exchange with
  | nil => exact (List.append_nil _).symm
  | cons call calls inductionHypothesis =>
      obtain ⟨other, others⟩ := not_or.mp (mt List.mem_cons.mpr stays)
      have first := invariant.pendingFor_step (Ne.symm other)
      have rest := inductionHypothesis (invariant.step call) others
      rw [Exchange.channel_step] at rest
      rw [takenIn, sentIn, performAll, List.foldl_cons, List.append_assoc, ← performAll, rest,
        ← List.append_assoc, first, List.append_assoc, fragmentsOf, fragmentsOf, fragmentsOf,
        List.flatMap_append]

end Exchanges

/-! ## Refused and accepted offers -/

/-- What a refused offer leaves: nobody sees it, and whatever is done later, every
subscription gets what it had still to read before the offer and then what is
accepted later. -/
structure LeavesAlone (channel after : Channel) : Prop where
  sameView : SameView channel after
  later : ∀ subscription calls, .unsubscribe subscription ∉ calls →
    after.takenIn subscription calls ++ (after.performAll calls).pendingFor subscription =
      channel.pendingFor subscription ++
        fragmentsOf channel.settings.mtu (after.sentIn subscription calls)

/-- What an accepted offer does: the position moves on by what the message counts for,
and all of its fragments are kept, or none if nobody listens. -/
structure Reserves
    (channel : Channel) (session : UInt32) (message : Bytes) (position : Nat) (after : Channel) :
    Prop where
  position_eq : position =
    channel.position + EventRelay.framedSize message.length channel.settings.mtu
  moved : after.position = position
  isClosed_eq : after.isClosed = channel.isClosed
  cursors_eq : after.cursors = channel.cursors
  kept : channel.cursors ≠ [] → after.fragments = channel.fragments ++
    ofMessage session channel.settings.mtu message
  pending : ∀ subscription ∈ channel.cursors.map Prod.fst,
    after.pendingFor subscription = channel.pendingFor subscription ++
      ofMessage session channel.settings.mtu message
  forgotten : channel.cursors = [] → after.fragments = channel.fragments

theorem WellFormed.reserves_accept
    {channel : Channel}
    (wellFormed : channel.WellFormed)
    (session : UInt32)
    (message : Bytes) :
    Reserves channel session message (channel.positionAfter message)
      (channel.accept session message (channel.positionAfter message)) where
  position_eq := rfl
  moved := rfl
  isClosed_eq := rfl
  cursors_eq := rfl
  kept := by
    intro listened
    rw [accept, List.isEmpty_eq_false_iff.mpr listened]
    rfl
  pending := by
    intro subscription known
    obtain ⟨cursor, found⟩ := exists_cursor?_eq_some known
    have present := mem_of_cursor?_eq_some found
    have same : (channel.accept session message (channel.positionAfter message)).cursor?
        subscription = some cursor :=
      found
    rw [pendingFor, pendingFor, same, found]
    exact (pendingOf_accept present (wellFormed.inRange _ present) session message _).1
  forgotten := by
    intro nobody
    rw [accept, nobody]
    exact List.append_nil _

/-- A refused offer leaves a channel alone that calls can lead to. -/
theorem Exchange.Invariant.leavesAlone
    {settings : Settings}
    {exchange : Exchange}
    (invariant : Exchange.Invariant settings exchange)
    {session : UInt32}
    {message : Bytes}
    {result : Offer}
    {after : Channel}
    (offered : exchange.channel.offer session message = (result, after))
    (refused : ∀ position, result ≠ .accepted position) :
    LeavesAlone exchange.channel after := by
  have sameView := invariant.wellFormed.sameView_offer offered refused
  refine ⟨sameView, fun subscription calls stays => ?_⟩
  have performed : (exchange.step (.offer session message)).channel = after := by
    rw [Exchange.channel_step, perform, offered]
  have gets := (invariant.step (.offer session message)).pendingFor_run stays
  rw [performed, sameView.pendingFor_eq, ← invariant.settings_eq] at gets
  exact gets

/-- An accepted offer reserves what the message needs. -/
theorem WellFormed.reserves_offer
    {channel after : Channel}
    (wellFormed : channel.WellFormed)
    {session : UInt32}
    {message : Bytes}
    {position : Nat}
    (offered : channel.offer session message = (.accepted position, after)) :
    Reserves channel session message position after := by
  have cases_of := offered_offer channel session message
  rw [offered] at cases_of
  cases cases_of with
  | accepted => exact wellFormed.reserves_accept session message

/-- On every channel that calls can lead to, nobody can see that an offer was refused,
and no part of the message is ever handed out; after a term was announced the same
message is accepted.  An accepted message moves the position by what it counts for,
and all of its fragments are kept, or none if nobody listens. -/
theorem leavesAlone_or_reserves
    (settings : Settings)
    (calls : List Call)
    (session : UInt32)
    (message : Bytes) :
    let channel := (initial settings).performAll calls
    let result := (channel.offer session message).1
    let after := (channel.offer session message).2
    ((∀ position, result ≠ .accepted position) → channel.LeavesAlone after) ∧
      (result = .adminAction →
        (after.offer session message).1 = .accepted (channel.positionAfter message)) ∧
      ∀ position, result = .accepted position →
        channel.Reserves session message position after := by
  have invariant := (Exchange.invariant_start settings).run calls
  have reached : ((Exchange.start settings).run calls).channel =
      (initial settings).performAll calls :=
    Exchange.channel_run _ _
  dsimp only
  rw [← reached]
  generalize (Exchange.start settings).run calls = exchange at invariant
  cases offered : exchange.channel.offer session message with
  | mk result after =>
      refine ⟨invariant.leavesAlone offered, ?_, ?_⟩
      · rintro rfl
        rw [offer_of_adminAction offered]
      · rintro position rfl
        exact invariant.wellFormed.reserves_offer offered

/-- Two subscriptions, of which one has still to read a fragment, when a message ends
the term. -/
def announcing : List Call :=
  [.subscribe, .subscribe, .offer 1 [9], .offer 1 [8], .poll 0 2, .poll 1 1]

/-- A fragment is given up that nobody misses, and the message is accepted when it is
offered again. -/
theorem leavesAlone_or_reserves_announcing :
    let channel := (initial ⟨64, 32, 2, 4096⟩).performAll announcing
    let after := (channel.offer 1 [1, 2, 3]).2
    (channel.offer 1 [1, 2, 3]).1 = .adminAction ∧
      after.fragments.length + 1 = channel.fragments.length ∧
      channel.LeavesAlone after ∧
      (after.offer 1 [1, 2, 3]).1 = .accepted 37 ∧
      after.Reserves 1 [1, 2, 3] 37 (after.offer 1 [1, 2, 3]).2 := by
  have announced : (((initial ⟨64, 32, 2, 4096⟩).performAll announcing).offer 1 [1, 2, 3]).1 =
      .adminAction := by
    decide +kernel
  obtain ⟨leavesAlone, again, _⟩ :=
    leavesAlone_or_reserves ⟨64, 32, 2, 4096⟩ announcing 1 [1, 2, 3]
  obtain ⟨_, _, reserves⟩ := leavesAlone_or_reserves ⟨64, 32, 2, 4096⟩
    (announcing ++ [.offer 1 [1, 2, 3]]) 1 [1, 2, 3]
  have accepted := again announced
  refine ⟨announced, by decide +kernel, leavesAlone fun position => ?_, accepted, ?_⟩
  · rw [announced]
    exact Offer.noConfusion
  · exact reserves 37 accepted

end Channel
end EventRelay
