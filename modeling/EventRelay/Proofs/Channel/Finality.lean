import EventRelay.Proofs.Channel.Accounts
import EventRelay.Retry

/-!
# Which errors are final

An offer fails for good if the channel is closed or would pass its greatest
position.  A channel stays closed, and its position never goes back: after a fatal
error every message of at least the same size fails as well, whatever happens on
the channel in between.  A smaller message may still find room below the greatest
position, so that only a closed channel refuses all later messages.
-/

namespace EventRelay

/-- The error that an offer ends with at once, if it does. -/
def Offer.error? : Offer → Option PublishError
  | .closed => some .closed
  | .maxPositionExceeded => some .maxPositionExceeded
  | _ => none

/-- Whether an offer ends with a fatal error. -/
def Offer.isFatal (offer : Offer) : Bool :=
  offer.error?.any PublishError.isFatal

theorem Offer.isFatal_of_error?_eq_some
    {offer : Offer}
    {error : PublishError}
    (failed : offer.error? = some error) :
    offer.isFatal = true := by
  cases offer <;> cases failed <;> rfl

/-! ## Sizes -/

theorem fragmentCount_le_fragmentCount
    {size other : Nat}
    (smaller : size ≤ other)
    (mtu : Nat) :
    fragmentCount size mtu ≤ fragmentCount other mtu := by
  have quotients : (size + (max mtu 1 - 1)) / max mtu 1 ≤
      (other + (max mtu 1 - 1)) / max mtu 1 :=
    Nat.div_le_div_right (by omega)
  unfold fragmentCount
  dsimp only
  omega

/-- A longer message does not count for less. -/
theorem framedSize_le_framedSize
    {size other : Nat}
    (smaller : size ≤ other)
    (mtu : Nat) :
    framedSize size mtu ≤ framedSize other mtu := by
  have headers := Nat.mul_le_mul_right Fragment.headerSize
    (fragmentCount_le_fragmentCount smaller mtu)
  unfold framedSize
  omega

namespace Channel

/-! ## What no call takes back -/

/-- A later state of a channel: it has the same settings, is not further back, and is
closed if it was. -/
structure Follows (channel after : Channel) : Prop where
  settings_eq : after.settings = channel.settings
  position_le : channel.position ≤ after.position
  isClosed : channel.isClosed = true → after.isClosed = true

theorem Follows.refl (channel : Channel) : Follows channel channel :=
  ⟨rfl, Nat.le_refl _, id⟩

theorem Follows.trans
    {channel between after : Channel}
    (lower : Follows channel between)
    (upper : Follows between after) :
    Follows channel after where
  settings_eq := upper.settings_eq.trans lower.settings_eq
  position_le := Nat.le_trans lower.position_le upper.position_le
  isClosed := fun closed => upper.isClosed (lower.isClosed closed)

theorem follows_offer (channel : Channel) (session : UInt32) (message : Bytes) :
    Follows channel (channel.offer session message).2 := by
  have offered := offered_offer channel session message
  generalize channel.offer session message = answered at offered ⊢
  cases offered with
  | closed | maxPositionExceeded | backPressured => exact .refl channel
  | adminAction => exact ⟨rfl, Nat.le_refl _, id⟩
  | accepted => exact ⟨rfl, Nat.le_add_right _ _, id⟩

theorem follows_poll (channel : Channel) (subscription limit : Nat) :
    Follows channel (channel.poll subscription limit).2 := by
  unfold poll
  split <;> exact ⟨rfl, Nat.le_refl _, id⟩

theorem follows_perform (channel : Channel) (call : Call) :
    Follows channel (channel.perform call) := by
  cases call with
  | publication | subscribe | unsubscribe => exact ⟨rfl, Nat.le_refl _, id⟩
  | close => exact ⟨rfl, Nat.le_refl _, fun _ => rfl⟩
  | offer session message => exact follows_offer channel session message
  | poll subscription limit => exact follows_poll channel subscription limit

theorem follows_performAll (channel : Channel) (calls : List Call) :
    Follows channel (channel.performAll calls) := by
  induction calls generalizing channel with
  | nil => exact .refl channel
  | cons call calls inductionHypothesis =>
      exact (follows_perform channel call).trans (inductionHypothesis _)

/-! ## Fatal offers -/

/-- A message has no room in a channel, now or later. -/
def Excludes (channel : Channel) (message : Bytes) : Prop :=
  channel.isClosed = true ∨ channel.settings.maxPosition < channel.positionAfter message

theorem isFatal_offer_iff (channel : Channel) (session : UInt32) (message : Bytes) :
    (channel.offer session message).1.isFatal = true ↔ channel.Excludes message := by
  have offered := offered_offer channel session message
  unfold Excludes
  generalize channel.offer session message = answered at offered ⊢
  cases offered with
  | closed closed => simp [closed, Offer.isFatal, Offer.error?, PublishError.isFatal]
  | maxPositionExceeded isOpen tooFar =>
      simp [tooFar, Offer.isFatal, Offer.error?, PublishError.isFatal]
  | backPressured isOpen within | adminAction isOpen within | accepted isOpen within =>
      simp [isOpen, Nat.not_lt.mpr within, Offer.isFatal, Offer.error?]

/-- What has no room has none later, and neither has anything larger. -/
theorem Excludes.later
    {channel after : Channel}
    {message other : Bytes}
    (excludes : channel.Excludes message)
    (follows : Follows channel after)
    (larger : channel.sizeOf message ≤ channel.sizeOf other) :
    after.Excludes other := by
  rcases excludes with closed | tooFar
  · exact Or.inl (follows.isClosed closed)
  · have position_le := follows.position_le
    refine Or.inr ?_
    unfold positionAfter sizeOf at *
    rw [follows.settings_eq]
    omega

/-- A fatal offer leaves the channel as it is. -/
theorem offer_eq_self_of_error?_eq_some
    {channel after : Channel}
    {session : UInt32}
    {message : Bytes}
    {result : Offer}
    (offered : channel.offer session message = (result, after))
    {error : PublishError}
    (failed : result.error? = some error) :
    after = channel ∧ (error = .closed → channel.isClosed = true) := by
  have cases_of := offered_offer channel session message
  rw [offered] at cases_of
  cases cases_of with
  | closed closed => exact ⟨rfl, fun _ => closed⟩
  | maxPositionExceeded => exact ⟨rfl, fun isClosed => by subst isClosed; cases failed⟩
  | backPressured | adminAction | accepted => cases failed

/-- How a message is offered with retries while others use the channel during the
delays. -/
def offerWithRetries
    (channel : Channel)
    (policy : Retry.Policy)
    (session : UInt32)
    (message : Bytes)
    (meanwhile : Nat → List Call) :
    Except PublishError Retry.Delivery × Channel :=
  policy.offer (fun channel => channel.offer session message)
    (fun retry _ channel => channel.performAll (meanwhile retry)) channel

/-- A fatal error of offering with retries is that of the last offer. -/
theorem exists_offer_of_offerFrom_eq_error
    {channel after : Channel}
    {policy : Retry.Policy}
    {session : UInt32}
    {message : Bytes}
    {meanwhile : Nat → List Call}
    {remaining retries : Nat}
    {error : PublishError}
    (failed : Retry.offerFrom policy (fun channel => channel.offer session message)
      (fun retry _ channel => channel.performAll (meanwhile retry)) remaining retries channel =
        (.error error, after))
    (fatal : error.isFatal = true) :
    ∃ (last : Channel) (result : Offer), last.offer session message = (result, after) ∧
      result.error? = some error := by
  -- An error that runs out of retries is not fatal, so a fatal one ends the first offer
  -- that meets it.
  induction remaining generalizing channel retries with
  | zero =>
      rw [Retry.offerFrom] at failed
      cases offered : channel.offer session message with
      | mk result between =>
          rw [offered] at failed
          cases result with
          | accepted position => cases failed
          | closed | maxPositionExceeded => cases failed; exact ⟨channel, _, offered, rfl⟩
          | backPressured | adminAction => cases failed; cases fatal
  | succ remaining inductionHypothesis =>
      rw [Retry.offerFrom] at failed
      cases offered : channel.offer session message with
      | mk result between =>
          rw [offered] at failed
          cases result with
          | accepted position => cases failed
          | closed | maxPositionExceeded => cases failed; exact ⟨channel, _, offered, rfl⟩
          | backPressured | adminAction => exact inductionHypothesis failed

/-! ## Final errors -/

/-- What a fatal error of a message says about everything that is offered later. -/
structure IsFinal (channel : Channel) (message : Bytes) (error : PublishError) : Prop where
  /-- A closed channel answers every later offer in the same way. -/
  closed : error = .closed → ∀ later session other,
    ((channel.performAll later).offer session other).1 = .closed
  /-- No later message of at least the same size is accepted. -/
  larger : ∀ later session other, channel.sizeOf message ≤ channel.sizeOf other →
    ((channel.performAll later).offer session other).1.isFatal = true
  /-- In particular no longer one is. -/
  longer : ∀ later session other, message.length ≤ other.length →
    ((channel.performAll later).offer session other).1.isFatal = true
  /-- A later offer is fatal just if the channel is closed by then or the message
  would take it past its greatest position. -/
  fatal_iff : ∀ later session other,
    ((channel.performAll later).offer session other).1.isFatal = true ↔
      (channel.performAll later).isClosed = true ∨
        channel.settings.maxPosition <
          (channel.performAll later).position + channel.sizeOf other

theorem isFinal_of_error?_eq_some
    {channel after : Channel}
    {session : UInt32}
    {message : Bytes}
    {result : Offer}
    (offered : channel.offer session message = (result, after))
    {error : PublishError}
    (failed : result.error? = some error) :
    after.IsFinal message error := by
  obtain ⟨rfl, closes⟩ := offer_eq_self_of_error?_eq_some offered failed
  have excludes : after.Excludes message := by
    rw [← isFatal_offer_iff after session, offered]
    exact Offer.isFatal_of_error?_eq_some failed
  have larger : ∀ later session other, after.sizeOf message ≤ after.sizeOf other →
      ((after.performAll later).offer session other).1.isFatal = true := by
    intro later session other larger
    rw [isFatal_offer_iff]
    exact excludes.later (follows_performAll after later) larger
  refine ⟨fun isClosed later session other => ?_, larger, fun later session other longer => ?_,
    fun later session other => ?_⟩
  · have closed := (follows_performAll after later).isClosed (closes isClosed)
    rw [offer, if_pos closed]
  · exact larger later session other (framedSize_le_framedSize longer _)
  · have settings_eq := (follows_performAll after later).settings_eq
    rw [isFatal_offer_iff, Excludes, positionAfter, sizeOf, sizeOf, settings_eq]

/-- After a fatal error, of a single offer or of one with retries, a closed channel
refuses everything, and one that would pass its greatest position refuses every
message of at least the same size, whatever happens in between. -/
theorem isFinal_of_fatal (channel : Channel) (session : UInt32) (message : Bytes) :
    (∀ result after error, channel.offer session message = (result, after) →
      result.error? = some error → after.IsFinal message error) ∧
    ∀ policy meanwhile error after,
      channel.offerWithRetries policy session message meanwhile = (.error error, after) →
      error.isFatal = true → after.IsFinal message error := by
  refine ⟨fun result after error offered failed => isFinal_of_error?_eq_some offered failed, ?_⟩
  intro policy meanwhile error after failed fatal
  obtain ⟨last, result, offered, ended⟩ := exists_offer_of_offerFrom_eq_error failed fatal
  exact isFinal_of_error?_eq_some offered ended

/-- A channel that may not pass the position 20. -/
def narrow : Settings where
  capacity := 4194304
  termLength := 1048576
  mtu := 1408
  maxPosition := 20

theorem isFinal_of_fatal_narrow :
    (initial narrow).offer 1 (List.replicate 16 0) =
        (.maxPositionExceeded, initial narrow) ∧
      (initial narrow).IsFinal (List.replicate 16 0) .maxPositionExceeded := by
  have refused : (initial narrow).offer 1 (List.replicate 16 0) =
      (.maxPositionExceeded, initial narrow) := by
    decide +kernel
  exact ⟨refused, (isFinal_of_fatal (initial narrow) 1 (List.replicate 16 0)).1 _ _ _ refused rfl⟩

/-- A message that would take the channel past its greatest position gets a fatal
error, and yet a smaller one is accepted afterwards. -/
theorem accepts_after_maxPositionExceeded :
    ((initial narrow).offer 1 (List.replicate 16 0)).1 = .maxPositionExceeded ∧
      PublishError.maxPositionExceeded.isFatal = true ∧
      ((((initial narrow).offer 1 (List.replicate 16 0)).2.performAll []).offer 1
        (List.replicate 4 0)).1 = .accepted 12 ∧
      (Offer.accepted 12).isFatal = false := by
  decide +kernel

end Channel
end EventRelay
