import EventRelay.Channel.Basic
import EventRelay.Proofs.Channel.Reassembly
import Mathlib.Data.List.Nodup
import Mathlib.Logic.Function.Basic

/-!
# Every subscription gets the accepted messages

Publications and subscriptions come and go on a channel, messages are offered,
and subscriptions are polled, in any order.  What a live subscription has polled
and what it has still to poll are together the fragments of exactly the messages
accepted since it attached, in the order of acceptance.  Giving up fragments
takes none of them away, because it stops at the least index that a subscription
has still to read.
-/

namespace EventRelay
namespace Channel

/-! ## Running -/

/-- What is done with a channel. -/
inductive Call where
  /-- Add a publication. -/
  | publication
  /-- Add a subscription. -/
  | subscribe
  /-- Offer a message of a publication. -/
  | offer (session : UInt32) (message : Bytes)
  /-- Take some fragments for a subscription. -/
  | poll (subscription limit : Nat)
  /-- End a subscription. -/
  | unsubscribe (subscription : Nat)
  /-- Close the channel. -/
  | close

/-- A channel, the subscriptions that have attached and not ended, and for each of
them what was accepted since it attached and what it has polled. -/
structure Exchange where
  channel : Channel
  attached : List Nat
  accepted : Nat → List Sent
  received : Nat → List Fragment

namespace Exchange

/-- A new channel. -/
def start (settings : Settings) : Exchange where
  channel := initial settings
  attached := []
  accepted := fun _ => []
  received := fun _ => []

/-- Carry out a call. -/
def step (exchange : Exchange) : Call → Exchange
  | .publication => { exchange with channel := exchange.channel.publication.2 }
  | .subscribe =>
      let (subscription, channel) := exchange.channel.subscribe
      { channel := channel
        attached := exchange.attached ++ [subscription]
        accepted := Function.update exchange.accepted subscription []
        received := Function.update exchange.received subscription [] }
  | .offer session message =>
      match exchange.channel.offer session message with
      | (.accepted _, channel) =>
          { exchange with
            channel := channel
            accepted := fun subscription =>
              exchange.accepted subscription ++ [⟨session, message⟩] }
      | (_, channel) => { exchange with channel := channel }
  | .poll subscription limit =>
      let (fragments, channel) := exchange.channel.poll subscription limit
      { exchange with
        channel := channel
        received := Function.update exchange.received subscription
          (exchange.received subscription ++ fragments) }
  | .unsubscribe subscription =>
      { exchange with
        channel := exchange.channel.unsubscribe subscription
        attached := exchange.attached.filter fun number => number != subscription }
  | .close => { exchange with channel := exchange.channel.close }

/-- Carry out calls in order. -/
def run (exchange : Exchange) (calls : List Call) : Exchange :=
  calls.foldl step exchange

end Exchange

/-! ## Cursors -/

/-- A cursor is among the fragments that are kept, or at their end. -/
structure InRange (channel : Channel) (cursor : Cursor) : Prop where
  baseIndex_le : channel.baseIndex ≤ cursor.nextIndex
  le_tailIndex : cursor.nextIndex ≤ channel.tailIndex

/-- The cursors have different numbers below the next one, and are in range. -/
structure WellFormed (channel : Channel) : Prop where
  numbers_nodup : (channel.cursors.map Prod.fst).Nodup
  number_lt : ∀ entry ∈ channel.cursors, entry.1 < channel.nextSubscription
  inRange : ∀ entry ∈ channel.cursors, channel.InRange entry.2

theorem wellFormed_initial (settings : Settings) : (initial settings).WellFormed where
  numbers_nodup := List.nodup_nil
  number_lt := by simp [initial]
  inRange := by simp [initial]

theorem mem_of_cursor?_eq_some
    {channel : Channel}
    {subscription : Nat}
    {cursor : Cursor}
    (found : channel.cursor? subscription = some cursor) :
    (subscription, cursor) ∈ channel.cursors := by
  rw [cursor?, Option.map_eq_some_iff] at found
  obtain ⟨⟨number, other⟩, first, rfl⟩ := found
  have same : number = subscription := by simpa using List.find?_some first
  exact same ▸ List.mem_of_find?_eq_some first

theorem exists_cursor?_eq_some
    {channel : Channel}
    {subscription : Nat}
    (known : subscription ∈ channel.cursors.map Prod.fst) :
    ∃ cursor, channel.cursor? subscription = some cursor := by
  obtain ⟨entry, present, rfl⟩ := List.mem_map.mp known
  refine Option.isSome_iff_exists.mp ?_
  rw [cursor?, Option.isSome_map, List.find?_isSome]
  exact ⟨entry, present, beq_self_eq_true _⟩

/-! ## Giving up fragments -/

/-- No subscription has still to read an index below the floor. -/
theorem floorIndex_le
    {channel : Channel}
    {entry : Nat × Cursor}
    (present : entry ∈ channel.cursors) :
    channel.floorIndex ≤ entry.2.nextIndex := by
  have member : entry.2.nextIndex ∈ channel.cursors.map fun cursor => cursor.2.nextIndex :=
    List.mem_map.mpr ⟨entry, present, rfl⟩
  rw [floorIndex]
  cases least : (channel.cursors.map fun cursor => cursor.2.nextIndex).min? with
  | none =>
      rw [List.min?_eq_none_iff.mp least] at member
      cases member
  | some floor =>
      rw [List.min?_eq_some_iff] at least
      exact least.2 _ member

/-- Giving up fragments leaves what every subscription has still to read. -/
theorem pendingOf_compact
    {channel : Channel}
    {entry : Nat × Cursor}
    (present : entry ∈ channel.cursors)
    (inRange : channel.InRange entry.2) :
    channel.compact.pendingOf entry.2 = channel.pendingOf entry.2 ∧
      channel.compact.InRange entry.2 := by
  have floor := floorIndex_le present
  have base := inRange.baseIndex_le
  have tail := inRange.le_tailIndex
  rw [tailIndex] at tail
  refine ⟨?_, ?_, ?_⟩
  · rw [pendingOf, pendingOf, compact, List.drop_drop]
    congr 1
    dsimp only
    omega
  · dsimp only [compact]
    omega
  · dsimp only [compact, tailIndex]
    rw [List.length_drop]
    omega

/-! ## The invariant -/

/-- What every subscription has polled and has still to poll are the fragments of
what was accepted since it attached. -/
structure Exchange.Invariant (settings : Settings) (exchange : Exchange) : Prop where
  settings_eq : exchange.channel.settings = settings
  attached_eq : exchange.attached = exchange.channel.cursors.map Prod.fst
  wellFormed : exchange.channel.WellFormed
  fragments_eq : ∀ entry ∈ exchange.channel.cursors,
    exchange.received entry.1 ++ exchange.channel.pendingOf entry.2 =
      fragmentsOf settings.mtu (exchange.accepted entry.1)

namespace Exchange

theorem invariant_start (settings : Settings) : Invariant settings (start settings) where
  settings_eq := rfl
  attached_eq := rfl
  wellFormed := wellFormed_initial settings
  fragments_eq := by simp [start, initial]

/-- A channel may change in what no remaining subscription reads. -/
theorem Invariant.replace
    {settings : Settings}
    {exchange : Exchange}
    (invariant : Invariant settings exchange)
    {after : Channel}
    {attached : List Nat}
    (attached_eq : attached = after.cursors.map Prod.fst)
    (settings_eq : after.settings = exchange.channel.settings)
    (next_eq : after.nextSubscription = exchange.channel.nextSubscription)
    (fewer : after.cursors.Sublist exchange.channel.cursors)
    (pending : ∀ entry ∈ after.cursors,
      after.pendingOf entry.2 = exchange.channel.pendingOf entry.2 ∧ after.InRange entry.2) :
    Invariant settings { exchange with channel := after, attached := attached } := by
  have wellFormed := invariant.wellFormed
  refine ⟨settings_eq.trans invariant.settings_eq, attached_eq, ⟨?_, ?_, ?_⟩, ?_⟩
  · exact wellFormed.numbers_nodup.sublist (fewer.map Prod.fst)
  · intro entry present
    rw [next_eq]
    exact wellFormed.number_lt entry (fewer.mem present)
  · exact fun entry present => (pending entry present).2
  · intro entry present
    dsimp only at present ⊢
    rw [(pending entry present).1]
    exact invariant.fragments_eq entry (fewer.mem present)

/-- Giving up fragments, after subscriptions have ended, keeps the invariant. -/
theorem Invariant.compact
    {settings : Settings}
    {exchange : Exchange}
    (invariant : Invariant settings exchange)
    (activeTerm : Nat)
    {cursors : List (Nat × Cursor)}
    {attached : List Nat}
    (attached_eq : attached = cursors.map Prod.fst)
    (fewer : cursors.Sublist exchange.channel.cursors) :
    Invariant settings { exchange with
      channel := Channel.compact
        { exchange.channel with activeTerm := activeTerm, cursors := cursors }
      attached := attached } := by
  refine invariant.replace attached_eq rfl rfl fewer fun entry present => ?_
  have inRange := invariant.wellFormed.inRange entry (fewer.mem present)
  exact pendingOf_compact present ⟨inRange.baseIndex_le, inRange.le_tailIndex⟩

end Exchange

/-! ## Offering -/

/-- An offer is refused and changes nothing that is read, or is accepted. -/
theorem offer_cases (channel : Channel) (session : UInt32) (message : Bytes) :
    (∃ position, channel.offer session message =
      (.accepted position, channel.accept session message position)) ∨
    ∃ result activeTerm, (∀ position, result ≠ .accepted position) ∧
      (channel.offer session message = (result, channel) ∨
        channel.offer session message =
          (result, compact { channel with activeTerm := activeTerm })) := by
  rw [offer]
  dsimp only
  split
  · exact Or.inr ⟨.closed, 0, by simp, Or.inl rfl⟩
  · split
    · exact Or.inr ⟨.maxPositionExceeded, 0, by simp, Or.inl rfl⟩
    · split
      · exact Or.inr ⟨.backPressured, 0, by simp, Or.inl rfl⟩
      · split
        · exact Or.inr ⟨.adminAction, _, by simp, Or.inr rfl⟩
        · exact Or.inl ⟨_, rfl⟩

/-- An accepted message is pending for every subscription. -/
theorem pendingOf_accept
    {channel : Channel}
    {entry : Nat × Cursor}
    (present : entry ∈ channel.cursors)
    (inRange : channel.InRange entry.2)
    (session : UInt32)
    (message : Bytes)
    (position : Nat) :
    (channel.accept session message position).pendingOf entry.2 =
        channel.pendingOf entry.2 ++
          Fragment.ofMessage session channel.settings.mtu message ∧
      (channel.accept session message position).InRange entry.2 := by
  have listened : channel.cursors.isEmpty = false := by
    rw [List.isEmpty_eq_false_iff]
    exact List.ne_nil_of_mem present
  have tail := inRange.le_tailIndex
  rw [tailIndex] at tail
  refine ⟨?_, inRange.baseIndex_le, ?_⟩
  · have within : entry.2.nextIndex - channel.baseIndex ≤ channel.fragments.length := by
      omega
    rw [pendingOf, pendingOf, accept, listened]
    exact List.drop_append_of_le_length within
  · rw [tailIndex, accept, List.length_append]
    dsimp only
    omega

/-- An offer keeps the invariant. -/
theorem Exchange.Invariant.offer
    {settings : Settings}
    {exchange : Exchange}
    (invariant : Invariant settings exchange)
    (session : UInt32)
    (message : Bytes) :
    Invariant settings (exchange.step (.offer session message)) := by
  rw [Exchange.step]
  rcases offer_cases exchange.channel session message with
    ⟨position, accepted⟩ | ⟨result, activeTerm, refused, same | given⟩
  · rw [accepted]
    obtain ⟨settings_eq, attached_eq, wellFormed, fragments_eq⟩ := invariant
    have kept : ∀ entry ∈ exchange.channel.cursors, _ := fun entry present =>
      pendingOf_accept present (wellFormed.inRange entry present) session message position
    refine ⟨settings_eq, attached_eq, ⟨wellFormed.numbers_nodup, wellFormed.number_lt, ?_⟩, ?_⟩
    · exact fun entry present => (kept entry present).2
    · intro entry present
      dsimp only
      rw [(kept entry present).1, ← List.append_assoc, fragments_eq entry present,
        fragmentsOf_concat, settings_eq]
  · rw [same]
    cases result with
    | accepted position => exact absurd rfl (refused position)
    | backPressured | adminAction | closed | maxPositionExceeded => exact invariant
  · rw [given]
    cases result with
    | accepted position => exact absurd rfl (refused position)
    | backPressured | adminAction | closed | maxPositionExceeded =>
        exact invariant.compact activeTerm invariant.attached_eq (List.Sublist.refl _)

/-! ## Attaching -/

/-- A new subscription has nothing to read yet. -/
theorem Exchange.Invariant.subscribe
    {settings : Settings}
    {exchange : Exchange}
    (invariant : Invariant settings exchange) :
    Invariant settings (exchange.step .subscribe) := by
  obtain ⟨settings_eq, attached_eq, wellFormed, fragments_eq⟩ := invariant
  refine ⟨settings_eq, ?_, ⟨?_, ?_, ?_⟩, ?_⟩
  · change exchange.attached ++ [_] = List.map Prod.fst (exchange.channel.cursors ++ [_])
    rw [attached_eq, List.map_append]
    rfl
  · change (List.map Prod.fst (exchange.channel.cursors ++ [_])).Nodup
    rw [List.map_append, List.nodup_append]
    refine ⟨wellFormed.numbers_nodup, List.nodup_singleton _, ?_⟩
    intro number old other new
    obtain ⟨entry, present, rfl⟩ := List.mem_map.mp old
    have bound := wellFormed.number_lt entry present
    rw [List.map_singleton, List.mem_singleton] at new
    dsimp only at new
    omega
  · intro entry present
    rcases List.mem_append.mp present with old | new
    · exact Nat.lt_succ_of_lt (wellFormed.number_lt entry old)
    · rw [List.mem_singleton.mp new]
      exact Nat.lt_succ_self _
  · intro entry present
    rcases List.mem_append.mp present with old | new
    · have inRange := wellFormed.inRange entry old
      exact ⟨inRange.baseIndex_le, inRange.le_tailIndex⟩
    · rw [List.mem_singleton.mp new]
      exact ⟨Nat.le_add_right _ _, Nat.le_refl _⟩
  · intro entry present
    rcases List.mem_append.mp present with old | new
    · have different : entry.1 ≠ exchange.channel.nextSubscription :=
        Nat.ne_of_lt (wellFormed.number_lt entry old)
      have same := fragments_eq entry old
      simp only [Exchange.step, Channel.subscribe, Function.update_of_ne different]
      exact same
    · rw [List.mem_singleton.mp new]
      have nothing : exchange.channel.fragments.drop
          (exchange.channel.tailIndex - exchange.channel.baseIndex) = [] := by
        rw [tailIndex, Nat.add_sub_cancel_left, List.drop_length]
      simp only [Exchange.step, Channel.subscribe, Function.update_self, pendingOf, nothing]
      rfl

/-! ## Polling -/

/-- What a poll returns is taken off what a subscription has still to read. -/
theorem pendingOf_advance
    {channel : Channel}
    {cursor : Cursor}
    (inRange : channel.InRange cursor)
    (limit : Nat) :
    (channel.pendingOf cursor).take limit ++
        channel.pendingOf (cursor.advance ((channel.pendingOf cursor).take limit)) =
      channel.pendingOf cursor ∧
    channel.InRange (cursor.advance ((channel.pendingOf cursor).take limit)) := by
  have base := inRange.baseIndex_le
  have tail := inRange.le_tailIndex
  rw [tailIndex] at tail
  generalize taken : (channel.pendingOf cursor).take limit = batch
  have rest : channel.pendingOf (cursor.advance batch) =
      (channel.pendingOf cursor).drop batch.length := by
    have further : cursor.nextIndex + batch.length - channel.baseIndex =
        cursor.nextIndex - channel.baseIndex + batch.length := by
      omega
    rw [pendingOf, pendingOf, List.drop_drop, Cursor.advance, further]
  have beginning : batch = (channel.pendingOf cursor).take batch.length := by
    rw [← taken, List.length_take, List.take_eq_take_iff]
    omega
  refine ⟨?_, Nat.le_add_right_of_le base, ?_⟩
  · rw [rest]
    conv_lhs => rw [beginning]
    rw [List.length_take_of_le, List.take_append_drop]
    rw [← taken, List.length_take]
    omega
  · have size := congrArg List.length taken
    rw [List.length_take, pendingOf, List.length_drop] at size
    rw [tailIndex, Cursor.advance]
    dsimp only
    omega

/-- The cursors when one of them has moved past fragments. -/
def advanced (channel : Channel) (subscription : Nat) (batch : List Fragment) :
    List (Nat × Cursor) :=
  channel.cursors.map fun entry =>
    if entry.1 = subscription then (entry.1, entry.2.advance batch) else entry

theorem poll_of_cursor?_eq_some
    {channel : Channel}
    {subscription : Nat}
    {cursor : Cursor}
    (found : channel.cursor? subscription = some cursor)
    (limit : Nat) :
    channel.poll subscription limit =
      ((channel.pendingOf cursor).take limit, { channel with
        cursors := channel.advanced subscription ((channel.pendingOf cursor).take limit) }) := by
  rw [poll, found]
  rfl

theorem numbers_advanced (channel : Channel) (subscription : Nat) (batch : List Fragment) :
    (channel.advanced subscription batch).map Prod.fst = channel.cursors.map Prod.fst := by
  rw [advanced, List.map_map]
  refine List.map_congr_left fun entry _ => ?_
  dsimp only [Function.comp_apply]
  split <;> rfl

/-- Only the cursor of the subscription has moved. -/
theorem mem_advanced
    {channel : Channel}
    (wellFormed : channel.WellFormed)
    {subscription : Nat}
    {cursor : Cursor}
    (present : (subscription, cursor) ∈ channel.cursors)
    {batch : List Fragment}
    {entry : Nat × Cursor}
    (member : entry ∈ channel.advanced subscription batch) :
    entry = (subscription, cursor.advance batch) ∨
      entry.1 ≠ subscription ∧ entry ∈ channel.cursors := by
  obtain ⟨old, oldPresent, rfl⟩ := List.mem_map.mp member
  by_cases same : old.1 = subscription
  · have isCursor : old = (subscription, cursor) :=
      List.inj_on_of_nodup_map wellFormed.numbers_nodup oldPresent present same
    rw [if_pos same, isCursor]
    exact Or.inl rfl
  · rw [if_neg same]
    exact Or.inr ⟨same, oldPresent⟩

/-- A poll moves what it returns from what is pending to what was received. -/
theorem Exchange.Invariant.poll
    {settings : Settings}
    {exchange : Exchange}
    (invariant : Invariant settings exchange)
    (subscription limit : Nat) :
    Invariant settings (exchange.step (.poll subscription limit)) := by
  rw [Exchange.step]
  cases found : exchange.channel.cursor? subscription with
  | none =>
      rw [Channel.poll, found]
      dsimp only
      rw [List.append_nil, Function.update_eq_self]
      exact invariant
  | some cursor =>
      obtain ⟨settings_eq, attached_eq, wellFormed, fragments_eq⟩ := invariant
      have present := mem_of_cursor?_eq_some found
      obtain ⟨parts, inRange⟩ :=
        pendingOf_advance (wellFormed.inRange (subscription, cursor) present) limit
      rw [poll_of_cursor?_eq_some found]
      dsimp only at parts inRange ⊢
      generalize (exchange.channel.pendingOf cursor).take limit = batch at parts inRange ⊢
      have sameNumbers := numbers_advanced exchange.channel subscription batch
      refine ⟨settings_eq, attached_eq.trans sameNumbers.symm, ⟨?_, ?_, ?_⟩, ?_⟩
      · dsimp only
        rw [sameNumbers]
        exact wellFormed.numbers_nodup
      · intro entry member
        rcases mem_advanced wellFormed present member with rfl | ⟨_, old⟩
        · exact wellFormed.number_lt (subscription, cursor) present
        · exact wellFormed.number_lt entry old
      · intro entry member
        rcases mem_advanced wellFormed present member with rfl | ⟨_, old⟩
        · exact ⟨inRange.baseIndex_le, inRange.le_tailIndex⟩
        · have oldRange := wellFormed.inRange entry old
          exact ⟨oldRange.baseIndex_le, oldRange.le_tailIndex⟩
      · intro entry member
        rcases mem_advanced wellFormed present member with rfl | ⟨different, old⟩
        · have same := fragments_eq (subscription, cursor) present
          rw [← parts] at same
          dsimp only
          rw [Function.update_self, List.append_assoc]
          exact same
        · dsimp only
          rw [Function.update_of_ne different]
          exact fragments_eq entry old

/-! ## Every call -/

/-- Every call keeps the invariant. -/
theorem Exchange.Invariant.step
    {settings : Settings}
    {exchange : Exchange}
    (invariant : Invariant settings exchange)
    (call : Call) :
    Invariant settings (exchange.step call) := by
  -- A change of the sessions or of the closing concerns no subscription.
  have ranges : ∀ entry ∈ exchange.channel.cursors, exchange.channel.InRange entry.2 :=
    invariant.wellFormed.inRange
  cases call with
  | publication =>
      refine invariant.replace invariant.attached_eq rfl rfl (List.Sublist.refl _)
        fun entry present => ⟨rfl, ?_⟩
      exact ⟨(ranges entry present).baseIndex_le, (ranges entry present).le_tailIndex⟩
  | subscribe => exact invariant.subscribe
  | offer session message => exact invariant.offer session message
  | poll subscription limit => exact invariant.poll subscription limit
  | unsubscribe subscription =>
      refine invariant.compact exchange.channel.activeTerm ?_ List.filter_sublist
      rw [invariant.attached_eq, List.filter_map]
      rfl
  | close =>
      refine invariant.replace invariant.attached_eq rfl rfl (List.Sublist.refl _)
        fun entry present => ⟨rfl, ?_⟩
      exact ⟨(ranges entry present).baseIndex_le, (ranges entry present).le_tailIndex⟩

/-- A subscription that is attached has a cursor, among the fragments that are kept. -/
theorem Exchange.Invariant.exists_cursor
    {settings : Settings}
    {exchange : Exchange}
    (invariant : Invariant settings exchange)
    {subscription : Nat}
    (attached : subscription ∈ exchange.attached) :
    ∃ cursor, exchange.channel.cursor? subscription = some cursor ∧
      exchange.channel.InRange cursor ∧
      exchange.received subscription ++ exchange.channel.pendingOf cursor =
        fragmentsOf settings.mtu (exchange.accepted subscription) := by
  rw [invariant.attached_eq] at attached
  obtain ⟨cursor, found⟩ := exists_cursor?_eq_some attached
  have present := mem_of_cursor?_eq_some found
  exact ⟨cursor, found, invariant.wellFormed.inRange _ present,
    invariant.fragments_eq _ present⟩

/-- A subscription that is attached is not the next one. -/
theorem Exchange.Invariant.ne_nextSubscription
    {settings : Settings}
    {exchange : Exchange}
    (invariant : Invariant settings exchange)
    {subscription : Nat}
    (attached : subscription ∈ exchange.attached) :
    subscription ≠ exchange.channel.nextSubscription := by
  rw [invariant.attached_eq] at attached
  obtain ⟨entry, present, rfl⟩ := List.mem_map.mp attached
  exact Nat.ne_of_lt (invariant.wellFormed.number_lt entry present)

/-- Every run keeps the invariant. -/
theorem Exchange.Invariant.run
    {settings : Settings}
    {exchange : Exchange}
    (invariant : Invariant settings exchange)
    (calls : List Call) :
    Invariant settings (exchange.run calls) := by
  induction calls generalizing exchange with
  | nil => exact invariant
  | cons call calls inductionHypothesis => exact inductionHypothesis (invariant.step call)

/-! ## Delivery -/

/-- A subscription gets exactly the messages accepted since it attached. -/
structure Delivers
    (mtu : Nat)
    (exchange : Exchange)
    (subscription : Nat)
    (cursor : Cursor) : Prop where
  /-- What it has polled and what is pending are the fragments of the messages. -/
  fragments_eq :
    exchange.received subscription ++ exchange.channel.pendingOf cursor =
      fragmentsOf mtu (exchange.accepted subscription)
  /-- An assembler gives out every message with the last of its fragments to be
  polled, and drops none. -/
  assembled : ∀ maxSize,
    (∀ sent ∈ exchange.accepted subscription, sent.message.length ≤ maxSize) →
    ∀ count ≤ (exchange.received subscription).length,
      ((Assembler.initial maxSize).feedAll ((exchange.received subscription).take count)).1 =
          finished mtu count (exchange.accepted subscription) ∧
        ((Assembler.initial maxSize).feedAll
          ((exchange.received subscription).take count)).2.dropped = 0
  /-- When nothing is pending, the assembler has given out all of the messages. -/
  finished_eq : exchange.channel.pendingOf cursor = [] →
    finished mtu (exchange.received subscription).length (exchange.accepted subscription) =
      (exchange.accepted subscription).map Sent.message

theorem delivers_of_fragments_eq
    {mtu : Nat}
    {exchange : Exchange}
    {subscription : Nat}
    {cursor : Cursor}
    (fragments_eq : exchange.received subscription ++ exchange.channel.pendingOf cursor =
      fragmentsOf mtu (exchange.accepted subscription)) :
    Delivers mtu exchange subscription cursor where
  fragments_eq := fragments_eq
  assembled := by
    intro maxSize fits count within
    have beginning : (exchange.received subscription).take count =
        (fragmentsOf mtu (exchange.accepted subscription)).take count := by
      rw [← fragments_eq, List.take_append_of_le_length within]
    rw [beginning]
    exact feedAll_fragmentsOf fits mtu count
  finished_eq := by
    intro nothing
    rw [nothing, List.append_nil] at fragments_eq
    rw [fragments_eq, finished_length_fragmentsOf]

/-- In whatever order the calls come, every subscription that has attached and not
ended is known to the channel, and gets exactly the messages accepted since it
attached, once each and in the order of acceptance. -/
theorem delivers_run
    (settings : Settings)
    (calls : List Call)
    {subscription : Nat}
    (live : subscription ∈ ((Exchange.start settings).run calls).attached) :
    ∃ cursor,
      ((Exchange.start settings).run calls).channel.cursor? subscription = some cursor ∧
        Delivers settings.mtu ((Exchange.start settings).run calls) subscription cursor := by
  obtain ⟨_, attached_eq, _, fragments_eq⟩ := (Exchange.invariant_start settings).run calls
  rw [attached_eq] at live
  obtain ⟨cursor, found⟩ := exists_cursor?_eq_some live
  have present := mem_of_cursor?_eq_some found
  exact ⟨cursor, found, delivers_of_fragments_eq (fragments_eq _ present)⟩

/-- Two publications and two subscriptions, one of which stops in the middle of a
message while the other one ends. -/
def interleaved : List Call :=
  [.publication, .publication, .subscribe, .offer 1 [1, 2, 3], .subscribe, .offer 2 [4, 5],
    .poll 0 1, .poll 1 5, .unsubscribe 1, .offer 1 [], .close]

theorem delivers_run_interleaved :
    0 ∈ ((Exchange.start ⟨64, 1024, 2, 4096⟩).run interleaved).attached ∧
      ∃ cursor,
        ((Exchange.start ⟨64, 1024, 2, 4096⟩).run interleaved).channel.cursor? 0 =
            some cursor ∧
          Delivers 2 ((Exchange.start ⟨64, 1024, 2, 4096⟩).run interleaved) 0 cursor := by
  have live : 0 ∈ ((Exchange.start ⟨64, 1024, 2, 4096⟩).run interleaved).attached := by
    decide +kernel
  exact ⟨live, delivers_run ⟨64, 1024, 2, 4096⟩ interleaved live⟩

end Channel
end EventRelay
