import EventRelay.Proofs.Channel.Finality
import EventRelay.Proofs.Event.Decoding
import EventRelay.Proofs.Metrics
import EventRelay.Subscriber

/-!
# The loop of a subscriber

A subscriber polls, takes the fragments that it has got one after the other, and when
it has got none looks whether the channel is closed and read to its end.  Before each
of these steps anybody may use the channel: messages are offered and the channel is
closed at any time, also between an empty poll and the look that follows it.

A loop leaves only when the channel is closed and every message accepted since its
subscription attached has been taken.  Until then the handler has been called once for
each event among these messages, in the order of acceptance, and events, failures of
the handler and messages that are no events are counted.  A subscriber that goes on by
itself after the channel was closed leaves.
-/

namespace EventRelay

/-- A call that leaves a subscription to its subscriber. -/
def Channel.Call.Spares (subscription : Nat) : Channel.Call → Prop
  | .poll other _ => other ≠ subscription
  | .unsubscribe other => other ≠ subscription
  | .publication | .subscribe | .offer _ _ | .close => True

namespace Subscriber

open Channel (Call Exchange Sent fragmentsOf finished)

/-! ## Messages -/

/-- The events among messages, in order. -/
def eventsOf (messages : List Bytes) : List Event :=
  messages.filterMap fun message => (Event.decode message).toOption

/-- Whether a message is no event. -/
def isGarbage (message : Bytes) : Bool :=
  !(Event.decode message).isOk

/-- A handler that never breaks down. -/
def IsSteady (handler : Handler) : Prop :=
  ∀ event, handler event ≠ .brokeDown

/-- What a subscriber has handed to its handler since an earlier state of it. -/
def callsSince (handler : Handler) (earlier later : Subscriber) : List (Event × Reaction) :=
  (later.events.drop earlier.events.length).map fun event => (event, handler event)

/-- A subscriber has taken messages.  Each event among them was handed to its handler
once, in order; events, failures of the handler and messages that are no events
are counted. -/
structure Handled
    (before after : Metrics)
    (messages : List Bytes)
    (subscriber : Subscriber)
    (calls : List (Event × Reaction)) : Prop where
  isBroken_eq : subscriber.isBroken = false
  events_eq : subscriber.events = eventsOf messages
  calls_eq : calls.map Prod.fst = eventsOf messages
  received_grows : Grows before.received after.received (eventsOf messages).length
  decodeErrors_grows :
    Grows before.decodeErrors after.decodeErrors (messages.countP isGarbage)
  handlerErrors_grows : Grows before.handlerErrors after.handlerErrors
    (calls.countP fun call => call.2 = .failed)

variable {before metrics : Metrics} {messages : List Bytes} {subscriber : Subscriber}
variable {calls : List (Event × Reaction)} {handler : Handler}

theorem handled_initial (subscription maxSize : Nat) (metrics : Metrics) :
    Handled metrics metrics [] (initial subscription maxSize) [] :=
  ⟨rfl, rfl, rfl, .refl _, .refl _, .refl _⟩

theorem callsSince_self (handler : Handler) (subscriber : Subscriber) :
    callsSince handler subscriber subscriber = [] := by
  rw [callsSince, List.drop_length, List.map_nil]

/-- A message is handed on as an event, or counted as none. -/
theorem Handled.takeMessage
    (handled : Handled before metrics messages subscriber calls)
    (steady : IsSteady handler)
    (message : Bytes) :
    Handled before (takeMessage handler subscriber metrics message).2 (messages ++ [message])
      (takeMessage handler subscriber metrics message).1
      (calls ++ callsSince handler subscriber
        (takeMessage handler subscriber metrics message).1) := by
  obtain ⟨isBroken_eq, events_eq, calls_eq, received_grows, decodeErrors_grows,
    handlerErrors_grows⟩ := handled
  have garbage_grows := decodeErrors_grows.countP_concat message
  unfold Subscriber.takeMessage
  cases decoded : Event.decode message with
  | error fault =>
      have nothing : eventsOf (messages ++ [message]) = eventsOf messages := by
        simp [eventsOf, decoded, Except.toOption]
      rw [isGarbage, decoded] at garbage_grows
      dsimp only
      rw [callsSince_self, List.append_nil]
      exact ⟨isBroken_eq, events_eq.trans nothing.symm, calls_eq.trans nothing.symm,
        nothing ▸ received_grows, garbage_grows, handlerErrors_grows⟩
  | ok event =>
      have another : eventsOf (messages ++ [message]) = eventsOf messages ++ [event] := by
        simp [eventsOf, decoded, Except.toOption]
      have failed_grows := handlerErrors_grows.countP_concat (event, handler event)
      have reached := received_grows.concat event
      rw [isGarbage, decoded] at garbage_grows
      unfold handle
      cases reaction : handler event with
      | brokeDown => exact absurd reaction (steady event)
      | done | failed =>
          rw [reaction] at failed_grows
          simp only [callsSince, List.drop_left, List.map_singleton, reaction]
          refine ⟨isBroken_eq, ?_, ?_, ?_, garbage_grows, failed_grows⟩
          · rw [another, ← events_eq]
          · rw [another, List.map_append, calls_eq]
            rfl
          · rw [another]
            exact reached

theorem assembler_takeMessage
    (handler : Handler)
    (subscriber : Subscriber)
    (metrics : Metrics)
    (message : Bytes) :
    (takeMessage handler subscriber metrics message).1.assembler = subscriber.assembler ∧
      (takeMessage handler subscriber metrics message).1.subscription =
        subscriber.subscription := by
  unfold takeMessage handle
  split
  · split <;> exact ⟨rfl, rfl⟩
  · exact ⟨rfl, rfl⟩

/-! ## Fragments -/

/-- A subscriber has taken fragments. -/
structure HasTaken
    (maxSize : Nat)
    (before after : Metrics)
    (fragments : List Fragment)
    (subscriber : Subscriber)
    (calls : List (Event × Reaction)) : Prop where
  assembler_eq : subscriber.assembler = ((Assembler.initial maxSize).feedAll fragments).2
  handled : Handled before after ((Assembler.initial maxSize).feedAll fragments).1 subscriber
    calls

variable {maxSize : Nat} {fragments : List Fragment}

theorem feedAll_concat (assembler : Assembler) (fragments : List Fragment) (fragment : Fragment) :
    assembler.feedAll (fragments ++ [fragment]) =
      ((assembler.feedAll fragments).1 ++
          ((assembler.feedAll fragments).2.feed fragment).1.toList,
        ((assembler.feedAll fragments).2.feed fragment).2) := by
  rw [Assembler.feedAll_append, Assembler.feedAll_cons, Assembler.feedAll, List.append_nil]

theorem HasTaken.takeFragment
    (hasTaken : HasTaken maxSize before metrics fragments subscriber calls)
    (steady : IsSteady handler)
    (fragment : Fragment) :
    HasTaken maxSize before (takeFragment handler subscriber metrics fragment).2
      (fragments ++ [fragment]) (takeFragment handler subscriber metrics fragment).1
      (calls ++ callsSince handler subscriber
        (takeFragment handler subscriber metrics fragment).1) := by
  obtain ⟨assembler_eq, handled⟩ := hasTaken
  have fed := feedAll_concat (Assembler.initial maxSize) fragments fragment
  rw [← assembler_eq] at fed
  unfold Subscriber.takeFragment
  cases completed : subscriber.assembler.feed fragment with
  | mk message assembler =>
      rw [completed] at fed
      have handledSo : Handled before metrics ((Assembler.initial maxSize).feedAll fragments).1
          { subscriber with assembler := assembler } calls :=
        ⟨handled.isBroken_eq, handled.events_eq, handled.calls_eq, handled.received_grows,
          handled.decodeErrors_grows, handled.handlerErrors_grows⟩
      cases message with
      | none =>
          simp only [callsSince, List.drop_length, List.map_nil, List.append_nil]
          refine ⟨?_, ?_⟩
          · rw [fed]
          · rw [fed]
            simpa only [Option.toList_none, List.append_nil] using handledSo
      | some message =>
          obtain ⟨same, _⟩ := assembler_takeMessage handler
            { subscriber with assembler := assembler } metrics message
          refine ⟨?_, ?_⟩
          · rw [fed]
            exact same
          · rw [fed]
            exact handledSo.takeMessage steady message

theorem subscription_takeFragment
    (handler : Handler)
    (subscriber : Subscriber)
    (metrics : Metrics)
    (fragment : Fragment) :
    (takeFragment handler subscriber metrics fragment).1.subscription =
      subscriber.subscription := by
  unfold takeFragment
  split
  split
  · rfl
  · exact (assembler_takeMessage _ _ _ _).2

/-! ## The loop -/

/-- Where a subscriber is in its loop. -/
inductive Loop.Stage where
  /-- It is about to poll. -/
  | polling
  /-- It takes what it has polled. -/
  | taking (rest : List Fragment)
  /-- It has polled nothing and is about to look whether there will be more. -/
  | checking
  /-- It has left. -/
  | left
deriving DecidableEq, Repr

/-- The fragments that were polled and are not taken. -/
def Loop.Stage.rest : Loop.Stage → List Fragment
  | .taking rest => rest
  | .polling | .checking | .left => []

/-- Where a subscriber goes on after a poll. -/
def Loop.Stage.afterPoll (fragments : List Fragment) : Loop.Stage :=
  if fragments.isEmpty then .checking else .taking fragments

/-- A subscriber in its loop, the channel that it reads, and what it has handed to
its handler. -/
structure Loop where
  exchange : Exchange
  subscriber : Subscriber
  metrics : Metrics
  stage : Loop.Stage
  calls : List (Event × Reaction)

namespace Loop

/-- What happens to a loop or to its channel. -/
inductive Turn where
  /-- The subscriber takes a step.  Its handler may react to an event as it likes each
  time. -/
  | advance (handler : Handler)
  /-- Somebody else uses the channel. -/
  | other (call : Call)

/-- The handler does not break down, and nobody else touches the subscription. -/
def Turn.IsAllowed (subscription : Nat) : Turn → Prop
  | .advance handler => IsSteady handler
  | .other call => call.Spares subscription

/-- A subscriber that attaches to a channel after some calls. -/
def start (settings : Channel.Settings) (calls : List Call) (maxSize : Nat) (metrics : Metrics) :
    Loop where
  exchange := ((Exchange.start settings).run calls).step .subscribe
  subscriber :=
    .initial ((Exchange.start settings).run calls).channel.nextSubscription maxSize
  metrics := metrics
  stage := .polling
  calls := []

/-- Take the next of the fragments that were polled. -/
def take (loop : Loop) (handler : Handler) (fragment : Fragment) (rest : List Fragment) : Loop :=
  let (subscriber, metrics) :=
    takeFragment handler loop.subscriber loop.metrics fragment
  { loop with
    subscriber := subscriber
    metrics := metrics
    stage := .taking rest
    calls := loop.calls ++ callsSince handler loop.subscriber subscriber }

/-- A step of the subscriber. -/
def advance (loop : Loop) (limit : Nat) (handler : Handler) : Loop :=
  match loop.stage with
  | .polling =>
      let fragments := (loop.exchange.channel.poll loop.subscriber.subscription limit).1
      { loop with
        exchange := loop.exchange.step (.poll loop.subscriber.subscription limit)
        stage := .afterPoll fragments }
  | .taking [] => { loop with stage := .polling }
  | .taking (fragment :: rest) => loop.take handler fragment rest
  | .checking =>
      if loop.exchange.channel.isDrained loop.subscriber.subscription then
        { loop with stage := .left }
      else { loop with stage := .polling }
  | .left => loop

def step (limit : Nat) (loop : Loop) : Turn → Loop
  | .advance handler => loop.advance limit handler
  | .other call => { loop with exchange := loop.exchange.step call }

def run (limit : Nat) (loop : Loop) (turns : List Turn) : Loop :=
  turns.foldl (step limit) loop

/-! ## What others can do -/

variable {settings : Channel.Settings} {exchange : Exchange} {subscription : Nat}

/-- What others do takes nothing from a subscription, and adds nothing to it when the channel
is closed. -/
structure Keeps (subscription : Nat) (exchange after : Exchange) : Prop where
  attached : subscription ∈ after.attached
  received_eq : after.received subscription = exchange.received subscription
  isClosed : exchange.channel.isClosed = true → after.channel.isClosed = true
  accepted_eq : exchange.channel.isClosed = true →
    after.accepted subscription = exchange.accepted subscription

theorem keeps_step
    (invariant : exchange.Invariant settings)
    (attached : subscription ∈ exchange.attached)
    {call : Call}
    (spares : call.Spares subscription) :
    Keeps subscription exchange (exchange.step call) := by
  have isClosed : exchange.channel.isClosed = true →
      (exchange.step call).channel.isClosed = true := by
    rw [Exchange.channel_step]
    exact (Channel.follows_perform exchange.channel call).isClosed
  cases call with
  | publication | close => exact ⟨attached, rfl, isClosed, fun _ => rfl⟩
  | subscribe =>
      have different := invariant.ne_nextSubscription attached
      exact ⟨List.mem_append_left _ attached, Function.update_of_ne different _ _, isClosed,
        fun _ => Function.update_of_ne different _ _⟩
  | offer session message =>
      refine ⟨?_, ?_, isClosed, fun closed => ?_⟩
      · rw [Exchange.step]
        split <;> exact attached
      · rw [Exchange.step]
        split <;> rfl
      · rw [Exchange.step, Channel.offer, if_pos closed]
  | poll other limit =>
      exact ⟨attached, Function.update_of_ne (Ne.symm spares) _ _, isClosed, fun _ => rfl⟩
  | unsubscribe other =>
      refine ⟨?_, rfl, isClosed, fun _ => rfl⟩
      exact List.mem_filter.mpr ⟨attached, bne_iff_ne.mpr (Ne.symm spares)⟩

/-! ## The invariant -/

/-- The subscriber has taken what it has polled, but for the rest of the latest poll.
If it has left, the channel is closed and everything was polled. -/
structure Invariant
    (settings : Channel.Settings)
    (subscription maxSize : Nat)
    (before : Metrics)
    (loop : Loop) : Prop where
  exchange : loop.exchange.Invariant settings
  attached : subscription ∈ loop.exchange.attached
  subscription_eq : loop.subscriber.subscription = subscription
  exists_taken : ∃ taken,
    loop.exchange.received subscription = taken ++ loop.stage.rest ∧
      HasTaken maxSize before loop.metrics taken loop.subscriber loop.calls
  atEnd : loop.stage = .left → loop.exchange.channel.isClosed = true ∧
    loop.exchange.received subscription =
      fragmentsOf settings.mtu (loop.exchange.accepted subscription)

variable {loop : Loop} {limit : Nat}

theorem invariant_start
    (settings : Channel.Settings)
    (calls : List Call)
    (maxSize : Nat)
    (metrics : Metrics) :
    (start settings calls maxSize metrics).Invariant settings
      (start settings calls maxSize metrics).subscriber.subscription maxSize metrics where
  exchange := ((Exchange.invariant_start settings).run calls).subscribe
  attached := List.mem_append_right _ (List.mem_singleton_self _)
  subscription_eq := rfl
  exists_taken := ⟨[], Function.update_self _ _ _, rfl, handled_initial _ maxSize metrics⟩
  atEnd := by rintro ⟨⟩

theorem Invariant.other
    (invariant : loop.Invariant settings subscription maxSize before)
    {call : Call}
    (spares : call.Spares subscription) :
    (loop.step limit (.other call)).Invariant settings subscription maxSize before := by
  obtain ⟨exchange, attached, subscription_eq, exists_taken, atEnd⟩ := invariant
  have keeps := keeps_step exchange attached spares
  refine ⟨exchange.step call, keeps.attached, subscription_eq, ?_, fun hasLeft => ?_⟩
  · rw [step, keeps.received_eq]
    exact exists_taken
  -- Who has left has left a closed channel, which accepts nothing more.
  · obtain ⟨closed, received_eq⟩ := atEnd hasLeft
    rw [step, keeps.received_eq, keeps.accepted_eq closed]
    exact ⟨keeps.isClosed closed, received_eq⟩

theorem received_step_poll (exchange : Exchange) (subscription limit : Nat) :
    (exchange.step (.poll subscription limit)).received subscription =
      exchange.received subscription ++ (exchange.channel.poll subscription limit).1 :=
  Function.update_self _ _ _

theorem Stage.rest_afterPoll (fragments : List Fragment) :
    (afterPoll fragments).rest = fragments := by
  cases fragments <;> rfl

theorem Stage.afterPoll_ne_left (fragments : List Fragment) :
    afterPoll fragments ≠ .left := by
  cases fragments <;> rintro ⟨⟩

/-- What is polled is to be taken. -/
theorem Invariant.poll
    (invariant : loop.Invariant settings subscription maxSize before)
    (isPolling : loop.stage = .polling)
    (handler : Handler) :
    (loop.advance limit handler).Invariant settings subscription maxSize before := by
  obtain ⟨exchange, attached, rfl, ⟨taken, received_eq, hasTaken⟩, _⟩ := invariant
  rw [isPolling, Stage.rest, List.append_nil] at received_eq
  rw [advance, isPolling]
  dsimp only
  refine ⟨exchange.step (.poll _ limit), attached, rfl, ⟨taken, ?_, hasTaken⟩, ?_⟩
  · refine (received_step_poll _ _ _).trans ?_
    rw [received_eq, Stage.rest_afterPoll]
  · exact fun hasLeft => absurd hasLeft (Stage.afterPoll_ne_left _)

/-- A fragment that is taken is no longer to be taken. -/
theorem Invariant.take
    (invariant : loop.Invariant settings subscription maxSize before)
    {fragment : Fragment}
    {rest : List Fragment}
    (isTaking : loop.stage = .taking (fragment :: rest))
    (steady : IsSteady handler) :
    (loop.take handler fragment rest).Invariant settings subscription maxSize before := by
  obtain ⟨exchange, attached, rfl, ⟨taken, received_eq, hasTaken⟩, _⟩ := invariant
  rw [isTaking] at received_eq
  refine ⟨exchange, attached, subscription_takeFragment _ _ _ _,
    ⟨taken ++ [fragment], ?_, hasTaken.takeFragment steady fragment⟩, by rintro ⟨⟩⟩
  rw [List.append_assoc]
  exact received_eq

/-- A channel that is closed and read to its end has handed out everything. -/
theorem received_eq_of_isDrained
    (invariant : exchange.Invariant settings)
    (attached : subscription ∈ exchange.attached)
    (drained : exchange.channel.isDrained subscription = true) :
    exchange.channel.isClosed = true ∧
      exchange.received subscription =
        fragmentsOf settings.mtu (exchange.accepted subscription) := by
  obtain ⟨cursor, found, inRange, fragments_eq⟩ := invariant.exists_cursor attached
  rw [Channel.isDrained, found, Bool.and_eq_true, decide_eq_true_eq] at drained
  have nothing : exchange.channel.pendingOf cursor = [] := by
    have tail := drained.2
    rw [Channel.tailIndex] at tail
    exact List.drop_of_length_le (by omega)
  rw [nothing, List.append_nil] at fragments_eq
  exact ⟨drained.1, fragments_eq⟩

theorem Invariant.advance
    (invariant : loop.Invariant settings subscription maxSize before)
    (steady : IsSteady handler) :
    (loop.advance limit handler).Invariant settings subscription maxSize before := by
  cases stage_eq : loop.stage with
  | polling => exact invariant.poll stage_eq handler
  | taking fragments =>
      cases fragments with
      | nil =>
          obtain ⟨exchange, attached, subscription_eq, exists_taken, _⟩ := invariant
          rw [Loop.advance, stage_eq]
          rw [stage_eq] at exists_taken
          exact ⟨exchange, attached, subscription_eq, exists_taken, by rintro ⟨⟩⟩
      | cons fragment rest =>
          rw [Loop.advance, stage_eq]
          exact invariant.take stage_eq steady
  | checking =>
      obtain ⟨exchange, attached, rfl, exists_taken, _⟩ := invariant
      rw [Loop.advance, stage_eq]
      rw [stage_eq] at exists_taken
      dsimp only
      split
      · rename_i drained
        exact ⟨exchange, attached, rfl, exists_taken,
          fun _ => received_eq_of_isDrained exchange attached drained⟩
      · exact ⟨exchange, attached, rfl, exists_taken, by rintro ⟨⟩⟩
  | left =>
      rw [Loop.advance, stage_eq]
      exact invariant

theorem Invariant.run
    (invariant : loop.Invariant settings subscription maxSize before)
    {turns : List Turn}
    (allowed : ∀ turn ∈ turns, turn.IsAllowed subscription) :
    (loop.run limit turns).Invariant settings subscription maxSize before := by
  induction turns generalizing loop with
  | nil => exact invariant
  | cons turn turns inductionHypothesis =>
      obtain ⟨first, others⟩ := List.forall_mem_cons.mp allowed
      refine inductionHypothesis ?_ others
      cases turn with
      | advance handler => exact invariant.advance first
      | other call => exact invariant.other first

/-! ## The end -/

/-- A bound on the number of steps to the end from a stage, if nobody else does
anything. -/
def Stage.distance (unread : Nat) : Stage → Nat
  | .polling => 3 * unread + 2
  | .taking rest => 3 * unread + rest.length + 3
  | .checking => if unread = 0 then 1 else 3 * unread + 3
  | .left => 0

def remaining (loop : Loop) : Nat :=
  loop.stage.distance (loop.subscriber.unread loop.exchange.channel)

theorem unread_of_cursor?_eq_some
    {channel : Channel}
    {cursor : Channel.Cursor}
    (found : channel.cursor? subscriber.subscription = some cursor) :
    subscriber.unread channel = (channel.pendingOf cursor).length := by
  rw [unread, found]

theorem isDrained_iff_unread_eq_zero
    (invariant : exchange.Invariant settings)
    (attached : subscriber.subscription ∈ exchange.attached)
    (closed : exchange.channel.isClosed = true) :
    exchange.channel.isDrained subscriber.subscription = true ↔
      subscriber.unread exchange.channel = 0 := by
  obtain ⟨cursor, found, inRange, _⟩ := invariant.exists_cursor attached
  have tail := inRange.le_tailIndex
  have base := inRange.baseIndex_le
  rw [unread_of_cursor?_eq_some found, Channel.isDrained, found, closed, Bool.true_and,
    decide_eq_true_eq, Channel.pendingOf, List.length_drop]
  rw [Channel.tailIndex] at tail ⊢
  omega

/-- A poll takes what it hands out off what is unread. -/
theorem unread_step_poll
    (invariant : exchange.Invariant settings)
    (attached : subscriber.subscription ∈ exchange.attached)
    (limit : Nat) :
    (exchange.channel.poll subscriber.subscription limit).1.length =
        min limit (subscriber.unread exchange.channel) ∧
      subscriber.unread (exchange.step (.poll subscriber.subscription limit)).channel =
        subscriber.unread exchange.channel - limit := by
  obtain ⟨cursor, found, _, parts⟩ := invariant.exists_cursor attached
  have after := invariant.step (.poll subscriber.subscription limit)
  obtain ⟨moved, foundAfter, _, partsAfter⟩ := after.exists_cursor attached
  rw [received_step_poll, Channel.poll_of_cursor?_eq_some found] at partsAfter
  rw [unread_of_cursor?_eq_some found, unread_of_cursor?_eq_some foundAfter,
    Channel.poll_of_cursor?_eq_some found]
  -- What was handed out and what is unread make up the same fragments before and after.
  have lengths := congrArg List.length (partsAfter.trans parts.symm)
  simp only [List.length_append, List.length_take] at lengths
  exact ⟨List.length_take, by omega⟩

/-- A poll brings a subscriber closer to its end. -/
theorem distance_afterPoll
    {unread : Nat}
    {fragments : List Fragment}
    (limit_pos : 0 < limit)
    (length_eq : fragments.length = min limit unread) :
    (Stage.afterPoll fragments).distance (unread - limit) < Stage.polling.distance unread := by
  cases fragments with
  | nil =>
      rw [List.length_nil] at length_eq
      simp only [Stage.afterPoll, List.isEmpty_nil, if_true, Stage.distance]
      split <;> omega
  | cons fragment rest =>
      rw [List.length_cons] at length_eq
      simp only [Stage.afterPoll, List.isEmpty_cons, Bool.false_eq_true, if_false, Stage.distance,
        List.length_cons]
      omega

/-- A subscriber that goes on by itself on a closed channel comes closer to its end with
each step. -/
theorem remaining_advance
    (invariant : loop.Invariant settings subscription maxSize before)
    (limit_pos : 0 < limit)
    (closed : loop.exchange.channel.isClosed = true)
    (notLeft : loop.stage ≠ .left)
    (handler : Handler) :
    (loop.advance limit handler).remaining < loop.remaining := by
  obtain ⟨exchange, attached, rfl, _, _⟩ := invariant
  unfold remaining
  cases stage_eq : loop.stage with
  | polling =>
      obtain ⟨length_eq, unread_eq⟩ := unread_step_poll exchange attached limit
      rw [advance, stage_eq]
      dsimp only
      rw [unread_eq]
      exact distance_afterPoll limit_pos length_eq
  | taking fragments =>
      cases fragments with
      | nil =>
          rw [advance, stage_eq]
          exact Nat.lt_succ_self _
      | cons fragment rest =>
          have same := subscription_takeFragment handler loop.subscriber loop.metrics fragment
          rw [advance, stage_eq]
          unfold Loop.take
          dsimp only [Stage.distance]
          rw [unread, same, ← unread, List.length_cons]
          omega
  | checking =>
      have drained_iff := isDrained_iff_unread_eq_zero exchange attached closed
      rw [advance, stage_eq]
      dsimp only
      by_cases drained : loop.exchange.channel.isDrained loop.subscriber.subscription = true
      · rw [if_pos drained, Stage.distance, Stage.distance, if_pos (drained_iff.mp drained)]
        exact Nat.one_pos
      · rw [if_neg drained, Stage.distance, Stage.distance,
          if_neg (mt drained_iff.mpr drained)]
        exact Nat.lt_succ_self _
  | left => exact absurd stage_eq notLeft

theorem isClosed_advance (loop : Loop) (limit : Nat) (handler : Handler)
    (closed : loop.exchange.channel.isClosed = true) :
    (loop.advance limit handler).exchange.channel.isClosed = true := by
  unfold advance
  split
  · dsimp only
    rw [Exchange.channel_step]
    exact (Channel.follows_perform _ _).isClosed closed
  · exact closed
  · exact closed
  · split <;> exact closed
  · exact closed

/-- A subscriber that goes on by itself on a closed channel leaves. -/
theorem exists_left
    (invariant : loop.Invariant settings subscription maxSize before)
    (limit_pos : 0 < limit)
    (closed : loop.exchange.channel.isClosed = true)
    (steady : IsSteady handler) :
    ∃ count, (loop.run limit (List.replicate count (.advance handler))).stage = .left := by
  induction bound : loop.remaining using Nat.strongRecOn generalizing loop with
  | ind bound inductionHypothesis =>
      subst bound
      by_cases hasLeft : loop.stage = .left
      · exact ⟨0, hasLeft⟩
      · have less := remaining_advance invariant limit_pos closed hasLeft handler
        obtain ⟨count, left⟩ := inductionHypothesis _ less (invariant.advance steady)
          (isClosed_advance loop limit handler closed) rfl
        exact ⟨count + 1, left⟩

/-! ## What a subscriber has done when it leaves -/

/-- The channel is closed, and every message accepted since the subscription attached
was polled, put together and handled. -/
structure ReadsAll
    (mtu subscription : Nat)
    (before : Metrics)
    (loop : Loop) : Prop where
  isClosed : loop.exchange.channel.isClosed = true
  received_eq : loop.exchange.received subscription =
    fragmentsOf mtu (loop.exchange.accepted subscription)
  dropped_eq : loop.subscriber.assembler.dropped = 0
  handled : Handled before loop.metrics
    ((loop.exchange.accepted subscription).map Sent.message) loop.subscriber loop.calls

theorem Invariant.readsAll
    (invariant : loop.Invariant settings subscription maxSize before)
    (fits : ∀ sent ∈ loop.exchange.accepted subscription, sent.message.length ≤ maxSize)
    (hasLeft : loop.stage = .left) :
    ReadsAll settings.mtu subscription before loop := by
  obtain ⟨_, _, _, ⟨taken, taken_eq, assembler_eq, handled⟩, atEnd⟩ := invariant
  obtain ⟨closed, received_eq⟩ := atEnd hasLeft
  rw [hasLeft, Stage.rest, List.append_nil] at taken_eq
  obtain ⟨messages_eq, dropped_eq⟩ := Channel.feedAll_fragmentsOf fits settings.mtu
    (fragmentsOf settings.mtu (loop.exchange.accepted subscription)).length
  rw [List.take_length, ← received_eq, taken_eq] at messages_eq dropped_eq
  rw [← taken_eq, received_eq, Channel.finished_length_fragmentsOf] at messages_eq
  refine ⟨closed, received_eq, ?_, ?_⟩
  · rw [assembler_eq, dropped_eq]
  · rw [← messages_eq, ← received_eq, taken_eq]
    exact handled

/-- Whatever others do, a subscriber that leaves has read everything; and it leaves if it
goes on by itself after the channel was closed. -/
theorem readsAll_of_left
    {settings : Channel.Settings}
    {calls : List Call}
    {maxSize limit : Nat}
    {before : Metrics}
    {turns : List Turn}
    (allowed : ∀ turn ∈ turns,
      turn.IsAllowed (start settings calls maxSize before).subscriber.subscription)
    (fits : ∀ sent ∈ ((start settings calls maxSize before).run limit turns).exchange.accepted
      (start settings calls maxSize before).subscriber.subscription,
      sent.message.length ≤ maxSize) :
    (((start settings calls maxSize before).run limit turns).stage = .left →
      ReadsAll settings.mtu (start settings calls maxSize before).subscriber.subscription before
        ((start settings calls maxSize before).run limit turns)) ∧
    (0 < limit →
      ((start settings calls maxSize before).run limit turns).exchange.channel.isClosed = true →
      ∀ handler, IsSteady handler → ∃ count,
        (((start settings calls maxSize before).run limit turns).run limit
          (List.replicate count (.advance handler))).stage = .left) := by
  have invariant : ((start settings calls maxSize before).run limit turns).Invariant settings
      (start settings calls maxSize before).subscriber.subscription maxSize before :=
    (invariant_start settings calls maxSize before).run allowed
  exact ⟨invariant.readsAll fits, fun limit_pos closed _ steady =>
    exists_left invariant limit_pos closed steady⟩

/-- An event and a message that is none, and then, between an empty poll and the look that
follows it, the event again and the closing.  The handler fails the second time. -/
def disturbed : List Turn :=
  let advances (count : Nat) : List Turn := List.replicate count (.advance fun _ => .done)
  [.other .publication, .other .publication, .other (.offer 1 Event.sample.encode),
      .other (.offer 2 [1, 2, 3])] ++ advances 9 ++
    [.other (.offer 1 Event.sample.encode), .other .close] ++ advances 6 ++
    [.advance fun _ => .failed] ++ advances 3

theorem readsAll_of_left_disturbed :
    let origin := start ⟨256, 1024, 20, 4096⟩ [] 64 .initial
    let loop := origin.run 2 disturbed
    (∀ turn ∈ disturbed, turn.IsAllowed origin.subscriber.subscription) ∧
      (∀ sent ∈ loop.exchange.accepted origin.subscriber.subscription,
        sent.message.length ≤ 64) ∧
      loop.stage = .left ∧
      ReadsAll 20 origin.subscriber.subscription .initial loop ∧
      loop.calls = [(Event.sample, .done), (Event.sample, .failed)] := by
  intro origin loop
  have allowed : ∀ turn ∈ disturbed, turn.IsAllowed origin.subscriber.subscription := by
    simp [disturbed, Turn.IsAllowed, IsSteady, Channel.Call.Spares, or_imp, forall_and]
  have fits : ∀ sent ∈ loop.exchange.accepted origin.subscriber.subscription,
      sent.message.length ≤ 64 := by
    decide +kernel
  have hasLeft : loop.stage = .left := by decide +kernel
  exact ⟨allowed, fits, hasLeft, (readsAll_of_left allowed fits).1 hasLeft, by decide +kernel⟩

/-! ## The loop as it runs -/

theorem run_replicate_add (loop : Loop) (limit count more : Nat) (turn : Turn) :
    loop.run limit (List.replicate (count + more) turn) =
      (loop.run limit (List.replicate count turn)).run limit (List.replicate more turn) := by
  rw [run, List.replicate_add, List.foldl_append]
  rfl

theorem isBroken_takeFragment
    (steady : IsSteady handler)
    (subscriber : Subscriber)
    (metrics : Metrics)
    (fragment : Fragment) :
    (takeFragment handler subscriber metrics fragment).1.isBroken = subscriber.isBroken := by
  unfold takeFragment takeMessage handle
  split
  split
  · rfl
  · split
    · split
      · rfl
      · rfl
      · rename_i isBroken
        exact absurd isBroken (steady _)
    · rfl

theorem isBroken_takeFragments
    (steady : IsSteady handler)
    (notBroken : subscriber.isBroken = false)
    (metrics : Metrics) :
    (takeFragments handler fragments subscriber metrics).1.isBroken = false := by
  induction fragments generalizing subscriber metrics with
  | nil => exact notBroken
  | cons fragment rest inductionHypothesis =>
      have stillWhole :=
        (isBroken_takeFragment steady subscriber metrics fragment).trans notBroken
      rw [takeFragments]
      dsimp only
      rw [stillWhole, if_neg Bool.false_ne_true]
      exact inductionHypothesis stillWhole _

/-- A subscriber that nobody disturbs takes what it has polled. -/
theorem exists_run_taking
    (isTaking : loop.stage = .taking fragments)
    (notBroken : loop.subscriber.isBroken = false)
    (steady : IsSteady handler) :
    ∃ calls, loop.run limit (List.replicate (fragments.length + 1) (.advance handler)) =
      { exchange := loop.exchange
        subscriber := (takeFragments handler fragments loop.subscriber loop.metrics).1
        metrics := (takeFragments handler fragments loop.subscriber loop.metrics).2
        stage := .polling
        calls := calls } := by
  induction fragments generalizing loop with
  | nil =>
      refine ⟨loop.calls, ?_⟩
      change loop.advance limit handler = _
      rw [advance, isTaking]
      rfl
  | cons fragment rest inductionHypothesis =>
      have stillWhole := isBroken_takeFragment steady loop.subscriber loop.metrics fragment
      have advanced : loop.advance limit handler = loop.take handler fragment rest := by
        rw [advance, isTaking]
      have isTakingRest : (loop.take handler fragment rest).stage = .taking rest := rfl
      obtain ⟨calls, ran⟩ := inductionHypothesis isTakingRest (stillWhole.trans notBroken)
      refine ⟨calls, ?_⟩
      change (loop.advance limit handler).run limit _ = _
      rw [advanced]
      refine ran.trans ?_
      rw [takeFragments]
      dsimp only [Loop.take]
      rw [stillWhole, notBroken, if_neg Bool.false_ne_true]

/-- What the steps of a subscriber that nobody disturbs lead to. -/
def Leads (limit : Nat) (handler : Handler) (loop after : Loop) : Prop :=
  ∃ count, loop.run limit (List.replicate count (.advance handler)) = after

theorem Leads.trans
    {between after : Loop}
    (first : Leads limit handler loop between)
    (second : Leads limit handler between after) :
    Leads limit handler loop after := by
  obtain ⟨count, rfl⟩ := first
  obtain ⟨more, rfl⟩ := second
  exact ⟨count + more, run_replicate_add loop limit count more _⟩

theorem poll_eq
    {channel : Channel}
    (polled : (channel.poll subscriber.subscription limit).1 = fragments)
    (handler : Handler)
    (metrics : Metrics) :
    poll handler limit subscriber metrics channel =
      (!fragments.isEmpty, (takeFragments handler fragments subscriber metrics).1,
        (takeFragments handler fragments subscriber metrics).2,
        (channel.poll subscriber.subscription limit).2) := by
  subst polled
  rfl

/-- A subscriber that nobody disturbs polls as a whole. -/
theorem exists_leads_poll
    (isPolling : loop.stage = .polling)
    (notBroken : loop.subscriber.isBroken = false)
    (steady : IsSteady handler) :
    ∃ after, Leads limit handler loop after ∧
      after.stage = (if (poll handler limit loop.subscriber loop.metrics
        loop.exchange.channel).1 then .polling else .checking) ∧
      (after.subscriber, after.metrics, after.exchange.channel) =
        (poll handler limit loop.subscriber loop.metrics loop.exchange.channel).2 ∧
      after.subscriber.isBroken = false := by
  have advanced : loop.advance limit handler =
      { loop with
        exchange := loop.exchange.step (.poll loop.subscriber.subscription limit)
        stage := .afterPoll
          (loop.exchange.channel.poll loop.subscriber.subscription limit).1 } := by
    rw [advance, isPolling]
  cases fragments_eq : (loop.exchange.channel.poll loop.subscriber.subscription limit).1 with
  | nil =>
      rw [fragments_eq] at advanced
      refine ⟨_, ⟨1, advanced⟩, ?_⟩
      rw [poll_eq fragments_eq]
      exact ⟨rfl, rfl, notBroken⟩
  | cons fragment rest =>
      rw [fragments_eq] at advanced
      have isTaking : (loop.advance limit handler).stage = .taking (fragment :: rest) := by
        rw [advanced]
        rfl
      have stillWhole : (loop.advance limit handler).subscriber.isBroken = false := by
        rw [advanced]
        exact notBroken
      obtain ⟨calls, ran⟩ := exists_run_taking isTaking stillWhole steady
      refine ⟨_, Leads.trans ⟨1, advanced⟩ ⟨_, advanced ▸ ran⟩, ?_⟩
      rw [poll_eq fragments_eq]
      exact ⟨rfl, rfl, isBroken_takeFragments steady notBroken _⟩

/-- A subscriber that nobody disturbs polls up to a poll that reads nothing. -/
theorem exists_leads_polls
    (isPolling : loop.stage = .polling)
    (notBroken : loop.subscriber.isBroken = false)
    (steady : IsSteady handler)
    (times : Nat) :
    ∃ after, Leads limit handler loop after ∧
      (after.subscriber, after.metrics, after.exchange.channel) =
        polls handler limit times loop.subscriber loop.metrics loop.exchange.channel := by
  induction times generalizing loop with
  | zero => exact ⟨loop, ⟨0, rfl⟩, rfl⟩
  | succ times inductionHypothesis =>
      obtain ⟨between, leads, stage_eq, polled_eq, stillWhole⟩ :=
        exists_leads_poll isPolling notBroken steady
      unfold polls
      generalize poll handler limit loop.subscriber loop.metrics loop.exchange.channel =
        polled at stage_eq polled_eq ⊢
      obtain ⟨isActive, subscriber, metrics, channel⟩ := polled
      cases polled_eq
      dsimp only
      rw [stillWhole]
      cases isActive with
      | false => exact ⟨between, leads, rfl⟩
      | true =>
          obtain ⟨after, further, polls_eq⟩ := inductionHypothesis stage_eq stillWhole
          exact ⟨after, leads.trans further, polls_eq⟩

end Loop
end Subscriber
end EventRelay
