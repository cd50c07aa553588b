import EventRelay.Proofs.Relay.Books

/-!
# What a relay does by turns

A relay publishes an event, lets its subscribers read, replays its log, lets its workers
do what is queued, and stops, all of it by turns.  Books that are in order before such an
operation can be kept in order through it.
-/

namespace EventRelay

/-! ## What subscribers count -/

/-- Nothing was counted but events that subscribers read. -/
def CountsReading (before after : Metrics) : Prop :=
  after = { before with
    received := after.received
    handlerErrors := after.handlerErrors
    decodeErrors := after.decodeErrors }

theorem CountsReading.refl (metrics : Metrics) : CountsReading metrics metrics :=
  rfl

theorem CountsReading.trans
    {before between after : Metrics}
    (lower : CountsReading before between)
    (upper : CountsReading between after) :
    CountsReading before after := by
  unfold CountsReading at *
  rw [lower] at upper
  exact upper

namespace Subscriber

theorem countsReading_takeFragment
    (handler : Handler)
    (subscriber : Subscriber)
    (metrics : Metrics)
    (fragment : Fragment) :
    CountsReading metrics (takeFragment handler subscriber metrics fragment).2 := by
  unfold takeFragment takeMessage handle
  split
  split
  · rfl
  · split
    · split <;> rfl
    · rfl

theorem countsReading_takeFragments
    (handler : Handler)
    (fragments : List Fragment)
    (subscriber : Subscriber)
    (metrics : Metrics) :
    CountsReading metrics (takeFragments handler fragments subscriber metrics).2 := by
  induction fragments generalizing subscriber metrics with
  | nil => rfl
  | cons fragment rest inductionHypothesis =>
      have first := countsReading_takeFragment handler subscriber metrics fragment
      rw [takeFragments]
      dsimp only
      split
      · exact first
      · exact first.trans (inductionHypothesis _ _)

theorem countsReading_polls
    (handler : Handler)
    (limit times : Nat)
    (subscriber : Subscriber)
    (metrics : Metrics)
    (channel : Channel) :
    CountsReading metrics (polls handler limit times subscriber metrics channel).2.1 := by
  induction times generalizing subscriber metrics channel with
  | zero => rfl
  | succ times inductionHypothesis =>
      have first := countsReading_takeFragments handler
        (channel.poll subscriber.subscription limit).1 subscriber metrics
      rw [polls]
      dsimp only
      split
      · exact first.trans (inductionHypothesis _ _ _)
      · exact first

end Subscriber

theorem Listener.countsReading_catchUp
    (listener : Listener)
    (limit : Nat)
    (metrics : Metrics)
    (channel : Channel) :
    CountsReading metrics (listener.catchUp limit metrics channel).2.1 := by
  unfold catchUp
  split
  · rfl
  · exact Subscriber.countsReading_polls _ _ _ _ _ _

theorem Relay.countsReading_catchUpAll
    (limit : Nat)
    (listeners : List Listener)
    (metrics : Metrics)
    (channel : Channel) :
    CountsReading metrics (catchUpAll limit listeners metrics channel).2.1 := by
  induction listeners generalizing metrics channel with
  | nil => rfl
  | cons listener rest inductionHypothesis =>
      rw [catchUpAll]
      exact (listener.countsReading_catchUp limit metrics channel).trans
        (inductionHypothesis _ _)

namespace Books

/-! ## Turns -/

/-- Turns lead from a relay to a later state of it, whatever its books hold. -/
def Reaches (relay after : Relay) : Prop :=
  ∀ ledger, ∃ turns, (run ⟨relay, ledger⟩ turns).relay = after

variable {relay between after : Relay}

@[refl] theorem Reaches.refl (relay : Relay) : Reaches relay relay :=
  fun _ => ⟨[], rfl⟩

theorem Reaches.trans
    (lower : Reaches relay between)
    (upper : Reaches between after) :
    Reaches relay after := by
  intro ledger
  obtain ⟨turns, rfl⟩ := lower ledger
  obtain ⟨more, ran⟩ := upper (run ⟨relay, ledger⟩ turns).ledger
  refine ⟨turns ++ more, ?_⟩
  rw [run, List.foldl_append]
  exact ran

theorem Reaches.of_turn
    (turn : Turn)
    (stepped : ∀ ledger, (step ⟨relay, ledger⟩ turn).relay = after) :
    Reaches relay after :=
  fun ledger => ⟨[turn], stepped ledger⟩

/-- Books that are in order can be kept in order. -/
theorem Reaches.exists_invariant
    {topic : String}
    {limit : Nat}
    {ledger : Ledger}
    (reaches : Reaches relay after)
    (invariant : (Books.mk relay ledger).Invariant topic limit) :
    ∃ later, (Books.mk after later).Invariant topic limit := by
  obtain ⟨turns, rfl⟩ := reaches ledger
  exact ⟨_, invariant.run turns⟩

theorem reaches_become (relay other : Relay) : Reaches relay (become relay other) :=
  .of_turn (.become other) fun _ => rfl

theorem reaches_store (relay : Relay) (store : Store) :
    Reaches relay { relay with store := store } :=
  reaches_become relay { relay with store := store }

/-! ## Events and subscribers -/

theorem reaches_publish (relay : Relay) (latency : UInt64) (event : Event) :
    Reaches relay (relay.publish latency event).2 :=
  .of_turn (.publish latency event) fun _ => rfl

theorem reaches_deliver (relay : Relay) : Reaches relay relay.deliver := by
  have counts := Relay.countsReading_catchUpAll relay.settings.transport.fragmentLimit.toNat
    relay.listeners relay.metrics relay.channel
  have same : become relay relay.deliver = relay.deliver := by
    unfold Relay.deliver become
    dsimp only
    rw [← counts]
  rw [← same]
  exact reaches_become relay relay.deliver

theorem reaches_stopListener (relay : Relay) (index : Nat) :
    Reaches relay (relay.stopListener index) := by
  unfold Relay.stopListener
  split
  · rfl
  · rename_i listener _
    exact reaches_become relay { relay with
      listeners := relay.listeners.set index (listener.stop relay.channel).1
      channel := (listener.stop relay.channel).2 }

theorem reaches_stopListeners (relay : Relay) : Reaches relay relay.stopListeners := by
  unfold Relay.stopListeners
  generalize List.range relay.listeners.length = indices
  induction indices generalizing relay with
  | nil => rfl
  | cons index rest inductionHypothesis =>
      exact (reaches_stopListener relay index).trans (inductionHypothesis _)

/-! ## The workers -/

theorem receiveAll_of_receive?_eq_none
    {recorder : Recorder}
    (nothing : recorder.receive? = none)
    (count : Nat) :
    recorder.receiveAll count = recorder := by
  cases count with
  | zero => rfl
  | succ count => rw [Recorder.receiveAll, nothing]

/-- Entries are taken off the queue one by one. -/
theorem reaches_receiveAll (relay : Relay) (count : Nat) :
    Reaches relay { relay with recorder := relay.recorder.receiveAll count } := by
  induction count generalizing relay with
  | zero => rfl
  | succ count inductionHypothesis =>
      cases received : relay.recorder.receive? with
      | none => rw [receiveAll_of_receive?_eq_none received]
      | some recorder =>
          have taken : Reaches relay { relay with recorder := recorder } := by
            refine .of_turn .take fun ledger => ?_
            rw [step, received]
          rw [Recorder.receiveAll, received]
          exact taken.trans (inductionHypothesis { relay with recorder := recorder })

/-- A batch is stored by taking its entries and having the answer of the store. -/
theorem reaches_step_recorder
    {recorder : Recorder}
    {store : Store}
    {disk grown : Disk}
    {counted : Metrics}
    (stepped : relay.recorder.step? relay.store disk relay.metrics =
      some (recorder, store, grown, counted)) :
    Reaches relay
      { relay with recorder := recorder, store := store, metrics := counted } := by
  rw [Recorder.step?_eq, Option.map_eq_some_iff] at stepped
  obtain ⟨batched, isTaken, stored⟩ := stepped
  obtain ⟨_, _, rfl⟩ := Recorder.takeBatch?_eq_some isTaken
  refine (reaches_receiveAll relay relay.recorder.batchMax).trans ?_
  generalize relay.recorder.receiveAll relay.recorder.batchMax = batched at stored ⊢
  unfold Recorder.storeBatch at stored
  generalize relay.store.append disk batched.batch = answered at stored
  obtain ⟨result, store, grown⟩ := answered
  cases stored
  have answered : Reaches { relay with recorder := batched } { relay with
      recorder := (batched.finish result relay.metrics).1
      metrics := (batched.finish result relay.metrics).2 } :=
    .of_turn (.store result) fun _ => rfl
  exact answered.trans (reaches_store _ store)

theorem reaches_steps_recorder (limit : Nat) (relay : Relay) (disk : Disk) :
    Reaches relay (
      let (recorder, store, _, metrics) :=
        relay.recorder.steps limit relay.store disk relay.metrics
      { relay with recorder := recorder, store := store, metrics := metrics }) := by
  induction limit generalizing relay disk with
  | zero => rfl
  | succ limit inductionHypothesis =>
      unfold Recorder.steps
      cases stepped : relay.recorder.step? relay.store disk relay.metrics with
      | none => rfl
      | some result =>
          obtain ⟨recorder, store, grown, counted⟩ := result
          exact (reaches_step_recorder stepped).trans (inductionHypothesis
            { relay with recorder := recorder, store := store, metrics := counted } grown)

theorem reaches_step_forwarder
    {forwarder : Forwarder}
    {grown : Broker}
    {counted : Metrics}
    (stepped : relay.forwarder.step? relay.broker relay.metrics =
      some (forwarder, grown, counted)) :
    Reaches relay
      { relay with forwarder := forwarder, broker := grown, metrics := counted } := by
  rcases Forwarder.step?_cases stepped with
    ⟨begun, rfl, rfl⟩ | ⟨received, rfl, rfl⟩ | ⟨entry, result, completed, rfl⟩
  · refine .of_turn .send fun ledger => ?_
    rw [step, Books.send, begun]
  · refine .of_turn .fetch fun ledger => ?_
    rw [step, received]
  · have answered : Reaches relay { relay with
        forwarder := forwarder
        metrics := Forwarder.count result relay.metrics } := by
      refine .of_turn (.answer 0 result) fun ledger => ?_
      rw [step, Books.answer, completed]
    refine answered.trans ?_
    exact reaches_become _ { relay with
      broker := grown
      metrics := Forwarder.count result relay.metrics }

theorem reaches_steps_forwarder (limit : Nat) (relay : Relay) :
    Reaches relay (
      let (forwarder, broker, metrics) :=
        relay.forwarder.steps limit relay.broker relay.metrics
      { relay with forwarder := forwarder, broker := broker, metrics := metrics }) := by
  induction limit generalizing relay with
  | zero => rfl
  | succ limit inductionHypothesis =>
      unfold Forwarder.steps
      cases stepped : relay.forwarder.step? relay.broker relay.metrics with
      | none => rfl
      | some result =>
          obtain ⟨forwarder, grown, counted⟩ := result
          exact (reaches_step_forwarder stepped).trans (inductionHypothesis
            { relay with forwarder := forwarder, broker := grown, metrics := counted })

/-- Both workers do what is queued. -/
theorem reaches_settle (relay : Relay) (disk : Disk) :
    Reaches relay (relay.settle disk).1 :=
  (reaches_steps_recorder _ relay disk).trans (reaches_steps_forwarder _ _)

/-! ## Replays -/

theorem reaches_republish
    (latency : UInt64)
    (event : Event)
    (scene : Replay.Scene Relay) :
    Reaches scene.state (Relay.republish latency event scene).2.state := by
  have published : Reaches scene.state (republish scene.state latency event).2 :=
    .of_turn (.republish latency event) fun _ => rfl
  unfold Books.republish at published
  unfold Relay.republish
  rcases accepted : scene.state.publishEvent latency false event with ⟨_ | _, after⟩
  all_goals
    simp only [accepted] at published ⊢
    exact published.trans (reaches_deliver _)

theorem reaches_replayEntry
    (latency : UInt64)
    (value : Bytes)
    (stats : Replay.Stats)
    (scene : Replay.Scene Relay) :
    Reaches scene.state
      (Replay.replayEntry (Relay.republish latency) value stats scene).2.state := by
  unfold Replay.replayEntry
  dsimp only
  split
  · rfl
  · rename_i event _
    have published := reaches_republish latency event scene
    split
    · rename_i republished
      rwa [republished] at published
    · rename_i republished
      rw [republished] at published
      split <;> exact published

theorem reaches_advance
    (latency : UInt64)
    (progress : Replay.Progress)
    (scene : Replay.Scene Relay) :
    Reaches scene.state
      (Replay.advance (Relay.republish latency) progress scene).2.state := by
  unfold Replay.advance
  split
  · rfl
  · rename_i last scan stats
    generalize scan.next scene.log scene.disk = read
    obtain ⟨yielded, next, log, disk⟩ := read
    rcases yielded with _ | ⟨error | entry⟩
    · rfl
    · rfl
    · dsimp only
      split
      · rfl
      · have replayed := reaches_replayEntry latency entry.value stats
          { scene with log := log, disk := disk }
        split <;> rename_i entered <;> rwa [entered] at replayed

theorem reaches_complete
    (latency : UInt64)
    (fuel : Nat)
    (progress : Replay.Progress)
    (scene : Replay.Scene Relay) :
    Reaches scene.state
      (Replay.complete (Relay.republish latency) fuel progress scene).2.state := by
  induction fuel generalizing progress scene with
  | zero => cases progress <;> rfl
  | succ fuel inductionHypothesis =>
      cases progress with
      | ended => rfl
      | ongoing last scan stats =>
          exact (reaches_advance latency (.ongoing last scan stats) scene).trans
            (inductionHypothesis _ _)

theorem reaches_replaySince
    (relay : Relay)
    (latency cutover : UInt64)
    (disk : Disk) :
    Reaches relay (relay.replaySince latency cutover disk).2.1 := by
  unfold Relay.replaySince
  split
  · rfl
  · rename_i log _
    exact (reaches_complete latency (Replay.keyCount + 1) (Replay.begin cutover log)
      ⟨log, disk, relay⟩).trans (reaches_store _ _)

/-! ## Stopping -/

theorem reaches_closeQueues (relay : Relay) : Reaches relay relay.closeQueues := by
  have closed : Reaches relay { relay with recorder := relay.recorder.close } :=
    .of_turn .closeRecorder fun _ => rfl
  exact closed.trans (.of_turn .closeForwarder fun _ => rfl)

theorem reaches_closeStore (relay : Relay) (disk : Disk) :
    Reaches relay (relay.closeStore disk).2.1 :=
  reaches_store relay (relay.store.close disk).2.1

theorem reaches_closeChannel (relay : Relay) : Reaches relay relay.closeChannel :=
  reaches_become relay { relay with
    publisher := (relay.publisher.close relay.channel).1
    channel := (relay.publisher.close relay.channel).2.close }

theorem reaches_stop (relay : Relay) (disk : Disk) :
    Reaches relay (relay.stop disk).2.1 := by
  unfold Relay.stop
  split
  · rfl
  · have refusing : Reaches relay { relay with isStopping := true } :=
      .of_turn .refuse fun _ => rfl
    have settled := ((refusing.trans (reaches_stopListeners _)).trans
      (reaches_closeQueues _)).trans (reaches_settle _ disk)
    dsimp only
    split <;> exact (settled.trans (reaches_closeStore _ _)).trans (reaches_closeChannel _)

end Books
end EventRelay
