import EventRelay.Proofs.Relay.Service

/-!
# What is published comes back

When a relay that started in an empty directory has stopped, its log holds the
latest accepted event of every key, its broker has got all accepted events, and a
new relay in the directory publishes the latest events again.
-/

namespace EventRelay

open Forwarder (recordOf)
open Relay (Accepts entryOf)

/-! ## Latest events -/

/-- The latest event of every key, in ascending key order. -/
def latest (events : List Event) : KeyMap Event :=
  events.foldl (fun map event => map.insert (Key.ofEvent event) event) []

/-- A map of events as it is stored. -/
def encoded (events : KeyMap Event) : KeyMap Bytes :=
  events.map (Prod.map id Event.encode)

theorem latest_concat (events : List Event) (event : Event) :
    latest (events ++ [event]) = (latest events).insert (Key.ofEvent event) event := by
  simp [latest]

theorem ascending_latest (events : List Event) : (latest events).Ascending := by
  induction events using List.reverseRecOn with
  | nil => exact KeyMap.ascending_nil
  | append_singleton front event inductionHypothesis =>
      rw [latest_concat]
      exact KeyMap.ascending_insert inductionHypothesis _ _

/-- An event is the latest one of its key if no later event has the same key. -/
theorem mem_latest_iff (events : List Event) (key : Key) (event : Event) :
    (key, event) ∈ latest events ↔
      ∃ front back, events = front ++ event :: back ∧ Key.ofEvent event = key ∧
        ∀ later ∈ back, Key.ofEvent later ≠ key := by
  induction events using List.reverseRecOn with
  | nil => simp [latest]
  | append_singleton events last inductionHypothesis =>
      rw [latest_concat, KeyMap.mem_insert_iff (ascending_latest events), inductionHypothesis,
        Prod.mk.injEq]
      constructor
      · rintro (⟨rfl, rfl⟩ | ⟨⟨front, back, rfl, isKey, others⟩, different⟩)
        · exact ⟨events, [], rfl, rfl, by simp⟩
        · refine ⟨front, back ++ [last], by simp, isKey, fun later present => ?_⟩
          rcases List.mem_append.mp present with old | new
          · exact others later old
          · rw [List.mem_singleton.mp new]
            exact different.symm
      · rintro ⟨front, back, parts, isKey, others⟩
        rcases List.eq_nil_or_concat back with rfl | ⟨earlier, final, rfl⟩
        · obtain ⟨rfl, same⟩ := List.append_inj' parts rfl
          cases same
          exact Or.inl ⟨isKey.symm, rfl⟩
        · rw [List.concat_eq_append] at parts others
          rw [← List.cons_append, ← List.append_assoc] at parts
          obtain ⟨rfl, same⟩ := List.append_inj' parts rfl
          cases same
          have different : Key.ofEvent last ≠ key := others last (by simp)
          refine Or.inr ⟨⟨front, earlier, rfl, isKey, fun later present => ?_⟩, different.symm⟩
          exact others later (by simp [present])

/-- The entries of events make up the map of their latest ones. -/
theorem ofEntries_map_entryOf (events : List Event) :
    KeyMap.ofEntries (events.map entryOf) = encoded (latest events) := by
  induction events using List.reverseRecOn with
  | nil => rfl
  | append_singleton front event inductionHypothesis =>
      rw [List.map_append, KeyMap.ofEntries_append, inductionHypothesis, latest_concat]
      unfold encoded
      rw [KeyMap.map_insert]
      rfl

theorem timestamp_of_mem_latest
    {events : List Event}
    {pair : Key × Event}
    (present : pair ∈ latest events) :
    pair.1.timestamp = pair.2.timestamp := by
  obtain ⟨key, event⟩ := pair
  obtain ⟨_, _, _, rfl, _⟩ := (mem_latest_iff events key event).mp present
  exact Key.timestamp_make _ _

/-! ## Replays of latest events -/

/-- The latest events from a time on, in ascending key order. -/
def dueEvents (cutover : UInt64) (events : List Event) : List Event :=
  ((latest events).filter fun pair => decide (cutover ≤ pair.2.timestamp)).map Prod.snd

theorem eventsOf_encoded (events : KeyMap Event) :
    Replay.eventsOf (encoded events) = events.map Prod.snd := by
  unfold Replay.eventsOf encoded
  induction events with
  | nil => rfl
  | cons pair rest inductionHypothesis =>
      rw [List.map_cons, List.map_cons, List.filterMap_cons, inductionHypothesis]
      simp [Event.decode_encode, Except.toOption]

theorem filter_encoded_latest (cutover : UInt64) (events : List Event) :
    (encoded (latest events)).filter (fun pair => decide (cutover ≤ pair.1.timestamp)) =
      encoded ((latest events).filter fun pair => decide (cutover ≤ pair.2.timestamp)) := by
  unfold encoded
  rw [List.filter_map]
  congr 1
  apply List.filter_congr
  intro pair present
  rw [Function.comp_apply, ← timestamp_of_mem_latest present]
  rfl

/-- A replay counts only published events if it replays encodings. -/
theorem statsOf_encoded (events : KeyMap Event) :
    Replay.statsOf (encoded events) = ⟨events.length, events.length, 0, 0⟩ := by
  have decodes : (encoded events).countP
      (fun pair => (Event.decode pair.2).toOption.isNone) = 0 := by
    rw [List.countP_eq_zero]
    intro pair present
    obtain ⟨event, _, rfl⟩ := List.mem_map.mp present
    simp [Event.decode_encode, Except.toOption]
  unfold Replay.statsOf
  rw [eventsOf_encoded, decodes, List.length_map, encoded, List.length_map]

/-- A relay that accepts events again publishes the latest ones that its log holds. -/
theorem Relay.replays
    {relay : Relay}
    {log : Log}
    {disk : Disk}
    {events : List Event}
    (store_eq : relay.store = .durable log)
    (accumulates : Log.Accumulates log disk (events.map entryOf))
    {latency : UInt64}
    {isGood : Relay → Prop}
    (accepts : Accepts latency isGood)
    (good : isGood relay)
    (cutover : UInt64) :
    let due := dueEvents cutover events
    relay.replayedEvents latency cutover disk = due ∧
      (relay.replaySince latency cutover disk).1 = .ok ⟨due.length, due.length, 0, 0⟩ := by
  intro due
  obtain ⟨writer, serves, numbered⟩ := accumulates.exists_serves
  have recorded := Replay.replaySince_recording serves numbered accepts.succeeds good cutover
  have forgotten :=
    @Replay.replaySince_forget Relay (republish latency) cutover ⟨log, disk, (relay, [])⟩
  dsimp only at recorded
  rw [ofEntries_map_entryOf, filter_encoded_latest, statsOf_encoded, eventsOf_encoded] at recorded
  unfold Replay.Scene.forget at forgotten
  dsimp only at forgotten
  unfold replayedEvents Relay.replaySince
  rw [store_eq]
  dsimp only
  rw [forgotten]
  refine ⟨recorded.2, ?_⟩
  rw [recorded.1]
  simp [due, dueEvents]

/-! ## From publishing to a replay -/

/-- Whatever the publisher answers, and however the workers work: the relay stops
well, its log then holds the latest accepted event of every key, a broker in memory
that refuses nothing has got all accepted events, and a new relay in the directory
that accepts events again publishes the latest accepted events from any time on, in
ascending key order.  No batch holds more than 500000 entries, the queues are never
full, and fewer than 2^64 events are accepted. -/
theorem returns_published
    {settings : Settings}
    (valid : settings.violation? = none)
    (batchMax_le : settings.workers.logBatchMax.toNat ≤ 500000)
    {parts : Relay.Parts}
    (ownStore : parts.store? = none)
    {disk : Disk}
    (empty : disk.names = [])
    (isPlace : disk.place ≠ .file) :
    ∃ relay opened, Relay.start settings parts disk = .ok (relay, opened) ∧
      ∀ activities,
        let service := Service.run ⟨relay, opened, []⟩ activities
        Service.IsNeverFull ⟨relay, opened, []⟩ activities →
        service.published.length < 0x10000000000000000 →
        ∃ stopped closed, service.stop = (.ok (), stopped, closed) ∧
          (∀ later, ∃ log reopened, Log.openIn later closed = .ok (log, reopened) ∧
            log.writer ≠ none ∧ Log.Shows log reopened (encoded (latest service.published))) ∧
          (∀ before, parts.broker?.getD (.memory .initial) = .memory ⟨before, 0⟩ →
            ∃ sent, stopped.broker = .memory ⟨before ++ sent, 0⟩ ∧
              sent.Perm (service.published.map fun event =>
                recordOf settings.broker.topic (entryOf event))) ∧
          ∀ newSettings newParts, newSettings.violation? = none → newParts.store? = none →
            ∃ fresh reopened, Relay.start newSettings newParts closed = .ok (fresh, reopened) ∧
              ∀ latency isGood, Accepts latency isGood →
                ∀ ready, ready.store = fresh.store → isGood ready → ∀ cutover,
                  let due := dueEvents cutover service.published
                  ready.replayedEvents latency cutover reopened = due ∧
                    (ready.replaySince latency cutover reopened).1 =
                      .ok ⟨due.length, due.length, 0, 0⟩ := by
  obtain ⟨relay, opened, started, invariant⟩ :=
    Service.exists_start valid batchMax_le ownStore empty isPlace
  refine ⟨relay, opened, started, fun activities => ?_⟩
  intro service neverFull numbered
  obtain ⟨stopped, closed, stop_eq, ⟨log, finished, rfl, accumulates⟩, sends⟩ :=
    (invariant.run neverFull numbered).exists_stopped numbered
  refine ⟨stopped, _, stop_eq, fun later => ?_, fun before isMemory => ?_, ?_⟩
  · obtain ⟨again, reopened, accepted, held⟩ := accumulates.exists_reopened later
    obtain ⟨writer, serves, _⟩ := held.exists_serves
    rw [ofEntries_map_entryOf] at serves
    exact ⟨again, reopened, accepted, held.isOpen, serves.shows⟩
  · obtain ⟨sent, broker_eq, permuted⟩ := sends before isMemory
    refine ⟨sent.map (recordOf settings.broker.topic), broker_eq, ?_⟩
    have mapped := permuted.map (recordOf settings.broker.topic)
    rwa [List.map_map] at mapped
  · intro newSettings newParts newValid newStore
    obtain ⟨again, reopened, accepted, held⟩ :=
      accumulates.exists_reopened newSettings.logSettings
    refine ⟨Relay.onStore newSettings newParts (.durable again), reopened, ?_, ?_⟩
    · unfold Relay.start Relay.openStore
      rw [newValid, newStore, accepted]
    · intro latency isGood accepts ready store_eq good cutover
      exact Relay.replays (store_eq.trans rfl) held accepts good cutover

/-- Parts with a publisher that refuses its second offer. -/
def refusingOnce : Relay.Parts where
  store? := none
  publisher? := some (.scripted (.initial [.accepted 64, .closed] (.accepted 128)))
  broker? := none

/-- Parts with a publisher that accepts every offer. -/
def acceptingAll : Relay.Parts where
  store? := none
  publisher? := some (.scripted (.initial [] (.accepted 64)))
  broker? := none

theorem returns_published_vacant :
    Settings.standard.violation? = none ∧
      Settings.standard.workers.logBatchMax.toNat ≤ 500000 ∧
      ∃ relay opened,
        Relay.start Settings.standard refusingOnce Disk.vacant = .ok (relay, opened) ∧
        let service := Service.run ⟨relay, opened, []⟩
          [.publish 0 (Replay.tickAt 5), .take, .publish 0 (Replay.tickAt 9), .fetch,
            .publish 0 (Replay.tickAt 7), .send, .store]
        service.published = [Replay.tickAt 5, Replay.tickAt 7] ∧
          ∃ stopped closed, service.stop = (.ok (), stopped, closed) ∧
            ∃ fresh reopened,
              Relay.start Settings.standard acceptingAll closed = .ok (fresh, reopened) ∧
                fresh.replayedEvents 0 6 reopened = [Replay.tickAt 7] := by
  have valid : Settings.standard.violation? = none := by decide +kernel
  have few : Settings.standard.workers.logBatchMax.toNat ≤ 500000 := by decide
  obtain ⟨relay, opened, started, returns⟩ :=
    @returns_published Settings.standard valid few refusingOnce rfl Disk.vacant rfl (by decide)
  refine ⟨valid, few, relay, opened, started, ?_⟩
  have isFirst : Relay.start Settings.standard refusingOnce Disk.vacant =
      .ok (Relay.onStore Settings.standard refusingOnce
        (.durable (Log.openedLog Settings.standard.logSettings Disk.vacant)),
        (Log.activated Disk.vacant).1) := by
    unfold Relay.start Relay.openStore
    rw [valid, show refusingOnce.store? = none from rfl, Log.openIn_vacant]
  rw [isFirst] at started
  cases started
  intro service
  have published_eq : service.published = [Replay.tickAt 5, Replay.tickAt 7] := by decide +kernel
  obtain ⟨stopped, closed, stop_eq, _, _, replays⟩ := returns
    [.publish 0 (Replay.tickAt 5), .take, .publish 0 (Replay.tickAt 9), .fetch,
      .publish 0 (Replay.tickAt 7), .send, .store]
    ⟨by decide +kernel, by decide +kernel, by decide +kernel, trivial⟩
    (by change service.published.length < _; rw [published_eq]; decide)
  obtain ⟨fresh, reopened, restarted, accepted⟩ :=
    replays Settings.standard acceptingAll valid rfl
  refine ⟨published_eq, stopped, closed, stop_eq, fresh, reopened, restarted, ?_⟩
  have isWilling := Relay.willing_of_start restarted rfl ⟨by simp [Script.initial], 64, rfl⟩
  obtain ⟨events_eq, _⟩ :=
    accepted 0 _ (Relay.accepts_of_isWilling 0) fresh rfl isWilling 6
  rw [events_eq]
  change dueEvents 6 service.published = _
  rw [published_eq]
  decide +kernel

end EventRelay
