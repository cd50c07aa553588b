import EventRelay.Proofs.Replay.Completion

/-!
# What a replay makes of every entry

A replay of a log to which nobody writes hands the events of the stored entries from
its cutover on to the publishing, in ascending key order and once each.  It ends
with the first fatal answer.  Without one it comes to the end of the entries and
counts each of them: as published, as failed with its retries used up, or as no
event.
-/

namespace EventRelay
namespace Replay

open Log (Action Usage)
open Segment (Writer)

variable {σ : Type}

/-! ## Calls -/

/-- An event that was handed to the publishing, with its answer. -/
structure Call where
  event : Event
  answer : Except PublishError Unit

namespace Call

/-- The fatal error that the publishing answered. -/
def fatal? (call : Call) : Option PublishError :=
  match call.answer with
  | .ok _ => none
  | .error error => if error.isFatal then some error else none

def isAccepted (call : Call) : Bool :=
  match call.answer with
  | .ok _ => true
  | .error _ => false

def isExhausted (call : Call) : Bool :=
  match call.answer with
  | .error (.exhausted _) => true
  | _ => false

end Call

/-- Publishing that also keeps a list of its calls. -/
def noting (publish : Publish σ) : Publish (σ × List Call) := fun event scene =>
  let (answer, after) := publish event ⟨scene.log, scene.disk, scene.state.1⟩
  (answer, ⟨after.log, after.disk, (after.state, scene.state.2 ++ [⟨event, answer⟩])⟩)

/-- Publishing writes nothing to the log, although it may scan it. -/
def OnlyReads (publish : Publish σ) : Prop :=
  ∀ event scene, ∃ scans : List Log.Scan,
    (publish event scene).2.log = (scene.use (scans.map .next)).log ∧
      (publish event scene).2.disk = (scene.use (scans.map .next)).disk

/-! ## Counts -/

/-- A stored value is no event. -/
def isUndecodable (pair : Key × Bytes) : Bool :=
  (Event.decode pair.2).toOption.isNone

/-- What is counted of stored pairs and of the calls for their events. -/
def tally (pairs : KeyMap Bytes) (calls : List Call) : Stats where
  scanned := pairs.length
  republished := calls.countP Call.isAccepted
  failed := calls.countP Call.isExhausted
  decodeErrors := pairs.countP isUndecodable

/-- What a whole replay of due pairs comes to. -/
structure AccountsFor
    (due : KeyMap Bytes) (calls : List Call) (result : Except ReplayError Stats) : Prop where
  /-- The events of the due pairs are handed over in their order, from the first on. -/
  events_isPrefix : calls.map Call.event <+: eventsOf due
  /-- Only the last call may be answered with a fatal error. -/
  goesOn : ∀ call ∈ calls.dropLast, call.fatal? = none
  /-- A fatal error is the result. -/
  aborted : ∀ call ∈ calls, ∀ error ∈ call.fatal?, result = .error (.publish error)
  /-- Without a fatal error all events are handed over, and every pair is counted once. -/
  completed : (∀ call ∈ calls, call.fatal? = none) →
    calls.map Call.event = eventsOf due ∧ result = .ok (tally due calls) ∧
      (tally due calls).scanned = (tally due calls).republished + (tally due calls).failed +
        (tally due calls).decodeErrors

theorem length_eq_eventsOf_add (pairs : KeyMap Bytes) :
    pairs.length = (eventsOf pairs).length + pairs.countP isUndecodable := by
  induction pairs with
  | nil => rfl
  | cons pair rest inductionHypothesis =>
      rw [List.length_cons, inductionHypothesis, eventsOf, eventsOf, List.filterMap_cons,
        List.countP_cons, isUndecodable]
      cases (Event.decode pair.2).toOption <;> simp <;> omega

theorem length_eq_isAccepted_add
    {calls : List Call}
    (goesOn : ∀ call ∈ calls, call.fatal? = none) :
    calls.length = calls.countP Call.isAccepted + calls.countP Call.isExhausted := by
  induction calls with
  | nil => rfl
  | cons call rest inductionHypothesis =>
      obtain ⟨first, others⟩ := List.forall_mem_cons.mp goesOn
      rw [List.length_cons, inductionHypothesis others, List.countP_cons, List.countP_cons]
      obtain ⟨event, answer⟩ := call
      rcases answer with error | ⟨⟩
      · cases error with
        | exhausted retries =>
            simp [Call.isAccepted, Call.isExhausted]
            omega
        | closed => cases first
        | maxPositionExceeded => cases first
      · simp [Call.isAccepted, Call.isExhausted]
        omega

/-- Every pair is counted once if its event, if it is one, was handed over. -/
theorem scanned_tally
    {pairs : KeyMap Bytes}
    {calls : List Call}
    (events_eq : calls.map Call.event = eventsOf pairs)
    (goesOn : ∀ call ∈ calls, call.fatal? = none) :
    (tally pairs calls).scanned = (tally pairs calls).republished + (tally pairs calls).failed +
      (tally pairs calls).decodeErrors := by
  have byEvents := length_eq_eventsOf_add pairs
  rw [← events_eq, List.length_map, length_eq_isAccepted_add goesOn] at byEvents
  exact byEvents

/-- All calls without a fatal error account for the due pairs. -/
theorem accountsFor_tally
    {due : KeyMap Bytes}
    {calls : List Call}
    (events_eq : calls.map Call.event = eventsOf due)
    (goesOn : ∀ call ∈ calls, call.fatal? = none) :
    AccountsFor due calls (.ok (tally due calls)) where
  events_isPrefix := events_eq ▸ List.prefix_rfl
  goesOn := fun call present => goesOn call ((List.dropLast_sublist calls).subset present)
  aborted := by
    intro call present error isFatal
    rw [goesOn call present] at isFatal
    cases isFatal
  completed := fun _ => ⟨events_eq, rfl, scanned_tally events_eq goesOn⟩

/-- Calls of which the last one is answered with a fatal error account for the due
pairs. -/
theorem accountsFor_concat
    {due : KeyMap Bytes}
    {calls : List Call}
    {call : Call}
    {error : PublishError}
    (events_isPrefix : (calls ++ [call]).map Call.event <+: eventsOf due)
    (goesOn : ∀ call ∈ calls, call.fatal? = none)
    (isFatal : call.fatal? = some error) :
    AccountsFor due (calls ++ [call]) (.error (.publish error)) where
  events_isPrefix := events_isPrefix
  goesOn := by
    rw [List.dropLast_concat]
    exact goesOn
  aborted := by
    intro other present reported isReported
    rcases List.mem_append.mp present with inFront | isLast
    · rw [goesOn other inFront] at isReported
      cases isReported
    · rw [List.mem_singleton.mp isLast, isFatal] at isReported
      cases isReported
      rfl
  completed := by
    intro none_fatal
    have impossible := none_fatal call (by simp)
    rw [isFatal] at impossible
    cases impossible

/-! ## One entry -/

/-- A pair that is no event is counted as such. -/
theorem replayEntry_of_isUndecodable
    {publish : Publish σ}
    {pair : Key × Bytes}
    (undecodable : isUndecodable pair = true)
    (passed : KeyMap Bytes)
    (calls : List Call)
    (scene : Scene σ) :
    replayEntry publish pair.2 (tally passed calls) scene =
      (.ok (tally (passed ++ [pair]) calls), scene) := by
  unfold isUndecodable at undecodable
  rw [replayEntry, tally, tally, List.countP_append, List.countP_singleton, isUndecodable,
    undecodable, List.length_append]
  cases decoded : Event.decode pair.2 with
  | error error => rfl
  | ok event => simp [decoded, Except.toOption] at undecodable

/-- The event of a pair is handed over, and the pair is counted by the answer unless
that is a fatal error. -/
theorem replayEntry_noting
    {publish : Publish σ}
    {pair : Key × Bytes}
    {event : Event}
    {scene : Scene (σ × List Call)}
    {answer : Except PublishError Unit}
    {after : Scene σ}
    (decoded : Event.decode pair.2 = .ok event)
    (published : publish event (scene.view Prod.fst) = (answer, after))
    (passed : KeyMap Bytes) :
    replayEntry (noting publish) pair.2 (tally passed scene.state.2) scene =
      (match (⟨event, answer⟩ : Call).fatal? with
        | none => .ok (tally (passed ++ [pair]) (scene.state.2 ++ [⟨event, answer⟩]))
        | some error => .error (.publish error),
        ⟨after.log, after.disk, (after.state, scene.state.2 ++ [⟨event, answer⟩])⟩) := by
  have decodable : isUndecodable pair = false := by
    simp [isUndecodable, decoded, Except.toOption]
  unfold Scene.view at published
  unfold replayEntry noting
  rw [decoded]
  dsimp only
  rw [published]
  rcases answer with error | ⟨⟩
  · cases error with
    | exhausted retries =>
        simp [Call.fatal?, PublishError.isFatal, tally, decodable, Call.isAccepted,
          Call.isExhausted]
    | closed => rfl
    | maxPositionExceeded => rfl
  · simp [Call.fatal?, tally, decodable, Call.isAccepted, Call.isExhausted]

/-! ## Scans while publishing -/

/-- Scans leave the map that a log serves, and what another scan keeps stays right. -/
theorem exists_serves_use
    {τ : Type}
    {scene : Scene τ}
    {writer : Writer}
    {contents : KeyMap Bytes}
    (serves : Log.Serves scene.log writer scene.disk contents)
    (scans : List Log.Scan) :
    ∃ behind,
      Log.Serves (scene.use (scans.map .next)).log behind (scene.use (scans.map .next)).disk
          contents ∧
        ∀ scan : Log.Scan, scan.Sound writer scene.disk →
          scan.Sound behind (scene.use (scans.map .next)).disk := by
  induction scans generalizing scene writer with
  | nil => exact ⟨writer, serves, fun _ => id⟩
  | cons first rest inductionHypothesis =>
      obtain ⟨middle, continues⟩ :=
        @Usage.exists_next ⟨scene.log, scene.disk, []⟩ writer contents serves first
      obtain ⟨behind, finished, sound⟩ :=
        @inductionHypothesis (scene.act (.next first)) middle continues.serves
      exact ⟨behind, finished, fun scan before => sound scan (continues.sound scan before)⟩

/-- Publishing that only scans leaves what a log serves, and a scan right. -/
theorem OnlyReads.exists_serves
    {publish : Publish σ}
    (onlyReads : OnlyReads publish)
    (event : Event)
    {scene : Scene σ}
    {writer : Writer}
    {contents : KeyMap Bytes}
    {scan : Log.Scan}
    (serves : Log.Serves scene.log writer scene.disk contents)
    (sound : scan.Sound writer scene.disk) :
    ∃ behind,
      Log.Serves (publish event scene).2.log behind (publish event scene).2.disk contents ∧
        scan.Sound behind (publish event scene).2.disk := by
  obtain ⟨scans, log_eq, disk_eq⟩ := onlyReads event scene
  obtain ⟨behind, nowServes, laterSound⟩ := exists_serves_use serves scans
  rw [log_eq, disk_eq]
  exact ⟨behind, nowServes, laterSound scan sound⟩

/-! ## Every step -/

/-- Where a replay stands that goes on: it has passed the due pairs that are not ahead
of its scan, and no answer was fatal. -/
structure Underway
    (due contents : KeyMap Bytes) (last : Key) (scan : Log.Scan) (stats : Stats)
    (scene : Scene (σ × List Call)) : Prop where
  serves : ∃ writer, Log.Serves scene.log writer scene.disk contents ∧
    scan.Sound writer scene.disk
  passed : ∃ passed, due = passed ++ scan.ahead contents ∧ stats = tally passed scene.state.2 ∧
    scene.state.2.map Call.event = eventsOf passed
  goesOn : ∀ call ∈ scene.state.2, call.fatal? = none
  le_last : ∀ pair ∈ contents, pair.1 ≤ last

/-- Where a replay stands that can still take some steps: it is over, or it needs less
of them to pass what is ahead. -/
def Progress.StandsWith
    (due contents : KeyMap Bytes) (steps : Nat) (scene : Scene (σ × List Call)) :
    Progress → Prop
  | .ended result => AccountsFor due scene.state.2 result
  | .ongoing last scan stats =>
      Underway due contents last scan stats scene ∧ (scan.ahead contents).length < steps

theorem mem_of_mem_ahead
    {scan : Log.Scan}
    {contents : KeyMap Bytes}
    {pair : Key × Bytes}
    (present : pair ∈ scan.ahead contents) :
    pair ∈ contents := by
  unfold Log.Scan.ahead at present
  split at present
  · cases present
  · exact (KeyMap.mem_between_iff.mp present).1

theorem eventsOf_isPrefix_append (front back : KeyMap Bytes) :
    eventsOf front <+: eventsOf (front ++ back) := by
  rw [eventsOf, eventsOf, List.filterMap_append]
  exact List.prefix_append _ _

/-- Where a replay goes on after an entry. -/
def Progress.after (last : Key) (scan : Log.Scan) :
    Except ReplayError Stats → Progress
  | .error error => .ended (.error error)
  | .ok stats => .ongoing last scan stats

/-- A replay that stands before a pair stands behind it when the pair is entered. -/
theorem Underway.enter
    {publish : Publish σ}
    {due passed contents : KeyMap Bytes}
    {pair : Key × Bytes}
    {last : Key}
    {scan : Log.Scan}
    {scene : Scene (σ × List Call)}
    {steps : Nat}
    (onlyReads : OnlyReads publish)
    (bounded : (scan.ahead contents).length < steps)
    (due_eq : due = passed ++ [pair] ++ scan.ahead contents)
    (serves : ∃ writer, Log.Serves scene.log writer scene.disk contents ∧
      scan.Sound writer scene.disk)
    (events_eq : scene.state.2.map Call.event = eventsOf passed)
    (goesOn : ∀ call ∈ scene.state.2, call.fatal? = none)
    (le_last : ∀ pair ∈ contents, pair.1 ≤ last) :
    let entered := replayEntry (noting publish) pair.2 (tally passed scene.state.2) scene
    (Progress.after last scan entered.1).StandsWith due contents steps entered.2 := by
  intro entered
  have events_concat := eventsOf_concat passed pair
  cases decoded : Event.decode pair.2 with
  | error error =>
      have undecodable : isUndecodable pair = true := by
        simp [isUndecodable, decoded, Except.toOption]
      have entered_eq : entered = (.ok (tally (passed ++ [pair]) scene.state.2), scene) :=
        replayEntry_of_isUndecodable undecodable passed scene.state.2 scene
      have sameEvents : scene.state.2.map Call.event = eventsOf (passed ++ [pair]) := by
        rw [events_concat, events_eq, decoded]
        exact (List.append_nil _).symm
      rw [entered_eq]
      exact ⟨⟨serves, ⟨_, due_eq, rfl, sameEvents⟩, goesOn, le_last⟩, bounded⟩
  | ok event =>
      obtain ⟨writer, before, sound⟩ := serves
      obtain ⟨behind, nowServes, nowSound⟩ :=
        @OnlyReads.exists_serves σ publish onlyReads event (scene.view Prod.fst) writer contents
          scan before sound
      generalize published : publish event (scene.view Prod.fst) = result at nowServes nowSound
      obtain ⟨answer, after⟩ := result
      have entered_eq : entered = _ := replayEntry_noting decoded published passed
      have moreEvents : (scene.state.2 ++ [(⟨event, answer⟩ : Call)]).map Call.event =
          eventsOf (passed ++ [pair]) := by
        rw [List.map_append, events_concat, events_eq, decoded]
        rfl
      rw [entered_eq]
      cases fatal : (⟨event, answer⟩ : Call).fatal? with
      | none =>
          refine ⟨⟨⟨behind, nowServes, nowSound⟩, ⟨_, due_eq, rfl, moreEvents⟩, ?_, le_last⟩,
            bounded⟩
          intro call present
          rcases List.mem_append.mp present with isEarlier | isNew
          · exact goesOn call isEarlier
          · rw [List.mem_singleton.mp isNew, fatal]
      | some error =>
          refine accountsFor_concat ?_ goesOn fatal
          rw [moreEvents, due_eq]
          exact eventsOf_isPrefix_append _ _

/-- A step of a replay leaves one pair less ahead, or ends the replay. -/
theorem Underway.advance
    {publish : Publish σ}
    {due contents : KeyMap Bytes}
    {last : Key}
    {scan : Log.Scan}
    {stats : Stats}
    {scene : Scene (σ × List Call)}
    {steps : Nat}
    (onlyReads : OnlyReads publish)
    (underway : Underway due contents last scan stats scene)
    (bounded : (scan.ahead contents).length < steps + 1) :
    let next := Replay.advance (noting publish) (.ongoing last scan stats) scene
    next.1.StandsWith due contents steps next.2 := by
  obtain ⟨⟨writer, serves, sound⟩, ⟨passed, due_eq, rfl, events_eq⟩, goesOn, le_last⟩ := underway
  obtain ⟨log, disk, state, calls⟩ := scene
  have moves := Log.Scan.advances_next serves sound
  unfold Replay.advance
  dsimp only at moves serves events_eq goesOn ⊢
  generalize scan.next log disk = result at moves ⊢
  obtain ⟨yielded, later, after, grown⟩ := result
  dsimp only at moves ⊢
  obtain ⟨behind, rfl, settles, laterSound⟩ := moves.settled
  have nowServes := serves.settle settles
  rcases moves.yields with ⟨rfl, nothing, _⟩ | ⟨pair, rfl, parts, _, _⟩
  · rw [nothing, List.append_nil] at due_eq
    subst due_eq
    exact accountsFor_tally events_eq goesOn
  · rw [parts, List.append_cons] at due_eq
    rw [parts, List.length_cons] at bounded
    have inside : ¬pair.1.compare last = .gt := by
      intro above
      exact Key.not_le.mpr (Key.compare_eq_gt_iff.mp above)
        (le_last pair (mem_of_mem_ahead (parts ▸ List.mem_cons_self)))
    have entered := @Underway.enter σ publish due passed contents pair last later
      ⟨{ log with writer := some behind }, grown, state, calls⟩ steps onlyReads (by omega) due_eq
      ⟨behind, nowServes, laterSound⟩ events_eq goesOn le_last
    dsimp only [Log.Scan.yieldOf] at entered ⊢
    rw [if_neg inside]
    generalize replayEntry (noting publish) pair.2 (tally passed calls)
      ⟨{ log with writer := some behind }, grown, state, calls⟩ = result at entered ⊢
    obtain ⟨outcome, scene⟩ := result
    cases outcome <;> exact entered

/-- A replay with enough fuel comes to its end. -/
theorem accountsFor_complete
    {publish : Publish σ}
    {due contents : KeyMap Bytes}
    {fuel : Nat}
    {progress : Progress}
    {scene : Scene (σ × List Call)}
    (onlyReads : OnlyReads publish)
    (stands : progress.StandsWith due contents fuel scene) :
    let whole := complete (noting publish) fuel progress scene
    AccountsFor due whole.2.state.2 whole.1 := by
  induction fuel generalizing progress scene with
  | zero =>
      cases progress with
      | ended result => exact stands
      | ongoing last scan stats => exact absurd stands.2 (Nat.not_lt_zero _)
  | succ fuel inductionHypothesis =>
      cases progress with
      | ended result => exact stands
      | ongoing last scan stats =>
          exact inductionHypothesis (stands.1.advance onlyReads stands.2)

/-! ## Whole replays -/

/-- What is ahead of the scan of a replay that begins are the pairs from its cutover
on. -/
theorem ahead_between_first
    {contents : KeyMap Bytes}
    {last : Key}
    (le_last : ∀ pair ∈ contents, pair.1 ≤ last)
    (cutover : UInt64) :
    (Log.Scan.between (Key.first cutover) last).ahead contents =
      contents.filter fun pair => decide (cutover ≤ pair.1.timestamp) := by
  change contents.between (Key.first cutover) last.timestamp = _
  rw [KeyMap.between]
  apply List.filter_congr
  intro pair present
  rw [decide_eq_decide, Key.first_le_iff]
  exact and_iff_left (Key.timestamp_le_of_le (le_last pair present))

/-- A replay begins before all pairs from its cutover on. -/
theorem standsWith_begin
    {log : Log}
    {writer : Writer}
    {disk : Disk}
    {contents : KeyMap Bytes}
    (serves : Log.Serves log writer disk contents)
    (state : σ)
    (cutover : UInt64) :
    (begin cutover log).StandsWith
      (contents.filter fun pair => decide (cutover ≤ pair.1.timestamp)) contents (keyCount + 1)
      ⟨log, disk, (state, [])⟩ := by
  have sameLast : log.lastKey? = contents.lastKey? := serves.agree.lastKey?_eq
  rw [begin, sameLast]
  cases last_eq : contents.lastKey? with
  | none =>
      rw [KeyMap.lastKey?, Option.map_eq_none_iff, List.getLast?_eq_none_iff] at last_eq
      rw [last_eq]
      exact accountsFor_tally rfl (by simp)
  | some last =>
      have le_last : ∀ pair ∈ contents, pair.1 ≤ last :=
        fun pair => KeyMap.le_of_lastKey?_eq_some serves.ascending last_eq
      refine ⟨⟨⟨writer, serves, Log.Scan.sound_between _ _ _ _⟩, ⟨[], ?_, rfl, rfl⟩, by simp,
        le_last⟩, ?_⟩
      · exact (ahead_between_first le_last cutover).symm
      · exact Nat.lt_succ_of_le
          (length_le_keyCount (Log.Scan.ascending_ahead serves.ascending _))

/-- A replay of an opened log to which nobody writes hands the events of the entries
from its cutover on to the publishing, in ascending key order and once each, up to
the first fatal answer, with which it ends.  Without one it counts every entry from
the cutover on as published, failed or no event.  Batches have less than 2^32
entries, and the uses of the log do not use up the 64-bit numbers of segments. -/
theorem accountsFor_replaySince
    {settings : Log.Settings}
    {disk opened : Disk}
    {log : Log}
    (wellFormed : disk.WellFormed)
    (accepted : Log.openIn settings disk = .ok (log, opened))
    {earlier : List Action}
    (earlierCounted : ∀ action ∈ earlier, action.IsCounted)
    (numbered : (Segment.discover disk).getLast?.getD 0 + earlier.length < 0x10000000000000000)
    {publish : Publish σ}
    (onlyReads : OnlyReads publish)
    (state : σ)
    (cutover : UInt64) :
    let usage := Usage.run ⟨log, opened, []⟩ earlier
    let stored := KeyMap.ofEntries (Log.recovered disk ++ usage.appends.flatten)
    let due := stored.filter fun pair => decide (cutover ≤ pair.1.timestamp)
    let whole := replaySince (noting publish) cutover ⟨usage.log, usage.disk, (state, [])⟩
    KeyMap.Ascending due ∧
      AccountsFor due whole.2.state.2 whole.1 ∧
      (replaySince publish cutover ⟨usage.log, usage.disk, state⟩).1 = whole.1 := by
  intro usage stored due whole
  obtain ⟨writer, opens⟩ := Log.exists_opens_of_openIn_eq_ok wellFormed accepted
  have segment_eq := opens.segment_eq
  obtain ⟨middle, added, continues⟩ :=
    @Usage.exists_run ⟨log, opened, []⟩ writer _ earlier opens.serves (by omega) earlierCounted
  have appends_eq : usage.appends = added := continues.appends_eq
  have serves : Log.Serves usage.log middle usage.disk stored := by
    have grown := continues.serves
    rwa [← appends_eq, ← KeyMap.ofEntries_append] at grown
  refine ⟨List.Pairwise.filter _ serves.ascending, ?_, ?_⟩
  · exact accountsFor_complete onlyReads (standsWith_begin serves state cutover)
  · exact congrArg Prod.fst (@Refines.replaySince σ (σ × List Call) Prod.fst (noting publish)
      publish (fun _ _ => rfl) cutover ⟨usage.log, usage.disk, (state, [])⟩)

/-- Publishing that answers as a list says, and accepts what comes after it. -/
def answering : Publish (List (Except PublishError Unit)) := fun _ scene =>
  match scene.state with
  | [] => (.ok (), scene)
  | answer :: rest => (answer, { scene with state := rest })

theorem onlyReads_answering : OnlyReads answering := by
  rintro event ⟨log, disk, answers⟩
  refine ⟨[], ?_⟩
  cases answers <;> exact ⟨rfl, rfl⟩

/-- Three events with a value that is no event among them. -/
def patchyEntries : List Action :=
  [.append (batchOf (tickAt 5)), .append [⟨Key.first 2, [0]⟩], .append (batchOf (tickAt 1)),
    .append (batchOf (tickAt 7))]

set_option maxRecDepth 20000 in
theorem accountsFor_replaySince_patchy :
    let usage := Usage.run ⟨Log.openedLog Log.Settings.standard Disk.vacant,
      (Log.activated Disk.vacant).1, []⟩ patchyEntries
    let due := (KeyMap.ofEntries (Log.recovered Disk.vacant ++ usage.appends.flatten)).filter
      fun pair => decide (1 ≤ pair.1.timestamp)
    let whole := replaySince (noting answering) 1
      ⟨usage.log, usage.disk, ([.error (.exhausted 10), .error .closed], [])⟩
    Disk.vacant.WellFormed ∧ OnlyReads answering ∧ AccountsFor due whole.2.state.2 whole.1 ∧
      whole.2.state.2.map Call.event = [tickAt 1, tickAt 5] ∧
      whole.1 = .error (.publish .closed) := by
  intro usage due whole
  have accounts := @accountsFor_replaySince _ Log.Settings.standard Disk.vacant _ _
    Log.wellFormed_vacant (Log.openIn_vacant _) patchyEntries
    (by simp [patchyEntries, Action.IsCounted, batchOf, Bytes.cardinality]) (by decide +kernel)
    answering onlyReads_answering [.error (.exhausted 10), .error .closed] 1
  exact ⟨Log.wellFormed_vacant, onlyReads_answering, accounts.2.1, by decide +kernel,
    by decide +kernel⟩

end Replay
end EventRelay
