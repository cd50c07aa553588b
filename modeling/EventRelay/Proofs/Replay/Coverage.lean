import EventRelay.Proofs.Log.Opening
import EventRelay.Proofs.Log.Usage
import EventRelay.Replay

/-!
# What a replay covers

A replay publishes the stored events from its cutover on, in ascending key order
and up to the key that was the greatest one when it began.  It reads the log
anew for every step.  Entries that are appended meanwhile are therefore published
as well if their keys are still ahead of the replay and not above that greatest
key; such an entry also takes the place of the one that was stored under its key.
All other entries that are appended meanwhile are left out.
-/

namespace EventRelay
namespace Replay

open Log (Action Usage)
open Segment (Writer)

variable {σ : Type}

/-! ## Publishing -/

/-- Publishing that also keeps a list of the events. -/
def recording (publish : Publish σ) : Publish (σ × List Event) := fun event scene =>
  let (result, after) := publish event ⟨scene.log, scene.disk, scene.state.1⟩
  (result, ⟨after.log, after.disk, (after.state, scene.state.2 ++ [event])⟩)

/-- From a good state on publishing never fails.  It does not use the log. -/
def Succeeds (publish : Publish σ) (isGood : σ → Prop) : Prop :=
  ∀ event log disk state, isGood state →
    ∃ later, isGood later ∧
      publish event ⟨log, disk, state⟩ = (.ok (), ⟨log, disk, later⟩)

/-- The events of stored pairs, in order. -/
def eventsOf (pairs : KeyMap Bytes) : List Event :=
  pairs.filterMap fun pair => (Event.decode pair.2).toOption

/-- What a replay counts that has published the events of stored pairs. -/
def statsOf (pairs : KeyMap Bytes) : Stats where
  scanned := pairs.length
  republished := (eventsOf pairs).length
  failed := 0
  decodeErrors := pairs.countP fun pair => (Event.decode pair.2).toOption.isNone

/-! ## A replay between other uses of the log -/

/-- What happens to a replay or its log. -/
inductive Turn where
  /-- The replay goes on by one entry. -/
  | advance
  /-- The log is used by somebody else, or by the publishing itself. -/
  | act (action : Action)

def Turn.IsCounted : Turn → Prop
  | .advance => True
  | .act action => action.IsCounted

/-- Whether a key is still ahead of a replay. -/
def Progress.awaits (progress : Progress) (key : Key) : Bool :=
  match progress with
  | .ended _ => false
  | .ongoing last scan _ =>
      match scan.nextFrom with
      | none => false
      | some least => decide (least ≤ key ∧ key ≤ last)

/-- A replay with its log and the events that it published. -/
structure Course (σ : Type) where
  progress : Progress
  scene : Scene (σ × List Event)
  /-- The entries that were appended ahead of the replay. -/
  caught : List Entry

namespace Course

def start (cutover : UInt64) (usage : Usage) (state : σ) : Course σ where
  progress := begin cutover usage.log
  scene := ⟨usage.log, usage.disk, (state, [])⟩
  caught := []

def step (publish : Publish σ) (course : Course σ) : Turn → Course σ
  | .advance =>
      let (progress, scene) := advance (recording publish) course.progress course.scene
      { course with progress := progress, scene := scene }
  | .act action =>
      let usage := Usage.step ⟨course.scene.log, course.scene.disk, []⟩ action
      { course with
        scene := ⟨usage.log, usage.disk, course.scene.state⟩
        caught := course.caught ++
          usage.appends.flatten.filter fun entry => course.progress.awaits entry.key }

def run (publish : Publish σ) (course : Course σ) (turns : List Turn) : Course σ :=
  turns.foldl (step publish) course

/-- The events that were published, in order. -/
def events (course : Course σ) : List Event :=
  course.scene.state.2

end Course

/-- Whether a replay is to cover a key, where the last key is the greatest one
that was stored when it began. -/
def isDue (cutover : UInt64) (last? : Option Key) (key : Key) : Bool :=
  match last? with
  | none => false
  | some last => decide (Key.first cutover ≤ key ∧ key ≤ last)

/-- What a replay covers: the due pairs of what was stored before and of what was
appended ahead of it. -/
def covered (cutover : UInt64) (before caught : List Entry) : KeyMap Bytes :=
  (KeyMap.ofEntries (before ++ caught)).filter fun pair =>
    isDue cutover (KeyMap.ofEntries before).lastKey? pair.1

/-! ## What is counted -/

theorem eventsOf_concat (pairs : KeyMap Bytes) (pair : Key × Bytes) :
    eventsOf (pairs ++ [pair]) = eventsOf pairs ++ (Event.decode pair.2).toOption.toList := by
  unfold eventsOf
  rw [List.filterMap_append, List.filterMap_cons, List.filterMap_nil]
  cases (Event.decode pair.2).toOption <;> rfl

/-- A pair is passed over or its event is published, and it is counted. -/
theorem replayEntry_recording
    {publish : Publish σ}
    {isGood : σ → Prop}
    (succeeds : Succeeds publish isGood)
    {state : σ}
    (good : isGood state)
    (log : Log)
    (disk : Disk)
    (passed : KeyMap Bytes)
    (pair : Key × Bytes) :
    ∃ later, isGood later ∧
      replayEntry (recording publish) pair.2 (statsOf passed)
          ⟨log, disk, (state, eventsOf passed)⟩ =
        (.ok (statsOf (passed ++ [pair])),
          ⟨log, disk, (later, eventsOf (passed ++ [pair]))⟩) := by
  rw [eventsOf_concat, statsOf, statsOf, eventsOf_concat, List.countP_append,
    List.countP_singleton, List.length_append, List.length_append, replayEntry]
  cases decoded : Event.decode pair.2 with
  | error error => exact ⟨state, good, by simp [Except.toOption]⟩
  | ok event =>
      obtain ⟨later, laterGood, published⟩ := succeeds event log disk state good
      refine ⟨later, laterGood, ?_⟩
      simp [recording, published, Except.toOption]

/-! ## Where a replay is -/

/-- What holds of a replay that goes on: the pairs that it covers are those that
it has passed and those that it still awaits. -/
structure Pursues
    (cutover : UInt64) (before caught : List Entry) (last : Key) (scan : Log.Scan)
    (passed remaining : KeyMap Bytes) : Prop where
  last_eq : (KeyMap.ofEntries before).lastKey? = some last
  endTime_eq : scan.endTime = last.timestamp
  covered_eq : covered cutover before caught = passed ++ remaining
  /-- The replay has gone beyond what it has passed. -/
  nextFrom : ∀ least ∈ scan.nextFrom,
    Key.first cutover ≤ least ∧ ∀ pair ∈ passed, pair.1 < least

/-- What a replay awaits is what is ahead of its scan up to the last key. -/
theorem filter_awaits_eq
    {last : Key}
    {scan : Log.Scan}
    (endTime_eq : scan.endTime = last.timestamp)
    (stats : Stats)
    (contents : KeyMap Bytes) :
    (contents.filter fun pair => (Progress.ongoing last scan stats).awaits pair.1) =
      (scan.ahead contents).filter fun pair => decide (pair.1 ≤ last) := by
  unfold Progress.awaits Log.Scan.ahead
  cases position : scan.nextFrom with
  | none => simp [position]
  | some least =>
      simp only [position]
      rw [KeyMap.between, List.filter_filter]
      apply List.filter_congr
      intro pair _
      rw [endTime_eq, ← Bool.decide_and, decide_eq_decide]
      constructor
      · rintro ⟨reached, inside⟩
        exact ⟨inside, reached, Key.timestamp_le_of_le inside⟩
      · rintro ⟨inside, reached, _⟩
        exact ⟨reached, inside⟩

theorem ascending_covered (cutover : UInt64) (before caught : List Entry) :
    (covered cutover before caught).Ascending :=
  List.Pairwise.filter _ (KeyMap.ascending_ofEntries _)

/-- A replay passes the first pair that it awaits. -/
theorem Pursues.pass
    {cutover : UInt64}
    {before caught : List Entry}
    {last : Key}
    {scan later : Log.Scan}
    {passed rest : KeyMap Bytes}
    {pair : Key × Bytes}
    (pursues : Pursues cutover before caught last scan passed (pair :: rest))
    (next : later.nextFrom = pair.1.successor)
    (sameEnd : later.endTime = scan.endTime) :
    Pursues cutover before caught last later (passed ++ [pair]) rest := by
  have ascending := ascending_covered cutover before caught
  have due : isDue cutover (KeyMap.ofEntries before).lastKey? pair.1 = true := by
    have member : pair ∈ covered cutover before caught := by
      simp [pursues.covered_eq]
    exact (List.mem_filter.mp member).2
  rw [pursues.last_eq, isDue, decide_eq_true_iff] at due
  rw [pursues.covered_eq, KeyMap.Ascending, List.pairwise_append] at ascending
  refine ⟨pursues.last_eq, sameEnd.trans pursues.endTime_eq, ?_, fun least isNext => ?_⟩
  · rw [pursues.covered_eq, List.append_assoc]
    rfl
  · rw [next] at isNext
    have above : pair.1 < least := (Key.successor_le_iff isNext).mp (Key.le_refl least)
    refine ⟨Key.le_trans due.1 (Key.le_of_lt above), fun other present => ?_⟩
    rcases List.mem_append.mp present with old | new
    · exact Key.lt_trans (ascending.2.2 other old pair List.mem_cons_self) above
    · rwa [List.mem_singleton.mp new]

/-- Entries that a replay awaits are covered, and come after what it has passed. -/
theorem Pursues.append
    {cutover : UInt64}
    {before caught : List Entry}
    {last : Key}
    {scan : Log.Scan}
    {stats : Stats}
    {passed contents : KeyMap Bytes}
    (ascending : contents.Ascending)
    (pursues : Pursues cutover before caught last scan passed
      (contents.filter fun pair => (Progress.ongoing last scan stats).awaits pair.1))
    (entries : List Entry) :
    Pursues cutover before
      (caught ++ entries.filter fun entry => (Progress.ongoing last scan stats).awaits entry.key)
      last scan passed
      ((contents.enter entries).filter fun pair =>
        (Progress.ongoing last scan stats).awaits pair.1) := by
  have awaited : ∀ entry ∈ entries.filter fun entry =>
      (Progress.ongoing last scan stats).awaits entry.key,
      ∃ least ∈ scan.nextFrom, least ≤ entry.key ∧ entry.key ≤ last := by
    intro entry present
    have isAwaited := (List.mem_filter.mp present).2
    unfold Progress.awaits at isAwaited
    cases position : scan.nextFrom with
    | none => simp [position] at isAwaited
    | some least =>
        simp only [position, decide_eq_true_eq] at isAwaited
        exact ⟨least, rfl, isAwaited⟩
  rw [KeyMap.filter_enter ascending]
  generalize entries.filter _ = added at awaited ⊢
  have due : added.filter (fun entry =>
      isDue cutover (KeyMap.ofEntries before).lastKey? entry.key) = added := by
    rw [List.filter_eq_self]
    intro entry present
    obtain ⟨least, isNext, reached, inside⟩ := awaited entry present
    rw [pursues.last_eq, isDue, decide_eq_true_iff]
    exact ⟨Key.le_trans (pursues.nextFrom least isNext).1 reached, inside⟩
  have above : ∀ entry ∈ added, ∀ pair ∈ passed, pair.1 < entry.key := by
    intro entry present pair isPassed
    obtain ⟨least, isNext, reached, _⟩ := awaited entry present
    exact Key.lt_of_lt_of_le ((pursues.nextFrom least isNext).2 pair isPassed) reached
  refine ⟨pursues.last_eq, pursues.endTime_eq, ?_, pursues.nextFrom⟩
  have total := pursues.covered_eq
  unfold covered at total ⊢
  rw [← List.append_assoc, KeyMap.ofEntries_append,
    KeyMap.filter_enter (KeyMap.ascending_ofEntries _), due, total,
    KeyMap.enter_append_left above]

/-! ## Every turn -/

/-- Where a replay stands between turns: it has covered everything, or it has
passed as many pairs as it has advanced. -/
def Course.Stands
    (cutover : UInt64) (before : List Entry) (advances : Nat)
    (writer : Writer) (contents : KeyMap Bytes) (course : Course σ) : Prop :=
  match course.progress with
  | .ended result =>
      result = .ok (statsOf (covered cutover before course.caught)) ∧
        course.events = eventsOf (covered cutover before course.caught)
  | .ongoing last scan stats =>
      scan.Sound writer course.scene.disk ∧
        ∃ passed, passed.length = advances ∧ stats = statsOf passed ∧
          course.events = eventsOf passed ∧
          Pursues cutover before course.caught last scan passed
            (contents.filter fun pair => (Progress.ongoing last scan stats).awaits pair.1)

/-- What holds after every turn: the log serves a map, segments can be numbered
for some more uses, and the replay is where it should be. -/
structure Course.Invariant
    (isGood : σ → Prop) (cutover : UInt64) (before : List Entry) (acts advances : Nat)
    (writer : Writer) (contents : KeyMap Bytes) (course : Course σ) : Prop where
  good : isGood course.scene.state.1
  serves : Log.Serves course.scene.log writer course.scene.disk contents
  numbered : writer.segment + acts < 0x10000000000000000
  stands : course.Stands cutover before advances writer contents

variable {publish : Publish σ} {isGood : σ → Prop} {cutover : UInt64} {before : List Entry}
variable {acts advances : Nat} {writer : Writer} {contents : KeyMap Bytes} {course : Course σ}

/-- Another use of the log keeps the invariant. -/
theorem Course.Invariant.act
    (invariant : course.Invariant isGood cutover before (acts + 1) advances writer contents)
    {action : Action}
    (counted : action.IsCounted) :
    ∃ behind grown,
      (course.step publish (.act action)).Invariant isGood cutover before acts advances
        behind grown := by
  obtain ⟨good, serves, numbered, stands⟩ := invariant
  obtain ⟨behind, added, continues⟩ :=
    @Usage.exists_step ⟨course.scene.log, course.scene.disk, []⟩ writer contents serves
      (by omega) action counted
  have appends_eq := continues.appends_eq
  rw [List.nil_append] at appends_eq
  have bound := continues.segment_le
  rw [Course.step]
  refine ⟨behind, contents.enter added.flatten, good, continues.serves, by omega, ?_⟩
  unfold Stands at stands ⊢
  dsimp only at stands ⊢
  rw [appends_eq]
  cases progress : course.progress with
  | ended result =>
      rw [progress] at stands
      have nothing : (added.flatten.filter fun entry =>
          (Progress.ended result).awaits entry.key) = [] := by
        simp [Progress.awaits]
      dsimp only
      rw [nothing, List.append_nil]
      exact stands
  | ongoing last scan stats =>
      rw [progress] at stands
      obtain ⟨sound, passed, length_eq, stats_eq, events_eq, pursues⟩ := stands
      exact ⟨continues.sound scan sound, passed, length_eq, stats_eq, events_eq,
        pursues.append serves.ascending added.flatten⟩

/-- A replay that awaits nothing more may end, with what it has passed. -/
theorem Pursues.stands_ended
    {last : Key}
    {scan : Log.Scan}
    {passed : KeyMap Bytes}
    {caught : List Entry}
    (pursues : Pursues cutover before caught last scan passed [])
    {scene : Scene (σ × List Event)}
    (events_eq : scene.state.2 = eventsOf passed) :
    (⟨.ended (.ok (statsOf passed)), scene, caught⟩ : Course σ).Stands cutover before advances
      writer contents := by
  have all := pursues.covered_eq
  rw [List.append_nil] at all
  unfold Course.Stands Course.events
  dsimp only
  rw [all]
  exact ⟨rfl, events_eq⟩

/-- Nothing up to the last key is ahead of a replay once it has come beyond that key. -/
theorem filter_le_eq_nil
    {last : Key}
    {pair : Key × Bytes}
    {rest : KeyMap Bytes}
    (ascending : KeyMap.Ascending (pair :: rest))
    (past : last < pair.1) :
    ((pair :: rest).filter fun other => decide (other.1 ≤ last)) = [] := by
  rw [List.filter_eq_nil_iff]
  intro other present
  rw [decide_eq_true_iff, Key.not_le]
  rcases List.mem_cons.mp present with rfl | isLater
  · exact past
  · exact Key.lt_trans past (List.rel_of_pairwise_cons ascending isLater)

/-- A step of the replay keeps the invariant. -/
theorem Course.Invariant.advance
    (succeeds : Succeeds publish isGood)
    (invariant : course.Invariant isGood cutover before acts advances writer contents) :
    ∃ behind,
      (course.step publish .advance).Invariant isGood cutover before acts (advances + 1)
        behind contents := by
  obtain ⟨progress, ⟨log, disk, state, events⟩, caught⟩ := course
  obtain ⟨good, serves, numbered, stands⟩ := invariant
  cases progress with
  | ended result => exact ⟨writer, good, serves, numbered, stands⟩
  | ongoing last scan stats =>
      obtain ⟨sound, passed, rfl, rfl, events_eq, pursues⟩ := stands
      obtain rfl : events = eventsOf passed := events_eq
      have moves := Log.Scan.advances_next serves sound
      rw [Course.step, Replay.advance]
      dsimp only at moves good serves ⊢
      generalize scan.next log disk = result at moves ⊢
      obtain ⟨yielded, later, after, grown⟩ := result
      obtain ⟨behind, rfl, settles, laterSound⟩ := moves.settled
      have nowServes := serves.settle settles
      have sameSegment := settles.adds.segment_eq
      have nowNumbered : behind.segment + acts < 0x10000000000000000 := by
        rwa [sameSegment]
      rw [filter_awaits_eq pursues.endTime_eq] at pursues
      rcases moves.yields with ⟨rfl, nothing, _⟩ | ⟨pair, rfl, parts, next, _⟩
      · rw [nothing, List.filter_nil] at pursues
        exact ⟨behind, good, nowServes, nowNumbered, pursues.stands_ended rfl⟩
      · have sorted := Log.Scan.ascending_ahead serves.ascending scan
        rw [parts] at sorted pursues
        dsimp only [Log.Scan.yieldOf]
        by_cases past : last < pair.1
        · rw [filter_le_eq_nil sorted past] at pursues
          rw [if_pos (Key.compare_eq_gt_iff.mpr past)]
          exact ⟨behind, good, nowServes, nowNumbered, pursues.stands_ended rfl⟩
        · have inside : pair.1 ≤ last := by
            by_contra above
            exact past (Key.not_le.mp above)
          rw [List.filter_cons_of_pos (by simpa using inside)] at pursues
          obtain ⟨newState, newGood, entered⟩ :=
            replayEntry_recording succeeds good { log with writer := some behind } grown passed pair
          rw [if_neg (fun above => past (Key.compare_eq_gt_iff.mp above)), entered]
          have passedIt := pursues.pass next moves.endTime_eq
          refine ⟨behind, newGood, nowServes, nowNumbered, laterSound, passed ++ [pair], ?_, rfl,
            rfl, ?_⟩
          · rw [List.length_append, List.length_singleton]
          · rw [filter_awaits_eq passedIt.endTime_eq]
            exact passedIt

/-- The number of steps of the replay among turns. -/
def advancesIn : List Turn → Nat
  | [] => 0
  | .advance :: rest => advancesIn rest + 1
  | .act _ :: rest => advancesIn rest

/-- The number of other uses of the log among turns. -/
def actsIn : List Turn → Nat
  | [] => 0
  | .advance :: rest => actsIn rest
  | .act _ :: rest => actsIn rest + 1

theorem Course.Invariant.run
    {turns : List Turn}
    (succeeds : Succeeds publish isGood)
    (invariant : course.Invariant isGood cutover before (actsIn turns) advances writer contents)
    (counted : ∀ turn ∈ turns, turn.IsCounted) :
    ∃ behind grown,
      (course.run publish turns).Invariant isGood cutover before 0
        (advances + advancesIn turns) behind grown := by
  induction turns generalizing course advances writer contents with
  | nil => exact ⟨writer, contents, invariant⟩
  | cons turn rest inductionHypothesis =>
      obtain ⟨first, others⟩ := List.forall_mem_cons.mp counted
      cases turn with
      | advance =>
          obtain ⟨behind, stepped⟩ := invariant.advance succeeds
          have finished := inductionHypothesis stepped others
          rwa [Nat.add_assoc, Nat.add_comm 1] at finished
      | act action =>
          obtain ⟨behind, grown, stepped⟩ := invariant.act first
          exact inductionHypothesis stepped others

/-- A replay begins before all pairs that it covers. -/
theorem invariant_start
    {usage : Usage}
    (serves : Log.Serves usage.log writer usage.disk (KeyMap.ofEntries before))
    (numbered : writer.segment + acts < 0x10000000000000000)
    {state : σ}
    (good : isGood state)
    (cutover : UInt64) :
    (Course.start cutover usage state).Invariant isGood cutover before acts 0 writer
      (KeyMap.ofEntries before) := by
  refine ⟨good, serves, numbered, ?_⟩
  have sameLast : usage.log.lastKey? = (KeyMap.ofEntries before).lastKey? :=
    serves.agree.lastKey?_eq
  unfold Course.Stands Course.start begin
  dsimp only
  rw [sameLast]
  cases last_eq : (KeyMap.ofEntries before).lastKey? with
  | none =>
      have nothing : covered cutover before [] = [] := by
        rw [covered, last_eq]
        simp [isDue]
      dsimp only
      rw [nothing]
      exact ⟨rfl, rfl⟩
  | some last =>
      refine ⟨Log.Scan.sound_between _ _ _ _, [], rfl, rfl, rfl, last_eq, rfl, ?_, ?_⟩
      · rw [covered, last_eq, List.append_nil, List.nil_append]
        rfl
      · rintro least ⟨⟩
        exact ⟨Key.le_refl _, by simp⟩

/-- Without entries caught on the way a replay covers the stored pairs from its
cutover on. -/
theorem covered_nil (cutover : UInt64) (before : List Entry) :
    covered cutover before [] =
      (KeyMap.ofEntries before).filter fun pair => decide (cutover ≤ pair.1.timestamp) := by
  unfold covered
  rw [List.append_nil]
  apply List.filter_congr
  intro pair present
  cases last_eq : (KeyMap.ofEntries before).lastKey? with
  | none =>
      rw [KeyMap.lastKey?, Option.map_eq_none_iff, List.getLast?_eq_none_iff] at last_eq
      rw [last_eq] at present
      cases present
  | some last =>
      have inside :=
        KeyMap.le_of_lastKey?_eq_some (KeyMap.ascending_ofEntries before) last_eq present
      rw [isDue, decide_eq_decide, Key.first_le_iff]
      exact and_iff_left inside

/-- A replay publishes the events of exactly the due pairs of what was stored when
it began and of the entries caught on the way, with their last values, in
ascending key order; without such entries these are the events that were stored
when it began.  It is over as soon as it has taken more steps than there are such
pairs.  Batches have less than 2^32 entries, and the uses of the log do not use up
the 64-bit numbers of segments. -/
theorem covers_run
    {settings : Log.Settings}
    {disk opened : Disk}
    {log : Log}
    (wellFormed : disk.WellFormed)
    (accepted : Log.openIn settings disk = .ok (log, opened))
    {earlier : List Action}
    (earlierCounted : ∀ action ∈ earlier, action.IsCounted)
    (succeeds : Succeeds publish isGood)
    {state : σ}
    (good : isGood state)
    (cutover : UInt64)
    {turns : List Turn}
    (counted : ∀ turn ∈ turns, turn.IsCounted)
    (numbered : (Segment.discover disk).getLast?.getD 0 + earlier.length + actsIn turns <
      0x10000000000000000) :
    let usage := Usage.run ⟨log, opened, []⟩ earlier
    let before := Log.recovered disk ++ usage.appends.flatten
    let course := (Course.start cutover usage state).run publish turns
    course.events <+: eventsOf (covered cutover before course.caught) ∧
      (∀ result, course.progress = .ended result →
        result = .ok (statsOf (covered cutover before course.caught)) ∧
          course.events = eventsOf (covered cutover before course.caught) ∧
          (course.caught = [] → course.events = eventsOf ((KeyMap.ofEntries before).filter
            fun pair => decide (cutover ≤ pair.1.timestamp)))) ∧
      ((covered cutover before course.caught).length < advancesIn turns →
        ∃ result, course.progress = .ended result) := by
  intro usage before course
  obtain ⟨writer, opens⟩ := Log.exists_opens_of_openIn_eq_ok wellFormed accepted
  have serves := opens.serves
  have segment_eq := opens.segment_eq
  obtain ⟨middle, added, continues⟩ :=
    @Usage.exists_run ⟨log, opened, []⟩ writer _ earlier serves (by omega) earlierCounted
  have appends_eq : usage.appends = added := continues.appends_eq
  have before_eq : KeyMap.ofEntries before =
      (KeyMap.ofEntries (Log.recovered disk)).enter added.flatten := by
    rw [← appends_eq, ← KeyMap.ofEntries_append]
  have nowServes := continues.serves
  have bound := continues.segment_le
  rw [← before_eq] at nowServes
  obtain ⟨behind, grown, invariant⟩ :=
    (@invariant_start σ isGood before (actsIn turns) middle usage nowServes (by omega) state good
      cutover).run succeeds counted
  have stands : course.Stands cutover before (0 + advancesIn turns) behind grown :=
    invariant.stands
  unfold Course.Stands at stands
  cases progress : course.progress with
  | ended result =>
      rw [progress] at stands
      obtain ⟨result_eq, events_eq⟩ := stands
      refine ⟨events_eq ▸ List.prefix_rfl, ?_, fun _ => ⟨result, rfl⟩⟩
      rintro _ ⟨⟩
      refine ⟨result_eq, events_eq, fun nothing => ?_⟩
      rw [events_eq, nothing, covered_nil]
  | ongoing last scan stats =>
      rw [progress] at stands
      obtain ⟨_, passed, length_eq, _, events_eq, pursues⟩ := stands
      refine ⟨?_, ?_, fun enough => ?_⟩
      · rw [events_eq, pursues.covered_eq, eventsOf, eventsOf, List.filterMap_append]
        exact List.prefix_append _ _
      · rintro result ⟨⟩
      · rw [pursues.covered_eq, List.length_append] at enough
        omega

/-- Publishing that accepts every event. -/
def accept : Publish Unit := fun _ scene => (.ok (), scene)

theorem succeeds_accept : Succeeds accept (fun _ => True) :=
  fun _ _ _ _ _ => ⟨(), trivial, rfl⟩

/-- A tick of a symbol at a time. -/
def tickAt (timestamp : UInt64) : Event where
  kind := .tick
  symbol := ⟨"A", by decide, by decide⟩
  price := ⟨false, 1, 15, by decide, by decide⟩
  volume := 7
  timestamp := timestamp

/-- The batch of one event. -/
def batchOf (event : Event) : List Entry :=
  [⟨Key.ofEvent event, event.encode⟩]

set_option maxRecDepth 20000 in
theorem covers_run_vacant :
    Disk.vacant.WellFormed ∧
      Log.openIn Log.Settings.standard Disk.vacant =
        .ok (Log.openedLog Log.Settings.standard Disk.vacant, (Log.activated Disk.vacant).1) ∧
      Succeeds accept (fun _ => True) ∧
      ∃ result,
        ((Course.start 2
          (Usage.run ⟨Log.openedLog Log.Settings.standard Disk.vacant,
            (Log.activated Disk.vacant).1, []⟩
            [.append (batchOf (tickAt 1)), .append (batchOf (tickAt 5))]) ()).run accept
          [.advance, .act (.append (batchOf (tickAt 9))), .advance]).progress =
          .ended result := by
  refine ⟨Log.wellFormed_vacant, Log.openIn_vacant _, succeeds_accept, ?_⟩
  have covers := @covers_run Unit accept (fun _ => True) Log.Settings.standard Disk.vacant _ _
    Log.wellFormed_vacant (Log.openIn_vacant _)
    [.append (batchOf (tickAt 1)), .append (batchOf (tickAt 5))]
    (by simp [Action.IsCounted, batchOf, Bytes.cardinality]) succeeds_accept () trivial 2
    [.advance, .act (.append (batchOf (tickAt 9))), .advance]
    (by simp [Turn.IsCounted, Action.IsCounted, batchOf, Bytes.cardinality])
    (by decide +kernel)
  exact covers.2.2 (by decide +kernel)

set_option maxRecDepth 20000 in
/-- An event that is appended between the stored ones is published although it
was not stored when the replay began. -/
theorem publishes_event_appended_meanwhile :
    let usage := Usage.run ⟨Log.openedLog Log.Settings.standard Disk.vacant,
        (Log.activated Disk.vacant).1, []⟩
      [.append (batchOf (tickAt 1)), .append (batchOf (tickAt 5))]
    let course := (Course.start 0 usage ()).run accept
      [.advance, .act (.append (batchOf (tickAt 3))), .advance, .advance, .advance]
    eventsOf (KeyMap.ofEntries usage.appends.flatten) = [tickAt 1, tickAt 5] ∧
      course.events = [tickAt 1, tickAt 3, tickAt 5] := by
  decide +kernel

end Replay
end EventRelay
