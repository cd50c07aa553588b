import EventRelay.Proofs.Replay.Coverage
import Mathlib.Data.List.Perm.Subperm

/-!
# Whole replays

A replay of a log that nobody else uses comes to its end, and keeping a list of
the events that it publishes changes nothing else about it.  A replay whose
publishing itself uses the log is a replay between other uses of the log.
-/

namespace EventRelay
namespace Replay

open Log (Action Usage)
open Segment (Writer)

variable {σ : Type} {publish : Publish σ}

/-! ## Steps up to the end -/

/-- What a replay reports when it goes no further. -/
def Progress.outcome : Progress → Except ReplayError Stats
  | .ended result => result
  | .ongoing _ _ stats => .ok stats

theorem Course.step_advance_of_ended
    {course : Course σ}
    {result : Except ReplayError Stats}
    (isOver : course.progress = .ended result) :
    course.step publish .advance = course := by
  obtain ⟨progress, scene, caught⟩ := course
  cases isOver
  rfl

theorem Course.run_advances_of_ended
    {course : Course σ}
    {result : Except ReplayError Stats}
    (isOver : course.progress = .ended result)
    (count : Nat) :
    course.run publish (List.replicate count .advance) = course := by
  induction count with
  | zero => rfl
  | succ count inductionHypothesis =>
      rw [List.replicate_succ, Course.run, List.foldl_cons, step_advance_of_ended isOver]
      exact inductionHypothesis

@[simp] theorem Course.caught_run_advances (course : Course σ) (count : Nat) :
    (course.run publish (List.replicate count .advance)).caught = course.caught := by
  induction count generalizing course with
  | zero => rfl
  | succ count inductionHypothesis => exact inductionHypothesis _

/-- Completing a replay takes it as many steps further as there is fuel. -/
theorem complete_recording (course : Course σ) (fuel : Nat) :
    complete (recording publish) fuel course.progress course.scene =
      ((course.run publish (List.replicate fuel .advance)).progress.outcome,
        (course.run publish (List.replicate fuel .advance)).scene) := by
  induction fuel generalizing course with
  | zero =>
      obtain ⟨progress, scene, caught⟩ := course
      cases progress <;> rfl
  | succ fuel inductionHypothesis =>
      cases progress : course.progress with
      | ended result =>
          rw [Course.run_advances_of_ended progress, progress, complete]
          rfl
      | ongoing last scan stats =>
          have rest := inductionHypothesis (course.step publish .advance)
          unfold Course.step at rest
          rw [progress] at rest
          rw [complete]
          refine rest.trans ?_
          unfold Course.run
          rw [List.replicate_succ, List.foldl_cons, Course.step, progress]

theorem advancesIn_replicate (count : Nat) :
    advancesIn (List.replicate count .advance) = count := by
  induction count with
  | zero => rfl
  | succ count inductionHypothesis =>
      rw [List.replicate_succ, advancesIn, inductionHypothesis]

theorem actsIn_replicate (count : Nat) :
    actsIn (List.replicate count .advance) = 0 := by
  induction count with
  | zero => rfl
  | succ count inductionHypothesis => rwa [List.replicate_succ, actsIn]

/-- A map has no more pairs than there are keys. -/
theorem length_le_keyCount
    {α : Type}
    {map : KeyMap α}
    (ascending : map.Ascending) :
    map.length ≤ keyCount := by
  have distinct : (map.map fun pair => pair.1.rank).Nodup := by
    apply List.Pairwise.map _ _ ascending
    intro lower upper less
    exact Nat.ne_of_lt (Key.lt_iff_rank_lt.mp less)
  have bounded : (map.map fun pair => pair.1.rank) ⊆ List.range keyCount := by
    intro rank present
    obtain ⟨pair, _, rfl⟩ := List.mem_map.mp present
    exact List.mem_range.mpr (Key.rank_lt pair.1)
  have length_le := (distinct.subperm bounded).length_le
  rwa [List.length_map, List.length_range] at length_le

/-- A replay that is over, or has taken more steps than there are keys, has
published what it covers. -/
theorem Course.Invariant.isOver
    {isGood : σ → Prop}
    {cutover : UInt64}
    {before : List Entry}
    {acts advances : Nat}
    {writer : Writer}
    {contents : KeyMap Bytes}
    {course : Course σ}
    (invariant : course.Invariant isGood cutover before acts advances writer contents)
    (isLate : (∃ result, course.progress = .ended result) ∨ keyCount < advances) :
    course.progress = .ended (.ok (statsOf (covered cutover before course.caught))) ∧
      course.events = eventsOf (covered cutover before course.caught) := by
  have stands := invariant.stands
  have bound := length_le_keyCount (ascending_covered cutover before course.caught)
  unfold Course.Stands at stands
  cases progress : course.progress with
  | ended result =>
      rw [progress] at stands
      exact ⟨congrArg Progress.ended stands.1, stands.2⟩
  | ongoing last scan stats =>
      rw [progress] at stands isLate
      obtain ⟨_, passed, length_eq, _, _, pursues⟩ := stands
      rw [pursues.covered_eq, List.length_append] at bound
      rcases isLate with ⟨result, isEnd⟩ | enough
      · cases isEnd
      · omega

/-- A replay with enough fuel publishes exactly the stored events from its cutover
on, if nobody else uses the log. -/
theorem complete_begin
    {log : Log}
    {writer : Writer}
    {disk : Disk}
    {entries : List Entry}
    (serves : Log.Serves log writer disk (KeyMap.ofEntries entries))
    (numbered : writer.segment < 0x10000000000000000)
    {isGood : σ → Prop}
    (succeeds : Succeeds publish isGood)
    {state : σ}
    (good : isGood state)
    (cutover : UInt64)
    {fuel : Nat}
    (enough : keyCount < fuel) :
    let due := (KeyMap.ofEntries entries).filter fun pair => decide (cutover ≤ pair.1.timestamp)
    let whole := complete (recording publish) fuel (begin cutover log) ⟨log, disk, (state, [])⟩
    whole.1 = .ok (statsOf due) ∧ whole.2.state.2 = eventsOf due := by
  intro due whole
  have completed : whole = _ :=
    @complete_recording σ publish (Course.start cutover ⟨log, disk, []⟩ state) fuel
  have caught_eq :=
    @Course.caught_run_advances σ publish (Course.start cutover ⟨log, disk, []⟩ state) fuel
  have started := @invariant_start σ isGood entries (actsIn (List.replicate fuel .advance)) writer
    ⟨log, disk, []⟩ serves (by rwa [actsIn_replicate]) state good cutover
  obtain ⟨behind, grown, invariant⟩ := started.run succeeds
    (fun turn present => by rw [List.eq_of_mem_replicate present]; trivial)
  rw [advancesIn_replicate, Nat.zero_add] at invariant
  obtain ⟨progress_eq, events_eq⟩ := invariant.isOver (Or.inr enough)
  rw [caught_eq] at progress_eq events_eq
  rw [completed, progress_eq, show due = covered cutover entries [] from
    (covered_nil cutover entries).symm]
  exact ⟨rfl, events_eq⟩

/-- A replay of a log that nobody else uses publishes exactly the stored events
from its cutover on. -/
theorem replaySince_recording
    {log : Log}
    {writer : Writer}
    {disk : Disk}
    {entries : List Entry}
    (serves : Log.Serves log writer disk (KeyMap.ofEntries entries))
    (numbered : writer.segment < 0x10000000000000000)
    {isGood : σ → Prop}
    (succeeds : Succeeds publish isGood)
    {state : σ}
    (good : isGood state)
    (cutover : UInt64) :
    let due := (KeyMap.ofEntries entries).filter fun pair => decide (cutover ≤ pair.1.timestamp)
    let whole := replaySince (recording publish) cutover ⟨log, disk, (state, [])⟩
    whole.1 = .ok (statsOf due) ∧ whole.2.state.2 = eventsOf due :=
  complete_begin serves numbered succeeds good cutover (Nat.lt_succ_self keyCount)

/-! ## Publishing with more state -/

/-- A scene of which part of the state is seen. -/
def Scene.view {τ : Type} (part : τ → σ) (scene : Scene τ) : Scene σ :=
  ⟨scene.log, scene.disk, part scene.state⟩

/-- Publishing with more state does the same as far as part of the state shows. -/
def Refines {τ : Type} (part : τ → σ) (fine : Publish τ) (coarse : Publish σ) : Prop :=
  ∀ event scene, coarse event (scene.view part) =
    ((fine event scene).1, (fine event scene).2.view part)

section Refinement

variable {τ : Type} {part : τ → σ} {fine : Publish τ} {coarse : Publish σ}

theorem Refines.replayEntry
    (refines : Refines part fine coarse)
    (value : Bytes)
    (stats : Stats)
    (scene : Scene τ) :
    replayEntry coarse value stats (scene.view part) =
      ((replayEntry fine value stats scene).1,
        (replayEntry fine value stats scene).2.view part) := by
  unfold Replay.replayEntry
  cases Event.decode value with
  | error error => rfl
  | ok event =>
      dsimp only
      rw [refines event scene]
      generalize fine event scene = published
      obtain ⟨result, after⟩ := published
      cases result with
      | ok _ => rfl
      | error error => cases fatal : error.isFatal <;> simp [fatal]

theorem Refines.advance
    (refines : Refines part fine coarse)
    (progress : Progress)
    (scene : Scene τ) :
    advance coarse progress (scene.view part) =
      ((advance fine progress scene).1, (advance fine progress scene).2.view part) := by
  cases progress with
  | ended result => rfl
  | ongoing last scan stats =>
      unfold Replay.advance
      dsimp only [Scene.view]
      generalize scan.next scene.log scene.disk = result
      obtain ⟨yielded, later, log, disk⟩ := result
      rcases yielded with _ | (error | entry)
      · rfl
      · rfl
      · dsimp only
        split
        · rfl
        · have same := refines.replayEntry entry.value stats { scene with log := log, disk := disk }
          unfold Scene.view at same
          dsimp only at same
          rw [same]
          generalize Replay.replayEntry fine entry.value stats
            { scene with log := log, disk := disk } = result
          obtain ⟨outcome, after⟩ := result
          cases outcome <;> rfl

theorem Refines.complete
    (refines : Refines part fine coarse)
    (fuel : Nat)
    (progress : Progress)
    (scene : Scene τ) :
    complete coarse fuel progress (scene.view part) =
      ((complete fine fuel progress scene).1, (complete fine fuel progress scene).2.view part) := by
  induction fuel generalizing progress scene with
  | zero => cases progress <;> rfl
  | succ fuel inductionHypothesis =>
      cases progress with
      | ended result => rfl
      | ongoing last scan stats =>
          rw [Replay.complete, Replay.complete, refines.advance]
          exact inductionHypothesis _ _

/-- More state changes neither the result of a replay nor what it leaves. -/
theorem Refines.replaySince
    (refines : Refines part fine coarse)
    (cutover : UInt64)
    (scene : Scene τ) :
    replaySince coarse cutover (scene.view part) =
      ((replaySince fine cutover scene).1, (replaySince fine cutover scene).2.view part) :=
  refines.complete (keyCount + 1) (begin cutover scene.log) scene

end Refinement

/-- A scene without the list of published events. -/
def Scene.forget (scene : Scene (σ × List Event)) : Scene σ :=
  ⟨scene.log, scene.disk, scene.state.1⟩

/-- Keeping a list of the published events changes neither the result of a replay
nor what it leaves. -/
theorem replaySince_forget (cutover : UInt64) (scene : Scene (σ × List Event)) :
    replaySince publish cutover scene.forget =
      ((replaySince (recording publish) cutover scene).1,
        (replaySince (recording publish) cutover scene).2.forget) :=
  @Refines.replaySince σ (σ × List Event) Prod.fst (recording publish) publish (fun _ _ => rfl)
    cutover scene

/-! ## Publishing that uses the log -/

/-- A scene after another use of its log. -/
def Scene.act {τ : Type} (scene : Scene τ) (action : Action) : Scene τ :=
  let usage := Usage.step ⟨scene.log, scene.disk, []⟩ action
  ⟨usage.log, usage.disk, scene.state⟩

def Scene.use {τ : Type} (scene : Scene τ) (actions : List Action) : Scene τ :=
  actions.foldl Scene.act scene

/-- Publishing that also uses the log, as it answers to the event. -/
def responding (respond : Event → σ → List Action) (publish : Publish σ) : Publish σ :=
  fun event scene =>
    let (result, after) := publish event scene
    (result, after.use (respond event after.state))

/-- Using the log does not touch the list of published events. -/
theorem Scene.use_keeping
    (log : Log)
    (disk : Disk)
    (state : σ)
    (events : List Event)
    (actions : List Action) :
    let after := (⟨log, disk, state⟩ : Scene σ).use actions
    (⟨log, disk, (state, events)⟩ : Scene (σ × List Event)).use actions =
      ⟨after.log, after.disk, (after.state, events)⟩ := by
  induction actions generalizing log disk with
  | nil => rfl
  | cons action rest inductionHypothesis => exact inductionHypothesis _ _

/-- Other uses of the log leave a replay where it is. -/
theorem Course.run_acts (course : Course σ) (actions : List Action) :
    (course.run publish (actions.map .act)).progress = course.progress ∧
      (course.run publish (actions.map .act)).scene = course.scene.use actions := by
  induction actions generalizing course with
  | nil => exact ⟨rfl, rfl⟩
  | cons action rest inductionHypothesis =>
      exact inductionHypothesis (course.step publish (.act action))

variable {respond : Event → σ → List Action}

theorem recording_responding (event : Event) (scene : Scene (σ × List Event)) :
    recording (responding respond publish) event scene =
      let (result, after) := recording publish event scene
      (result, after.use (respond event after.state.1)) := by
  unfold recording responding
  dsimp only
  rw [Scene.use_keeping]

/-- A step of a replay whose publishing uses the log is a step of a replay whose
publishing does not, and other uses of the log. -/
theorem exists_advance_responding
    (counted : ∀ event state, ∀ action ∈ respond event state, action.IsCounted)
    (progress : Progress)
    (scene : Scene (σ × List Event)) :
    ∃ actions, (∀ action ∈ actions, action.IsCounted) ∧
      advance (recording (responding respond publish)) progress scene =
        let (after, left) := advance (recording publish) progress scene
        (after, left.use actions) := by
  have nothing : ∀ action ∈ ([] : List Action), action.IsCounted := by simp
  cases progress with
  | ended result => exact ⟨[], nothing, rfl⟩
  | ongoing last scan stats =>
      unfold advance
      dsimp only
      generalize scan.next scene.log scene.disk = result
      obtain ⟨yielded, later, log, disk⟩ := result
      rcases yielded with _ | (error | entry)
      · exact ⟨[], nothing, rfl⟩
      · exact ⟨[], nothing, rfl⟩
      · dsimp only
        split
        · exact ⟨[], nothing, rfl⟩
        · unfold replayEntry
          cases Event.decode entry.value with
          | error error => exact ⟨[], nothing, rfl⟩
          | ok event =>
              dsimp only
              rw [recording_responding]
              generalize recording publish event ⟨log, disk, scene.state⟩ = published
              obtain ⟨outcome, after⟩ := published
              refine ⟨respond event after.state.1, counted event after.state.1, ?_⟩
              cases outcome with
              | ok _ => rfl
              | error error =>
                  dsimp only
                  cases error.isFatal <;> rfl

theorem advancesIn_acts (actions : List Action) (turns : List Turn) :
    advancesIn (actions.map .act ++ turns) = advancesIn turns := by
  induction actions with
  | nil => rfl
  | cons action rest inductionHypothesis => exact inductionHypothesis

/-- A replay whose publishing uses the log is a replay between other uses of it. -/
theorem exists_turns
    (counted : ∀ event state, ∀ action ∈ respond event state, action.IsCounted)
    (course : Course σ)
    (fuel : Nat) :
    ∃ turns, (∀ turn ∈ turns, turn.IsCounted) ∧
      complete (recording (responding respond publish)) fuel course.progress course.scene =
        ((course.run publish turns).progress.outcome, (course.run publish turns).scene) ∧
      ((∃ result, (course.run publish turns).progress = .ended result) ∨
        advancesIn turns = fuel) := by
  induction fuel generalizing course with
  | zero =>
      obtain ⟨progress, scene, caught⟩ := course
      refine ⟨[], by simp, ?_, Or.inr rfl⟩
      cases progress <;> rfl
  | succ fuel inductionHypothesis =>
      obtain ⟨progress, scene, caught⟩ := course
      cases progress with
      | ended result => exact ⟨[], by simp, rfl, Or.inl ⟨result, rfl⟩⟩
      | ongoing last scan stats =>
          obtain ⟨actions, actionsCounted, advanced⟩ :=
            @exists_advance_responding σ publish respond counted (.ongoing last scan stats) scene
          generalize stepped_eq :
            (⟨.ongoing last scan stats, scene, caught⟩ : Course σ).step publish .advance =
              stepped
          obtain ⟨progress_eq, scene_eq⟩ := @Course.run_acts σ publish stepped actions
          generalize between_eq : stepped.run publish (actions.map .act) = between at *
          obtain ⟨turns, turnsCounted, completed, isOver⟩ := inductionHypothesis between
          have run_eq : (⟨.ongoing last scan stats, scene, caught⟩ : Course σ).run publish
              (.advance :: (actions.map .act ++ turns)) = between.run publish turns := by
            rw [← between_eq, ← stepped_eq]
            unfold Course.run
            rw [List.foldl_cons, List.foldl_append]
          refine ⟨.advance :: (actions.map .act ++ turns), ?_, ?_, ?_⟩
          · intro turn present
            rcases List.mem_cons.mp present with rfl | present
            · trivial
            rcases List.mem_append.mp present with isAct | isLater
            · obtain ⟨action, isOne, rfl⟩ := List.mem_map.mp isAct
              exact actionsCounted action isOne
            · exact turnsCounted turn isLater
          · rw [run_eq, ← completed, complete, advanced, progress_eq, scene_eq, ← stepped_eq]
            rfl
          · rw [run_eq, advancesIn, advancesIn_acts]
            exact isOver.imp_right fun same => by rw [same]

/-- A replay whose publishing uses the log publishes exactly what it covers, as if
the log were used by others between its steps. -/
theorem replaySince_responding
    {log : Log}
    {writer : Writer}
    {disk : Disk}
    {entries : List Entry}
    (serves : Log.Serves log writer disk (KeyMap.ofEntries entries))
    {isGood : σ → Prop}
    (succeeds : Succeeds publish isGood)
    {state : σ}
    (good : isGood state)
    (counted : ∀ event state, ∀ action ∈ respond event state, action.IsCounted)
    (cutover : UInt64) :
    let whole := replaySince (recording (responding respond publish)) cutover
      ⟨log, disk, (state, [])⟩
    ∃ turns, (∀ turn ∈ turns, turn.IsCounted) ∧
      let course := (Course.start cutover ⟨log, disk, []⟩ state).run publish turns
      whole.2 = course.scene ∧
        (writer.segment + actsIn turns < 0x10000000000000000 →
          whole.1 = .ok (statsOf (covered cutover entries course.caught)) ∧
            whole.2.state.2 = eventsOf (covered cutover entries course.caught)) := by
  intro whole
  obtain ⟨turns, turnsCounted, completed, isOver⟩ := @exists_turns σ publish respond counted
    (Course.start cutover ⟨log, disk, []⟩ state) (keyCount + 1)
  change whole = _ at completed
  refine ⟨turns, turnsCounted, ?_⟩
  intro course
  refine ⟨congrArg Prod.snd completed, fun numbered => ?_⟩
  have started := @invariant_start σ isGood entries (actsIn turns) writer ⟨log, disk, []⟩ serves
    numbered state good cutover
  obtain ⟨behind, grown, invariant⟩ := started.run succeeds turnsCounted
  have isLate : (∃ result, course.progress = .ended result) ∨
      keyCount < 0 + advancesIn turns := by
    refine isOver.imp_right fun all => ?_
    rw [all, Nat.zero_add]
    exact Nat.lt_succ_self keyCount
  obtain ⟨progress_eq, events_eq⟩ := invariant.isOver isLate
  rw [completed]
  exact ⟨congrArg Progress.outcome progress_eq, events_eq⟩

end Replay
end EventRelay
