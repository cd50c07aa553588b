import EventRelay.Proofs.Log.Scan

/-!
# Use of an open log

An open log is appended to and scanned.  Whatever is done, it goes on to serve a
map: the one that it served before, with the entries of the accepted appends
inserted.  What a scan keeps stays right meanwhile.
-/

namespace EventRelay
namespace Log

open Segment (Writer)

/-- What is done with an open log. -/
inductive Action where
  /-- Append entries. -/
  | append (entries : List Entry)
  /-- Carry out a step of a scan, wherever it is. -/
  | next (scan : Scan)

/-- The number of entries of an append can be stored. -/
def Action.IsCounted : Action → Prop
  | .append entries => entries.length < Bytes.cardinality 4
  | .next _ => True

/-- An open log, and the batches of the accepted appends. -/
structure Usage where
  log : Log
  disk : Disk
  appends : List (List Entry)

namespace Usage

/-- Do something with the log.  A refused append leaves everything as it is. -/
def step (usage : Usage) : Action → Usage
  | .append entries =>
      match usage.log.append usage.disk entries with
      | .error _ => usage
      | .ok (log, disk) => ⟨log, disk, usage.appends ++ [entries]⟩
  | .next scan =>
      let (_, _, log, disk) := scan.next usage.log usage.disk
      { usage with log := log, disk := disk }

def run (usage : Usage) (actions : List Action) : Usage :=
  actions.foldl step usage

end Usage

/-- All that a step of a scan does to the log is to make a frame readable. -/
theorem Scan.next_cases
    {log : Log}
    {writer : Writer}
    (opened : log.writer = some writer)
    (scan : Scan)
    (disk : Disk) :
    (scan.next log disk).2.2 = (log, disk) ∨
      ∃ position, (scan.next log disk).2.2 =
        ({ log with writer := some (writer.ensureReadable disk position).1 },
          (writer.ensureReadable disk position).2) := by
  unfold next
  cases scan.nextFrom with
  | none => exact Or.inl rfl
  | some least =>
      cases found : log.index.firstFrom? least with
      | none =>
          refine Or.inl ?_
          simp only [locateFrom_eq_none opened found]
      | some pair =>
          obtain ⟨key, location⟩ := pair
          simp only [locateFrom_eq_some opened found]
          refine Or.inr ⟨location.frame, ?_⟩
          split
          · rfl
          · split <;> rfl

/-! ## What is served -/

/-- What an action, or several of them, leave of a log that serves a map. -/
structure Continues
    (usage : Usage) (writer : Writer) (contents : KeyMap Bytes)
    (after : Usage) (behind : Writer) (added : List (List Entry)) (actions : Nat) : Prop where
  appends_eq : after.appends = usage.appends ++ added
  /-- The added entries are inserted. -/
  serves : Serves after.log behind after.disk (contents.enter added.flatten)
  sound : ∀ scan : Scan, scan.Sound writer usage.disk → scan.Sound behind after.disk
  /-- Every action begins one segment at most. -/
  segment_le : behind.segment ≤ writer.segment + actions

variable {usage between after : Usage} {writer middle behind : Writer}
variable {contents : KeyMap Bytes}

theorem continues_nil
    (serves : Serves usage.log writer usage.disk contents) :
    Continues usage writer contents usage writer [] 0 where
  appends_eq := (List.append_nil _).symm
  serves := serves
  sound := fun _ => id
  segment_le := Nat.le_refl _

theorem Continues.trans
    {front back : List (List Entry)}
    {fewer more : Nat}
    (lower : Continues usage writer contents between middle front fewer)
    (upper : Continues between middle (contents.enter front.flatten) after behind back more) :
    Continues usage writer contents after behind (front ++ back) (fewer + more) where
  appends_eq := by
    rw [upper.appends_eq, lower.appends_eq, List.append_assoc]
  serves := by
    have serves := upper.serves
    rwa [KeyMap.enter, KeyMap.enter, ← List.foldl_append, ← List.flatten_append] at serves
  sound := fun scan sound => upper.sound scan (lower.sound scan sound)
  segment_le := by
    have lowerBound := lower.segment_le
    have upperBound := upper.segment_le
    omega

/-- An append leaves the map with its entries, if it is accepted. -/
theorem Usage.exists_append
    (serves : Serves usage.log writer usage.disk contents)
    (small : writer.segment + 1 < 0x10000000000000000)
    {entries : List Entry}
    (counted : entries.length < Bytes.cardinality 4) :
    ∃ behind added,
      Continues usage writer contents (usage.step (.append entries)) behind added 1 := by
  rw [step]
  cases accepted : usage.log.append usage.disk entries with
  | error error =>
      exact ⟨writer, [], (List.append_nil _).symm, serves, fun _ => id, Nat.le_succ _⟩
  | ok result =>
      obtain ⟨log, disk⟩ := result
      by_cases empty : entries = []
      · subst empty
        rw [append_nil] at accepted
        cases accepted
        exact ⟨writer, [[]], rfl, serves, fun _ => id, Nat.le_succ _⟩
      · obtain ⟨other, whole, rfl, appends⟩ := exists_appends empty counted accepted
        obtain rfl : other = writer :=
          Option.some_inj.mp (appends.before_eq.symm.trans serves.writer_eq)
        have stores := appends.stores serves.ready small
        refine ⟨_, [whole.entries], rfl, ?_, fun scan sound => sound.write stores, ?_⟩
        · rw [List.flatten_singleton]
          exact serves.append small appends
        · have follows := stores.follows
          omega

/-- A step of a scan leaves the map alone. -/
theorem Usage.exists_next
    (serves : Serves usage.log writer usage.disk contents)
    (scan : Scan) :
    ∃ behind, Continues usage writer contents (usage.step (.next scan)) behind [] 1 := by
  have cases := scan.next_cases serves.writer_eq usage.disk
  rw [step]
  generalize scan.next usage.log usage.disk = result at cases ⊢
  obtain ⟨yielded, later, log, disk⟩ := result
  dsimp only at cases ⊢
  rcases cases with same | ⟨position, same⟩
  · cases same
    exact ⟨writer, (List.append_nil _).symm, serves, fun _ => id, Nat.le_succ _⟩
  · cases same
    have settles := Writer.settles_ensureReadable serves.ready position
    refine ⟨_, (List.append_nil _).symm, serves.settle settles,
      fun other sound => sound.settle settles, ?_⟩
    rw [settles.adds.segment_eq]
    exact Nat.le_succ _

theorem Usage.exists_step
    (serves : Serves usage.log writer usage.disk contents)
    (small : writer.segment + 1 < 0x10000000000000000)
    {action : Action}
    (counted : action.IsCounted) :
    ∃ behind added, Continues usage writer contents (usage.step action) behind added 1 := by
  cases action with
  | append entries => exact exists_append serves small counted
  | next scan =>
      obtain ⟨behind, continues⟩ := exists_next serves scan
      exact ⟨behind, [], continues⟩

theorem Usage.exists_run
    {actions : List Action}
    (serves : Serves usage.log writer usage.disk contents)
    (small : writer.segment + actions.length < 0x10000000000000000)
    (counted : ∀ action ∈ actions, action.IsCounted) :
    ∃ behind added,
      Continues usage writer contents (usage.run actions) behind added actions.length := by
  induction actions generalizing usage writer contents with
  | nil => exact ⟨writer, [], continues_nil serves⟩
  | cons action rest inductionHypothesis =>
      obtain ⟨first, others⟩ := List.forall_mem_cons.mp counted
      rw [List.length_cons] at small
      obtain ⟨middle, front, stepped⟩ := exists_step serves (by omega) first
      have bound := stepped.segment_le
      obtain ⟨behind, back, finished⟩ :=
        inductionHypothesis stepped.serves (by omega) others
      have both := stepped.trans finished
      rw [Nat.add_comm] at both
      exact ⟨behind, front ++ back, both⟩

end Log
end EventRelay
