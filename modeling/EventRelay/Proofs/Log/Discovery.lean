import EventRelay.Proofs.Log.Opening
import Mathlib.Data.List.Pairwise

/-!
# The segments that opening a log finds

A file stands for a segment if its name spells the number of the segment, but the
segment is then looked for under the one name that it would be given.  The two
agree just in directories where no file spells the number of a segment in another
way.  Elsewhere a segment is found once for every file that spells its number, and
a segment whose own name is missing keeps the log from opening.
-/

namespace EventRelay
namespace Log

open Segment (Spells discover name)

/-! ## What should be found -/

/-- The segments that are found are those whose names stand in the directory, each
of them once. -/
structure FindsNames (disk : Disk) : Prop where
  ascending : (discover disk).Pairwise (· < ·)
  mem_iff : ∀ segment, segment ∈ discover disk ↔
    segment < 0x10000000000000000 ∧ name segment ∈ disk.listing

/-- No name stands in the directory for a segment except the name of the segment. -/
def OnlyNames (disk : Disk) : Prop :=
  ∀ file ∈ disk.listing, ∀ segment, Spells file segment → file = name segment

/-- Every segment that a name in the directory spells has a file of its own name. -/
def NamesSpelled (disk : Disk) : Prop :=
  ∀ file ∈ disk.listing, ∀ segment, Spells file segment → name segment ∈ disk.listing

theorem spells_name
    {segment : Nat}
    (small : segment < 0x10000000000000000) :
    Spells (name segment) segment :=
  ⟨small, false, Segment.exists_name_eq_spelling segment⟩

/-- A segment that is there is found. -/
theorem mem_discover_of_name_mem
    {disk : Disk}
    {segment : Nat}
    (small : segment < 0x10000000000000000)
    (listed : name segment ∈ disk.listing) :
    segment ∈ discover disk :=
  Segment.mem_discover_iff_spells.mpr ⟨_, listed, spells_name small⟩

theorem OnlyNames.namesSpelled
    {disk : Disk}
    (onlyNames : OnlyNames disk) :
    NamesSpelled disk := by
  intro file listed segment spelled
  rw [← onlyNames file listed segment spelled]
  exact listed

/-- Each segment is found once if only its name stands for it. -/
theorem OnlyNames.nodup_discover
    {disk : Disk}
    (once : disk.listing.Nodup)
    (onlyNames : OnlyNames disk) :
    (discover disk).Nodup := by
  apply Segment.nodup_discover_iff.mpr
  apply once.imp_of_mem
  intro left right leftListed rightListed different segment leftSpelled rightSpelled
  apply different
  rw [onlyNames left leftListed segment leftSpelled,
    onlyNames right rightListed segment rightSpelled]

/-- Exactly the segments that are there are found, if no other file looks like one. -/
theorem OnlyNames.findsNames
    {disk : Disk}
    (once : disk.listing.Nodup)
    (onlyNames : OnlyNames disk) :
    FindsNames disk where
  ascending := by
    apply (Segment.pairwise_discover disk).imp₂ _ (onlyNames.nodup_discover once)
    intro left right ordered different
    exact Nat.lt_of_le_of_ne ordered different
  mem_iff := by
    intro segment
    constructor
    · intro found
      obtain ⟨file, listed, spelled⟩ := Segment.mem_discover_iff_spells.mp found
      exact ⟨spelled.1, onlyNames.namesSpelled file listed segment spelled⟩
    · rintro ⟨small, listed⟩
      exact mem_discover_of_name_mem small listed

/-- Another spelling of a segment is found in vain or a second time. -/
theorem FindsNames.onlyNames
    {disk : Disk}
    (findsNames : FindsNames disk) :
    OnlyNames disk := by
  intro file listed segment spelled
  by_contra different
  have found : segment ∈ discover disk :=
    Segment.mem_discover_iff_spells.mpr ⟨file, listed, spelled⟩
  obtain ⟨small, nameListed⟩ := (findsNames.mem_iff segment).mp found
  have once : (discover disk).Nodup := findsNames.ascending.imp Nat.ne_of_lt
  have apart : Segment.Apart file (name segment) :=
    (Segment.nodup_discover_iff.mp once).forall listed nameListed different
  exact apart segment spelled (spells_name small)

theorem findsNames_iff
    {disk : Disk}
    (once : disk.listing.Nodup) :
    FindsNames disk ↔ OnlyNames disk :=
  ⟨FindsNames.onlyNames, OnlyNames.findsNames once⟩

/-! ## What opening needs -/

theorem namesSpelled_iff
    {disk : Disk} :
    NamesSpelled disk ↔ HasFiles disk (discover disk) := by
  constructor
  · intro namesSpelled segment found
    obtain ⟨file, listed, spelled⟩ := Segment.mem_discover_iff_spells.mp found
    exact Disk.isSome_number?_of_mem_listing (namesSpelled file listed segment spelled)
  · intro present file listed segment spelled
    have found := Segment.mem_discover_iff_spells.mpr ⟨file, listed, spelled⟩
    obtain ⟨number, numbered⟩ := Option.isSome_iff_exists.mp (present segment found)
    exact List.mem_map.mpr ⟨_, Disk.mem_names_of_number?_eq_some numbered, rfl⟩

/-- A segment without a file stops the recovery, whatever is read before it. -/
theorem addSegments_eq_error
    {disk : Disk}
    {segments : List Nat}
    (missing : ¬HasFiles disk segments)
    (recovery : Recovery) :
    recovery.addSegments segments disk = .error (.disk .notFound) := by
  induction segments generalizing recovery with
  | nil => exact absurd (by simp [HasFiles]) missing
  | cons segment rest inductionHypothesis =>
      rw [Recovery.addSegments]
      cases found : disk.number? (name segment) with
      | none => rw [addSegment_eq_error found]
      | some file =>
          have missingLater : ¬HasFiles disk rest := by
            intro later
            apply missing
            exact List.forall_mem_cons.mpr ⟨by rw [found]; rfl, later⟩
          have notLast : rest.isEmpty = false := by
            cases rest with
            | nil => exact absurd (by simp [HasFiles]) missingLater
            | cons second others => rfl
          rw [addSegment_eq found, notLast]
          exact inductionHypothesis missingLater _

theorem openIn_eq_error
    {disk : Disk}
    (isPlace : disk.place ≠ .file)
    (missing : ¬HasFiles disk (discover disk))
    (settings : Settings) :
    openIn settings disk = .error (.disk .notFound) := by
  have recovery : Recovery.initial.addSegments (discover (made disk)) (made disk) =
      .error (.disk .notFound) :=
    @addSegments_eq_error (made disk) _ missing Recovery.initial
  rw [openIn, makeDirectory_eq isPlace]
  dsimp only
  rw [recovery]

/-- Opening fails just for a segment whose number is spelled and whose name is missing. -/
theorem openIn_eq_notFound_iff
    {disk : Disk}
    (wellFormed : disk.WellFormed)
    (isPlace : disk.place ≠ .file)
    (settings : Settings) :
    openIn settings disk = .error (.disk .notFound) ↔ ¬NamesSpelled disk := by
  rw [namesSpelled_iff]
  constructor
  · intro refused present
    rw [openIn_eq wellFormed isPlace present] at refused
    cases refused
  · intro missing
    exact openIn_eq_error isPlace missing settings

/-- A damaged segment is counted once for every file that stands for it. -/
theorem damagedCount_discover (disk : Disk) :
    damagedCount disk (discover disk) =
      disk.listing.countP fun file => (Segment.ofName? file).any (isDamaged disk) := by
  rw [damagedCount, (Segment.perm_discover disk).countP_eq, List.countP_filterMap]
  congr 1
  funext file
  cases Segment.ofName? file <;> rfl

/-! ## The result -/

/-- Every name in a directory that spells the number of a segment makes that segment
be found once more, in ascending order.  Exactly the segments that are there are
found if and only if no number is spelled in another way than by the name of the
segment.  Opening fails just if the name of a segment that is spelled is missing,
and else counts a damaged segment once for every file that spells its number. -/
theorem finds_spelled
    {disk : Disk}
    (wellFormed : disk.WellFormed)
    (isPlace : disk.place ≠ .file)
    (once : disk.listing.Nodup) :
    (discover disk).Pairwise (· ≤ ·) ∧
      (∀ segment, (discover disk).count segment =
        disk.listing.countP fun file => decide (Spells file segment)) ∧
      (∀ segment < 0x10000000000000000, name segment ∈ disk.listing → segment ∈ discover disk) ∧
      (FindsNames disk ↔ OnlyNames disk) ∧
      ∀ settings,
        (openIn settings disk = .error (.disk .notFound) ↔ ¬NamesSpelled disk) ∧
        (NamesSpelled disk → ∃ log opened, openIn settings disk = .ok (log, opened) ∧
          log.index = rebuild disk (discover disk) [] ∧
          log.truncatedTails =
            disk.listing.countP fun file => (Segment.ofName? file).any (isDamaged disk)) := by
  refine ⟨Segment.pairwise_discover disk, Segment.count_discover disk, ?_, findsNames_iff once,
    fun settings => ⟨openIn_eq_notFound_iff wellFormed isPlace settings, ?_⟩⟩
  · intro segment small listed
    exact mem_discover_of_name_mem small listed
  · intro namesSpelled
    have present := namesSpelled_iff.mp namesSpelled
    exact ⟨_, _, openIn_eq wellFormed isPlace present settings, rfl, damagedCount_discover disk⟩

/-- A directory with two spellings of one segment, which is damaged. -/
def respelled : Disk where
  place := .directory
  names := [("wal-1.log", 0), ("wal-000001.log", 1), ("notes.txt", 2)]
  contents := #[[], [1], []]

theorem wellFormed_respelled : respelled.WellFormed where
  numbers_nodup := by decide
  number_lt := by decide

theorem not_onlyNames_respelled : ¬OnlyNames respelled := by
  intro onlyNames
  have same := onlyNames "wal-1.log" (by decide) 1 (by decide)
  revert same
  decide

/-- The file of the segment is too short for the head of a frame. -/
theorem isDamaged_respelled : isDamaged respelled 1 = true := by
  have bytes_eq : respelled.segment 1 = Segment.bytesOf [] ++ [1] := by decide
  have stuck : Segment.Stuck [1] := ⟨.tornHeader 1, rfl⟩
  exact (reading_spec bytes_eq stuck).2.2.mpr (List.cons_ne_nil 1 [])

/-- The segment is found twice and its damage is counted twice. -/
theorem finds_spelled_respelled :
    (respelled.WellFormed ∧ respelled.place ≠ .file ∧ respelled.listing.Nodup) ∧
      (discover respelled).count 1 = 2 ∧ ¬FindsNames respelled ∧
      ∀ settings, ∃ log opened, openIn settings respelled = .ok (log, opened) ∧
        log.truncatedTails = 2 := by
  have once : respelled.listing.Nodup := by decide
  obtain ⟨_, count_eq, _, findsNames, openings⟩ :=
    finds_spelled wellFormed_respelled (by decide) once
  have namesSpelled : NamesSpelled respelled := by
    intro file listed segment spelled
    have read : segment ∈ respelled.listing.filterMap Segment.ofName? :=
      List.mem_filterMap.mpr ⟨file, listed, Segment.ofName?_eq_some_iff.mpr spelled⟩
    have found : segment ∈ [1, 1] := read
    obtain rfl : segment = 1 := by simpa using found
    decide
  refine ⟨⟨wellFormed_respelled, by decide, once⟩, count_eq 1,
    mt findsNames.mp not_onlyNames_respelled, fun settings => ?_⟩
  obtain ⟨log, opened, accepted, _, truncatedTails_eq⟩ := (openings settings).2 namesSpelled
  refine ⟨log, opened, accepted, truncatedTails_eq.trans ?_⟩
  have one : Segment.ofName? "wal-1.log" = some 1 := by decide
  have same : Segment.ofName? "wal-000001.log" = some 1 := by decide
  have other : Segment.ofName? "notes.txt" = none := by decide
  change ["wal-1.log", "wal-000001.log", "notes.txt"].countP _ = 2
  simp only [List.countP_cons, List.countP_nil, one, same, other, Option.any_some,
    Option.any_none, isDamaged_respelled, if_true, Bool.false_eq_true, if_false]

/-- A directory in which a file that is no segment looks like one. -/
def strayed : Disk where
  place := .directory
  names := [("wal-7.log", 0)]
  contents := #[[]]

/-- A segment is found whose name is missing, and the log is not opened; another one
is found twice. -/
theorem not_findsNames_strayed :
    ¬FindsNames strayed ∧ openIn .standard strayed = .error (.disk .notFound) ∧
      ¬FindsNames respelled := by
  have missing : ¬NamesSpelled strayed := by
    intro namesSpelled
    have listed := namesSpelled "wal-7.log" (by decide) 7 (by decide)
    revert listed
    decide
  refine ⟨fun finds => missing finds.onlyNames.namesSpelled, ?_,
    fun finds => not_onlyNames_respelled finds.onlyNames⟩
  exact openIn_eq_error (by decide) (mt namesSpelled_iff.mpr missing) .standard

end Log
end EventRelay
