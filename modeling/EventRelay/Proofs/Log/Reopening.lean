import EventRelay.Proofs.Log.Discovery
import EventRelay.Proofs.Log.Refinement

/-!
# Any bytes are opened

The files of the segments may hold any bytes.  Each of them is whole frames and
a rest that starts with none, and opening keeps the entries of the whole frames.
It cuts the rest off the newest segment and leaves all other files alone.  What
it leaves is opened again without a change.
-/

namespace EventRelay
namespace Log

open EventRelay.Frame (Whole)
open Segment (Writer bytesOf placed discover name ofName?)

/-! ## Directories -/

/-- A directory, or an empty place for one, in which every file that looks like a
segment has the name of that segment. -/
structure IsCanonical (disk : Disk) : Prop where
  wellFormed : disk.WellFormed
  isPlace : disk.place ≠ .file
  /-- No name stands in the directory twice. -/
  nodup : disk.listing.Nodup
  name_eq : ∀ file ∈ disk.listing, ∀ segment, ofName? file = some segment → file = name segment

/-- The segment that is written next: the newest, or the first one. -/
def active (disk : Disk) : Nat :=
  (discover disk).getLast?.getD 0

/-- The whole frames that each segment starts with, and what follows them. -/
structure Parted (disk : Disk) (frames : Nat → List Whole) (rest : Nat → Bytes) : Prop where
  bytes_eq : ∀ segment, disk.segment segment = bytesOf (frames segment) ++ rest segment
  rest_ne : ∀ segment (whole : Whole) after, rest segment ≠ whole.bytes ++ after

/-- The entries of the frames of all segments, in ascending order of the segments. -/
def entriesOf (disk : Disk) (frames : Nat → List Whole) : List Entry :=
  (discover disk).flatMap fun segment => (frames segment).flatMap Whole.entries

/-- The number of the given segments that are more than whole frames. -/
def damagedIn (segments : List Nat) (rest : Nat → Bytes) : Nat :=
  segments.countP fun segment => decide (rest segment ≠ [])

/-- What opening leaves of the files: the newest segment is cut to its whole
frames, or the first segment is made empty, and nothing else changes. -/
structure Restores (disk : Disk) (frames : Nat → List Whole) (opened : Disk) : Prop where
  isDirectory : opened.place = .directory
  listing_eq : opened.listing =
    disk.listing ++ if discover disk = [] then [name (active disk)] else []
  read_active : opened.read (name (active disk)) = .ok (bytesOf (frames (active disk)))
  read_others : ∀ file ≠ name (active disk), opened.read file = disk.read file

/-- What an opened log serves. -/
structure Recalls (log : Log) (disk : Disk) (entries : List Entry) : Prop where
  isOpen : log.writer ≠ none
  keys_eq : log.index.map Prod.fst = (KeyMap.ofEntries entries).map Prod.fst
  shows : Shows log disk (KeyMap.ofEntries entries)

theorem IsCanonical.onlyNames
    {disk : Disk}
    (canonical : IsCanonical disk) :
    OnlyNames disk := by
  intro file listed segment spelled
  exact canonical.name_eq file listed segment (Segment.ofName?_eq_some_iff.mpr spelled)

theorem IsCanonical.hasFiles
    {disk : Disk}
    (canonical : IsCanonical disk) :
    HasFiles disk (discover disk) :=
  namesSpelled_iff.mp canonical.onlyNames.namesSpelled

/-- Segments are found once, because different files have different numbers. -/
theorem IsCanonical.pairwise_discover
    {disk : Disk}
    (canonical : IsCanonical disk) :
    (discover disk).Pairwise (· < ·) :=
  (canonical.onlyNames.findsNames canonical.nodup).ascending

/-! ## Frames and rests -/

/-- The bytes of every segment are parted in one way or another. -/
theorem exists_parted (disk : Disk) :
    ∃ frames rest, Parted disk frames rest := by
  choose frames rest bytes_eq stuck using
    fun segment => Segment.Reader.exists_frames (disk.segment segment)
  exact ⟨frames, rest, bytes_eq, fun segment => Segment.Reader.stuck_iff.mp (stuck segment)⟩

theorem Parted.reading
    {disk : Disk}
    {frames : Nat → List Whole}
    {rest : Nat → Bytes}
    (parted : Parted disk frames rest)
    (segment : Nat) :
    (Log.reading disk segment).1 = placed 0 (frames segment) ∧
      validBytes disk segment = bytesOf (frames segment) ∧
      (isDamaged disk segment = true ↔ rest segment ≠ []) :=
  reading_spec (parted.bytes_eq segment) (Segment.Reader.stuck_iff.mpr (parted.rest_ne segment))

/-- A segment is more than whole frames exactly if something follows them. -/
theorem Parted.rest_eq_nil_iff
    {disk : Disk}
    {frames : Nat → List Whole}
    {rest : Nat → Bytes}
    (parted : Parted disk frames rest)
    (segment : Nat) :
    rest segment = [] ↔ ∃ whole, disk.segment segment = bytesOf whole := by
  constructor
  · intro empty
    refine ⟨frames segment, ?_⟩
    rw [parted.bytes_eq, empty, List.append_nil]
  · rintro ⟨whole, bytes_eq⟩
    have undamaged : isDamaged disk segment = false := by
      rw [isDamaged, Log.reading, bytes_eq, Segment.Reader.readAll_bytesOf]
      rfl
    have damage := (parted.reading segment).2.2
    rw [undamaged] at damage
    simpa using damage

theorem Parted.damagedCount_eq
    {disk : Disk}
    {frames : Nat → List Whole}
    {rest : Nat → Bytes}
    (parted : Parted disk frames rest)
    (segments : List Nat) :
    damagedCount disk segments = damagedIn segments rest := by
  apply List.countP_congr
  intro segment _
  rw [(parted.reading segment).2.2, decide_eq_true_iff]

theorem Parted.recovered_eq
    {disk : Disk}
    {frames : Nat → List Whole}
    {rest : Nat → Bytes}
    (parted : Parted disk frames rest) :
    recovered disk = entriesOf disk frames := by
  unfold recovered entriesOf
  congr 1
  funext segment
  rw [(parted.reading segment).1, Segment.flatMap_entries_placed]

/-- The index depends on the whole frames only. -/
theorem Parted.rebuild_eq
    {disk : Disk}
    {frames : Nat → List Whole}
    {rest : Nat → Bytes}
    (parted : Parted disk frames rest)
    (segments : List Nat)
    (index : Index) :
    rebuild disk segments index =
      segments.foldl (fun index segment =>
        Index.addFrames index segment (placed 0 (frames segment))) index := by
  unfold rebuild
  congr 1
  funext index segment
  rw [(parted.reading segment).1]

/-! ## The files -/

/-- The file of a repaired segment holds its valid bytes. -/
theorem read_repair
    {disk : Disk}
    (wellFormed : disk.WellFormed)
    {segment file : Nat}
    (found : disk.number? (name segment) = some file)
    (other : String) :
    (repair disk segment).read other =
      if other = name segment then .ok (validBytes disk segment) else disk.read other := by
  have repairs := repairs_repair wellFormed found
  have sameNumber := Disk.number?_eq_of_names_eq repairs.names_eq
  split
  · rename_i same
    subst same
    have cut := repairs.segment_eq segment
    rw [if_pos rfl, Disk.segment_eq_content ((sameNumber _).trans found)] at cut
    rw [Disk.read_of_number?_eq_some ((sameNumber _).trans found), cut]
  · rename_i different
    unfold repair
    rw [found]
    dsimp only
    split
    · rw [Disk.resize, Disk.read_change wellFormed found, if_neg different]
    · rfl

/-- The newest segment has a file, before and after it is cut. -/
theorem exists_newest
    {disk : Disk}
    (wellFormed : disk.WellFormed)
    (present : HasFiles disk (discover disk))
    {newest : Nat}
    (last : (discover disk).getLast? = some newest) :
    ∃ file, disk.number? (name newest) = some file ∧
      (repaired disk).number? (name newest) = some file := by
  obtain ⟨file, found⟩ :=
    Option.isSome_iff_exists.mp (present newest (List.mem_of_getLast? last))
  refine ⟨file, found, ?_⟩
  rw [Disk.number?_eq_of_names_eq (repairs_repaired wellFormed present).names_eq]
  exact found

/-- Opening changes what is read under the name of the active segment only. -/
theorem read_activated
    {disk : Disk}
    (wellFormed : disk.WellFormed)
    (present : HasFiles disk (discover disk))
    (file : String) :
    (activated disk).1.read file =
      if file = name (active disk) then .ok (validBytes disk (active disk))
      else disk.read file := by
  unfold activated active
  cases last : (discover disk).getLast? with
  | some newest =>
      obtain ⟨number, found, kept⟩ := exists_newest wellFormed present last
      have cut : repaired disk = repair (made disk) newest := by
        rw [repaired, last]
        rfl
      rw [Option.getD_some, Disk.openOrCreate_of_number?_eq_some kept, cut]
      exact @read_repair (made disk) ⟨wellFormed.numbers_nodup, wellFormed.number_lt⟩
        newest number found file
  | none =>
      have nothing : validBytes disk 0 = [] := by
        rw [validBytes, segment_first last, List.take_nil]
      have same : repaired disk = made disk := by
        rw [repaired, last]
        rfl
      have missing : (made disk).number? (name 0) = none := number?_first last
      rw [Option.getD_none, same, Disk.openOrCreate_of_number?_eq_none missing, nothing]
      exact Disk.read_create missing file

/-- Opening adds the first segment to a directory without segments. -/
theorem listing_activated
    {disk : Disk}
    (wellFormed : disk.WellFormed)
    (present : HasFiles disk (discover disk)) :
    (activated disk).1.listing =
      disk.listing ++ if discover disk = [] then [name (active disk)] else [] := by
  have names_eq : (repaired disk).names = disk.names :=
    (repairs_repaired wellFormed present).names_eq
  have sameListing : (repaired disk).listing = disk.listing := by
    rw [Disk.listing, names_eq]
    rfl
  unfold activated active
  cases last : (discover disk).getLast? with
  | some newest =>
      obtain ⟨file, _, kept⟩ := exists_newest wellFormed present last
      rw [Option.getD_some, Disk.openOrCreate_of_number?_eq_some kept, sameListing,
        if_neg (List.ne_nil_of_mem (List.mem_of_getLast? last)), List.append_nil]
  | none =>
      have missing : (repaired disk).number? (name 0) = none :=
        (Disk.number?_eq_of_names_eq names_eq _).trans (number?_first last)
      rw [Option.getD_none, Disk.openOrCreate_of_number?_eq_none missing, Disk.listing_create,
        sameListing, if_pos (List.getLast?_eq_none_iff.mp last)]

/-- Opening changes no file of a directory whose newest segment is whole. -/
theorem activated_eq_self
    {disk : Disk}
    (wellFormed : disk.WellFormed)
    (isDirectory : disk.place = .directory)
    (present : HasFiles disk (discover disk))
    {newest : Nat}
    (last : (discover disk).getLast? = some newest)
    (undamaged : isDamaged disk newest = false) :
    (activated disk).1 = disk := by
  obtain ⟨file, found, _⟩ := exists_newest wellFormed present last
  have same : made disk = disk := by
    rw [made, ← isDirectory]
  have whole : repaired disk = disk := by
    rw [repaired, last, same, Option.map_some, Option.getD_some, repair, found]
    dsimp only
    rw [undamaged, if_neg Bool.false_ne_true]
  rw [activated, whole, last, Option.getD_some, Disk.openOrCreate_of_number?_eq_some found]

theorem restores_activated
    {disk : Disk}
    (canonical : IsCanonical disk)
    {frames : Nat → List Whole}
    {rest : Nat → Bytes}
    (parted : Parted disk frames rest) :
    Restores disk frames (activated disk).1 where
  isDirectory :=
    (opens_openedLog canonical.wellFormed canonical.hasFiles .standard).ready.isDirectory
  listing_eq := listing_activated canonical.wellFormed canonical.hasFiles
  read_active := by
    rw [read_activated canonical.wellFormed canonical.hasFiles, if_pos rfl,
      (parted.reading _).2.1]
  read_others := by
    intro file different
    rw [read_activated canonical.wellFormed canonical.hasFiles, if_neg different]

/-! ## Opening twice -/

/-- What is left of the rests when the active segment is cut. -/
def cutRest (disk : Disk) (rest : Nat → Bytes) (segment : Nat) : Bytes :=
  if segment = active disk then [] else rest segment

/-- Opening leaves the whole frames, and the rests of all segments but the active one. -/
theorem Parted.opened
    {settings : Settings}
    {disk opened : Disk}
    {log : Log}
    {writer : Writer}
    {frames : Nat → List Whole}
    {rest : Nat → Bytes}
    (parted : Parted disk frames rest)
    (opens : Opens settings disk log writer opened) :
    Parted opened frames (cutRest disk rest) := by
  refine ⟨fun segment => ?_, fun segment whole after => ?_⟩
  · rw [opens.bytes_eq, (parted.reading segment).2.1, cutRest, active]
    cases last : (discover disk).getLast? with
    | some newest =>
        simp only [Option.some_inj, Option.getD_some, eq_comm (a := newest)]
        split
        · rw [List.append_nil]
        · exact parted.bytes_eq segment
    | none =>
        have nothing := segment_first last
        rw [if_neg (by simp), Option.getD_none]
        split
        · rename_i first
          subst first
          have parts := parted.bytes_eq 0
          rw [nothing, List.nil_eq_append_iff] at parts
          rw [nothing, parts.1, List.append_nil]
        · exact parted.bytes_eq segment
  · unfold cutRest
    split
    · intro impossible
      have lengths := congrArg List.length impossible
      have pos := whole.length_bytes_pos
      rw [List.length_append, List.length_nil] at lengths
      omega
    · exact parted.rest_ne segment whole after

theorem discover_activated
    {disk : Disk}
    (canonical : IsCanonical disk) :
    discover (activated disk).1 = (discover disk).dropLast ++ [active disk] := by
  rw [(opens_openedLog canonical.wellFormed canonical.hasFiles .standard).discover_eq, active]
  by_cases empty : discover disk = []
  · simp [empty]
  · rw [if_neg empty, List.getLast?_eq_some_getLast empty, Option.getD_some,
      List.dropLast_append_getLast empty]

/-- Opening leaves a directory of which the same holds. -/
theorem IsCanonical.opened
    {disk : Disk}
    (canonical : IsCanonical disk) :
    IsCanonical (activated disk).1 := by
  have opens := opens_openedLog canonical.wellFormed canonical.hasFiles .standard
  have listing := listing_activated canonical.wellFormed canonical.hasFiles
  have isPlace : (activated disk).1.place ≠ .file := by
    rw [opens.ready.isDirectory]
    decide
  by_cases empty : discover disk = []
  · have first : active disk = 0 := by
      rw [active, empty]
      rfl
    have stands : ofName? (name 0) = some 0 := Segment.ofName?_name (by decide)
    rw [if_pos empty, first] at listing
    refine ⟨opens.ready.wellFormed, isPlace, ?_, ?_⟩
    · rw [listing, List.nodup_append]
      refine ⟨canonical.nodup, List.nodup_singleton _, ?_⟩
      intro file listed new isNew same
      rw [List.mem_singleton] at isNew
      have found : 0 ∈ discover disk :=
        Segment.mem_discover_iff.mpr ⟨file, listed, same ▸ isNew ▸ stands⟩
      rw [empty] at found
      cases found
    · intro file listed segment stood
      rw [listing, List.mem_append, List.mem_singleton] at listed
      rcases listed with old | rfl
      · exact canonical.name_eq file old segment stood
      · rw [stands, Option.some_inj] at stood
        rw [stood]
  · rw [if_neg empty, List.append_nil] at listing
    refine ⟨opens.ready.wellFormed, isPlace, ?_, ?_⟩
    · rw [listing]
      exact canonical.nodup
    · rw [listing]
      exact canonical.name_eq

/-- The sealed segments keep their rests, and the active one has none. -/
theorem damagedIn_cutRest
    {disk : Disk}
    (canonical : IsCanonical disk)
    (rest : Nat → Bytes) :
    damagedIn ((discover disk).dropLast ++ [active disk]) (cutRest disk rest) =
      damagedIn (discover disk).dropLast rest := by
  have sealedBelow : ∀ segment ∈ (discover disk).dropLast, segment ≠ active disk := by
    intro segment inFront
    have ordered := canonical.pairwise_discover
    cases last : (discover disk).getLast? with
    | none => simp [List.getLast?_eq_none_iff.mp last] at inFront
    | some newest =>
        obtain ⟨front, parts⟩ := List.getLast?_eq_some_iff.mp last
        rw [parts, List.pairwise_append] at ordered
        rw [parts, List.dropLast_concat] at inFront
        rw [active, last, Option.getD_some]
        exact Nat.ne_of_lt (ordered.2.2 segment inFront newest List.mem_cons_self)
  unfold damagedIn
  rw [List.countP_append, List.countP_singleton, cutRest, if_pos rfl]
  simp only [ne_eq, not_true_eq_false, decide_false, Bool.false_eq_true, if_false, Nat.add_zero]
  apply List.countP_congr
  intro segment inFront
  rw [cutRest, if_neg (sealedBelow segment inFront)]

/-- The first segment of a directory without segments has no frames. -/
theorem Parted.frames_first
    {disk : Disk}
    {frames : Nat → List Whole}
    {rest : Nat → Bytes}
    (parted : Parted disk frames rest)
    (empty : discover disk = []) :
    frames 0 = [] := by
  have parts := parted.bytes_eq 0
  rw [segment_first (List.getLast?_eq_none_iff.mpr empty), List.nil_eq_append_iff,
    Segment.bytesOf_eq_nil_iff] at parts
  exact parts.1

/-- Opening again rebuilds the index. -/
theorem rebuild_activated
    {disk : Disk}
    (canonical : IsCanonical disk) :
    rebuild (activated disk).1 (discover (activated disk).1) [] =
      rebuild disk (discover disk) [] := by
  obtain ⟨frames, rest, parted⟩ := exists_parted disk
  have opens := opens_openedLog canonical.wellFormed canonical.hasFiles .standard
  rw [(parted.opened opens).rebuild_eq, parted.rebuild_eq, opens.discover_eq]
  split
  · rename_i empty
    rw [empty, List.foldl_cons, parted.frames_first empty]
    rfl
  · rfl

theorem Parted.entriesOf_opened
    {settings : Settings}
    {disk opened : Disk}
    {log : Log}
    {writer : Writer}
    {frames : Nat → List Whole}
    {rest : Nat → Bytes}
    (parted : Parted disk frames rest)
    (opens : Opens settings disk log writer opened) :
    entriesOf opened frames = entriesOf disk frames := by
  rw [entriesOf, entriesOf, opens.discover_eq]
  split
  · rename_i empty
    rw [empty, List.flatMap_singleton, parted.frames_first empty]
    rfl
  · rfl

/-- Opening keeps the entries that it recovers. -/
theorem Opens.recovered_eq
    {settings : Settings}
    {disk opened : Disk}
    {log : Log}
    {writer : Writer}
    (opens : Opens settings disk log writer opened) :
    recovered opened = recovered disk := by
  obtain ⟨frames, rest, parted⟩ := exists_parted disk
  rw [(parted.opened opens).recovered_eq, parted.recovered_eq, parted.entriesOf_opened opens]

/-- What a first opening leaves is not changed by a second one. -/
theorem activated_activated
    {disk : Disk}
    (canonical : IsCanonical disk) :
    (activated (activated disk).1).1 = (activated disk).1 := by
  obtain ⟨frames, rest, parted⟩ := exists_parted disk
  have opens := opens_openedLog canonical.wellFormed canonical.hasFiles .standard
  have last : (discover (activated disk).1).getLast? = some (active disk) := by
    rw [discover_activated canonical, List.getLast?_concat]
  have undamaged : isDamaged (activated disk).1 (active disk) = false := by
    have damage := ((parted.opened opens).reading (active disk)).2.2
    rw [cutRest, if_pos rfl] at damage
    simpa using damage
  exact activated_eq_self opens.ready.wellFormed opens.ready.isDirectory
    canonical.opened.hasFiles last undamaged

/-! ## The result -/

theorem recalls_openedLog
    {disk : Disk}
    (canonical : IsCanonical disk)
    {frames : Nat → List Whole}
    {rest : Nat → Bytes}
    (parted : Parted disk frames rest)
    (settings : Settings) :
    Recalls (openedLog settings disk) (activated disk).1 (entriesOf disk frames) := by
  have opens := opens_openedLog canonical.wellFormed canonical.hasFiles settings
  have serves := opens.serves
  rw [parted.recovered_eq] at serves
  refine ⟨?_, serves.agree.keys_eq, serves.shows⟩
  rw [opens.writer_eq]
  exact Option.some_ne_none _

/-- Opening recovers from any bytes in the files of segments.  The log serves the
last value of every key in the whole frames that the segments start with.  Only
what follows the frames of the newest segment is cut off, and closing and opening
again changes no file, rebuilds the same index and counts the sealed segments
that are more than whole frames. -/
theorem restores_of_canonical
    {disk : Disk}
    (canonical : IsCanonical disk) :
    ∃ frames rest, Parted disk frames rest ∧
      (∀ segment, rest segment = [] ↔ ∃ whole, disk.segment segment = bytesOf whole) ∧
      (discover disk).Pairwise (· < ·) ∧
      (∀ key value, (key, value) ∈ KeyMap.ofEntries (entriesOf disk frames) ↔
        KeyMap.lastValue? (entriesOf disk frames) key = some value) ∧
      ∀ settings, ∃ log opened, openIn settings disk = .ok (log, opened) ∧
        Restores disk frames opened ∧
        Recalls log opened (entriesOf disk frames) ∧
        log.truncatedTails = damagedIn (discover disk) rest ∧
        (log.close opened).2 = opened ∧
        ∀ again, ∃ reopened, openIn again (log.close opened).2 = .ok (reopened, opened) ∧
          reopened.index = log.index ∧
          Recalls reopened opened (entriesOf disk frames) ∧
          reopened.truncatedTails = damagedIn (discover disk).dropLast rest := by
  obtain ⟨frames, rest, parted⟩ := exists_parted disk
  refine ⟨frames, rest, parted, parted.rest_eq_nil_iff, canonical.pairwise_discover,
    KeyMap.mem_ofEntries_iff _, fun settings => ?_⟩
  have opens := opens_openedLog canonical.wellFormed canonical.hasFiles settings
  have closed : ((openedLog settings disk).close (activated disk).1).2 = (activated disk).1 := by
    rw [close_eq opens.writer_eq]
    rfl
  refine ⟨_, _, openIn_eq canonical.wellFormed canonical.isPlace canonical.hasFiles settings,
    restores_activated canonical parted, recalls_openedLog canonical parted settings,
    parted.damagedCount_eq _, closed, fun again => ?_⟩
  have reparted := parted.opened opens
  have reopened := openIn_eq canonical.opened.wellFormed canonical.opened.isPlace
    canonical.opened.hasFiles again
  have recalls := recalls_openedLog canonical.opened reparted again
  rw [activated_activated canonical] at reopened recalls
  rw [parted.entriesOf_opened opens] at recalls
  rw [closed]
  refine ⟨_, reopened, rebuild_activated canonical, recalls, ?_⟩
  change damagedCount _ _ = _
  rw [reparted.damagedCount_eq, discover_activated canonical, damagedIn_cutRest canonical]

/-- A directory with a damaged sealed segment and a damaged newest one. -/
theorem restores_of_canonical_damaged :
    IsCanonical ⟨.directory, [(name 1, 0), (name 0, 1)], #[[1, 2], [3]]⟩ ∧
      ∀ settings, ∃ log opened,
        openIn settings ⟨.directory, [(name 1, 0), (name 0, 1)], #[[1, 2], [3]]⟩ =
          .ok (log, opened) ∧
        (log.close opened).2 = opened ∧
        ∀ again, ∃ reopened, openIn again (log.close opened).2 = .ok (reopened, opened) ∧
          reopened.index = log.index := by
  have canonical : IsCanonical ⟨.directory, [(name 1, 0), (name 0, 1)], #[[1, 2], [3]]⟩ := by
    refine ⟨⟨by simp, by simp⟩, by simp, ?_, ?_⟩
    · have different : name 1 ≠ name 0 := fun same => by
        cases Segment.name_injective same
      simp [Disk.listing, different]
    · have zero : ofName? (name 0) = some 0 := Segment.ofName?_name (by decide)
      have one : ofName? (name 1) = some 1 := Segment.ofName?_name (by decide)
      simp [Disk.listing, zero, one]
  refine ⟨canonical, fun settings => ?_⟩
  obtain ⟨frames, rest, _, _, _, _, openings⟩ := restores_of_canonical canonical
  obtain ⟨log, opened, accepted, _, _, _, closed, reopenings⟩ := openings settings
  refine ⟨log, opened, accepted, closed, fun again => ?_⟩
  obtain ⟨reopened, reaccepted, index_eq, _⟩ := reopenings again
  exact ⟨reopened, reaccepted, index_eq⟩

end Log
end EventRelay
