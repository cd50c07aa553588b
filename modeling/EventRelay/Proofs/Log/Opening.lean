import EventRelay.Proofs.Log.Storage
import EventRelay.Proofs.Segment.Reader

/-!
# What opening a log recovers

Opening reads the frames of every segment up to the first that is damaged.  The
index is rebuilt from these frames in the order of the segments, and leads to
the values of the map of their entries.  The file of the latest segment is cut
to its valid frames; no other byte changes.
-/

namespace EventRelay
namespace Log

open EventRelay.Frame (Whole)
open Segment (Position ReadFrame Reader Writer discover name)

/-! ## Reading a segment -/

/-- What is read from the file of a segment. -/
def reading (disk : Disk) (segment : Nat) : List ReadFrame × Reader :=
  (Reader.ofBytes (disk.segment segment)).readAll

/-- Whether a segment is damaged. -/
def isDamaged (disk : Disk) (segment : Nat) : Bool :=
  (reading disk segment).2.corruption.isSome

/-- The bytes of the valid frames of a segment. -/
def validBytes (disk : Disk) (segment : Nat) : Bytes :=
  (disk.segment segment).take (reading disk segment).2.offset

/-- The entries in the valid frames of all segments, in order. -/
def recovered (disk : Disk) : List Entry :=
  (discover disk).flatMap fun segment => (reading disk segment).1.flatMap ReadFrame.entries

/-- What is read from whole frames before a rest that starts with none. -/
theorem reading_spec
    {disk : Disk}
    {segment : Nat}
    {frames : List Whole}
    {rest : Bytes}
    (bytes_eq : disk.segment segment = Segment.bytesOf frames ++ rest)
    (stuck : Segment.Stuck rest) :
    (reading disk segment).1 = Segment.placed 0 frames ∧
      validBytes disk segment = Segment.bytesOf frames ∧
      (isDamaged disk segment = true ↔ rest ≠ []) := by
  obtain ⟨read, offset, damage⟩ := Reader.readAll_spec frames stuck
  rw [validBytes, isDamaged, reading, bytes_eq]
  refine ⟨read, ?_, damage⟩
  rw [offset, List.take_left]

/-- The frames that are read stand in the valid bytes. -/
theorem readAt_validBytes
    {disk : Disk}
    {segment : Nat}
    {frame : ReadFrame}
    (present : frame ∈ (reading disk segment).1)
    (rest : Bytes) :
    Frame.readAt (validBytes disk segment ++ rest) frame.offset = .ok frame.entries := by
  obtain ⟨frames, torn, bytes_eq, stuck⟩ := Reader.exists_frames (disk.segment segment)
  obtain ⟨read, valid, _⟩ := reading_spec bytes_eq stuck
  rw [read, ← List.length_nil] at present
  rw [valid]
  exact Segment.readAt_of_mem_placed present

theorem validBytes_isPrefix (disk : Disk) (segment : Nat) :
    validBytes disk segment <+: disk.segment segment :=
  List.take_prefix _ _

/-- All bytes of a segment that is not damaged are valid. -/
theorem validBytes_eq_segment
    {disk : Disk}
    {segment : Nat}
    (undamaged : isDamaged disk segment = false) :
    validBytes disk segment = disk.segment segment := by
  obtain ⟨frames, rest, bytes_eq, stuck⟩ := Reader.exists_frames (disk.segment segment)
  obtain ⟨_, valid, damage⟩ := reading_spec bytes_eq stuck
  rw [undamaged] at damage
  have empty : rest = [] := by simpa using damage
  rw [valid, bytes_eq, empty, List.append_nil]

/-! ## Cutting damage off -/

/-- Cut the file of a segment to its valid frames. -/
def repair (disk : Disk) (segment : Nat) : Disk :=
  match disk.number? (name segment) with
  | none => disk
  | some file =>
      if isDamaged disk segment then disk.resize file (reading disk segment).2.offset else disk

/-- What cutting the file of a segment leaves. -/
structure Repairs (disk : Disk) (latest : Option Nat) (cut : Disk) : Prop where
  wellFormed : cut.WellFormed
  place_eq : cut.place = disk.place
  names_eq : cut.names = disk.names
  segment_eq : ∀ segment, cut.segment segment =
    if latest = some segment then validBytes disk segment else disk.segment segment

theorem repairs_none
    {disk : Disk}
    (wellFormed : disk.WellFormed) :
    Repairs disk none disk where
  wellFormed := wellFormed
  place_eq := rfl
  names_eq := rfl
  segment_eq := fun _ => (if_neg (by simp)).symm

/-- Cutting a segment leaves its valid bytes, and the other segments alone. -/
theorem repairs_repair
    {disk : Disk}
    (wellFormed : disk.WellFormed)
    {latest file : Nat}
    (found : disk.number? (name latest) = some file) :
    Repairs disk (some latest) (repair disk latest) := by
  rw [repair, found]
  dsimp only
  split
  · refine ⟨wellFormed.change _ _, rfl, rfl, fun segment => ?_⟩
    rw [Disk.resize, Disk.segment_change wellFormed found]
    by_cases same : segment = latest
    · subst same
      have bound := (validBytes_isPrefix disk segment).length_le
      obtain ⟨frames, rest, bytes_eq, stuck⟩ := Reader.exists_frames (disk.segment segment)
      have offset := (Reader.readAll_spec frames stuck).2.1
      rw [← bytes_eq] at offset
      have enough : (reading disk segment).2.offset - (disk.segment segment).length = 0 := by
        rw [reading, offset, bytes_eq, List.length_append]
        omega
      rw [if_pos rfl, if_pos rfl, enough, List.replicate_zero, List.append_nil, validBytes]
    · rw [if_neg same, if_neg (by simpa using Ne.symm same)]
  · rename_i undamaged
    refine ⟨wellFormed, rfl, rfl, fun segment => ?_⟩
    split
    · rename_i same
      rw [Option.some_inj] at same
      subst same
      exact (validBytes_eq_segment (Bool.eq_false_iff.mpr undamaged)).symm
    · rfl

/-! ## All segments -/

/-- The index of the valid frames of segments. -/
def rebuild (disk : Disk) (segments : List Nat) (index : Index) : Index :=
  segments.foldl
    (fun index segment => Index.addFrames index segment (reading disk segment).1) index

/-- The number of damaged segments. -/
def damagedCount (disk : Disk) (segments : List Nat) : Nat :=
  segments.countP (isDamaged disk)

/-- Whether the file of every segment is there. -/
def HasFiles (disk : Disk) (segments : List Nat) : Prop :=
  ∀ segment ∈ segments, (disk.number? (name segment)).isSome = true

theorem addSegment_eq
    {disk : Disk}
    {segment file : Nat}
    (found : disk.number? (name segment) = some file)
    (recovery : Recovery)
    (isLast : Bool) :
    recovery.addSegment segment isLast disk =
      .ok (⟨Index.addFrames recovery.index segment (reading disk segment).1,
          recovery.truncatedTails + damagedCount disk [segment]⟩,
        if isLast = true then repair disk segment else disk) := by
  have bytes := Disk.segment_eq_content found
  rw [Recovery.addSegment, repair, found, damagedCount, List.countP_singleton, isDamaged, reading,
    bytes]
  dsimp only
  cases (Reader.ofBytes (disk.content file)).readAll.2.corruption.isSome <;> cases isLast <;> rfl

theorem addSegment_eq_error
    {disk : Disk}
    {segment : Nat}
    (missing : disk.number? (name segment) = none)
    (recovery : Recovery)
    (isLast : Bool) :
    recovery.addSegment segment isLast disk = .error (.disk .notFound) := by
  rw [Recovery.addSegment, missing]

/-- The segments are read in order, and the latest one is cut at last. -/
theorem addSegments_eq
    {disk : Disk}
    {segments : List Nat}
    (present : HasFiles disk segments)
    (recovery : Recovery) :
    recovery.addSegments segments disk =
      .ok (⟨rebuild disk segments recovery.index,
          recovery.truncatedTails + damagedCount disk segments⟩,
        (segments.getLast?.map (repair disk)).getD disk) := by
  induction segments generalizing recovery with
  | nil => rfl
  | cons segment rest inductionHypothesis =>
      obtain ⟨file, found⟩ := Option.isSome_iff_exists.mp (present segment List.mem_cons_self)
      rw [Recovery.addSegments, addSegment_eq found]
      dsimp only
      cases rest with
      | nil => rfl
      | cons second others =>
          have later := inductionHypothesis
            (fun other inRest => present other (List.mem_cons_of_mem _ inRest))
          rw [List.isEmpty_cons, if_neg Bool.false_ne_true, later, Nat.add_assoc,
            List.getLast?_cons_cons, damagedCount, damagedCount, ← List.countP_append]
          rfl

/-- Segments are recovered only if their files are there. -/
theorem hasFiles_of_addSegments_eq_ok
    {disk cut : Disk}
    {segments : List Nat}
    {recovery result : Recovery}
    (accepted : recovery.addSegments segments disk = .ok (result, cut)) :
    HasFiles disk segments := by
  induction segments generalizing recovery with
  | nil => simp [HasFiles]
  | cons segment rest inductionHypothesis =>
      rw [Recovery.addSegments] at accepted
      cases found : disk.number? (name segment) with
      | none =>
          rw [addSegment_eq_error found] at accepted
          cases accepted
      | some file =>
          rw [addSegment_eq found] at accepted
          have first : (disk.number? (name segment)).isSome = true := by rw [found]; rfl
          cases rest with
          | nil => simpa [HasFiles] using first
          | cons second others =>
              refine List.forall_mem_cons.mpr ⟨first, ?_⟩
              exact inductionHypothesis accepted

/-! ## Opening the writer -/

/-- A writer at the end of the file of a segment. -/
def writerAt
    (settings : Segment.WriterSettings) (segment file : Nat) (disk : Disk) : Writer where
  settings := settings
  file := file
  buffer := []
  segment := segment
  size := disk.size file
  flushedSize := disk.size file
  unflushed := 0
  unsynced := 0

theorem openAt_eq
    {disk : Disk}
    (isDirectory : disk.place = .directory)
    (settings : Segment.WriterSettings)
    (segment : Nat) :
    Writer.openAt settings segment disk =
      .ok (writerAt settings segment (disk.openOrCreate (name segment)).2
        (disk.openOrCreate (name segment)).1, (disk.openOrCreate (name segment)).1) := by
  rw [Writer.openAt, Disk.makeDirectory, isDirectory]
  rfl

/-- A writer of the latest segment knows its sizes. -/
theorem ready_writerAt
    {disk : Disk}
    {segment file : Nat}
    (wellFormed : disk.WellFormed)
    (isDirectory : disk.place = .directory)
    (found : disk.number? (name segment) = some file)
    (greatest : ∀ other ∈ discover disk, other ≤ segment)
    (settings : Segment.WriterSettings) :
    (writerAt settings segment file disk).Ready disk := by
  have bytes : disk.segment segment = disk.content file := Disk.segment_eq_content found
  refine ⟨⟨wellFormed, isDirectory, found, greatest⟩, ?_, ?_⟩
  · rw [Writer.written_of_buffer_eq_nil rfl]
    exact congrArg List.length bytes.symm
  · exact Nat.le_of_eq (congrArg List.length bytes.symm)

/-! ## Opening the log -/

/-- What opening the log of a directory leaves. -/
structure Opens
    (settings : Settings) (disk : Disk) (log : Log) (writer : Writer) (opened : Disk) :
    Prop where
  settings_eq : log.settings = settings
  writer_eq : log.writer = some writer
  ready : writer.Ready opened
  buffer_eq : writer.buffer = []
  /-- The latest segment is active, or the first one of an empty directory. -/
  segment_eq : writer.segment = (discover disk).getLast?.getD 0
  index_eq : log.index = rebuild disk (discover disk) []
  truncatedTails_eq : log.truncatedTails = damagedCount disk (discover disk)
  discover_eq : discover opened = if discover disk = [] then [0] else discover disk
  number?_kept : ∀ other file, disk.number? other = some file → opened.number? other = some file
  /-- The latest segment is cut to its valid bytes. -/
  bytes_eq : ∀ segment, opened.segment segment =
    if (discover disk).getLast? = some segment then validBytes disk segment
    else disk.segment segment

/-- The latest segment is found last. -/
theorem le_of_getLast?_discover
    {disk : Disk}
    {latest : Nat}
    (last : (discover disk).getLast? = some latest) :
    ∀ other ∈ discover disk, other ≤ latest := by
  obtain ⟨front, parts⟩ := List.getLast?_eq_some_iff.mp last
  have sorted := Segment.pairwise_discover disk
  rw [parts, List.pairwise_append] at sorted
  rw [parts]
  intro other present
  rcases List.mem_append.mp present with inFront | inLast
  · exact sorted.2.2 other inFront latest List.mem_cons_self
  · exact Nat.le_of_eq (List.mem_singleton.mp inLast)

/-- The directory is there after it was made. -/
def made (disk : Disk) : Disk :=
  { disk with place := .directory }

theorem makeDirectory_eq
    {disk : Disk}
    (isPlace : disk.place ≠ .file) :
    disk.makeDirectory = .ok (made disk) := by
  obtain ⟨place, names, contents⟩ := disk
  cases place with
  | vacant => rfl
  | directory => rfl
  | file => exact absurd rfl isPlace

/-- A directory without segments has no first one. -/
theorem number?_first
    {disk : Disk}
    (last : (discover disk).getLast? = none) :
    disk.number? (name 0) = none := by
  apply Disk.number?_name_eq_none (by decide)
  simp [List.getLast?_eq_none_iff.mp last]

theorem segment_first
    {disk : Disk}
    (last : (discover disk).getLast? = none) :
    disk.segment 0 = [] := by
  rw [Disk.segment, number?_first last]
  rfl

/-- The segments of an empty directory are only the first one, once it is made. -/
theorem discover_openOrCreate
    {disk : Disk}
    (present : HasFiles disk (discover disk)) :
    discover (disk.openOrCreate (name ((discover disk).getLast?.getD 0))).1 =
      if discover disk = [] then [0] else discover disk := by
  cases last : (discover disk).getLast? with
  | some latest =>
      have member := List.mem_of_getLast? last
      obtain ⟨file, found⟩ := Option.isSome_iff_exists.mp (present latest member)
      rw [Option.getD_some, Disk.openOrCreate_of_number?_eq_some found,
        if_neg (List.ne_nil_of_mem member)]
  | none =>
      have empty : discover disk = [] := List.getLast?_eq_none_iff.mp last
      rw [Option.getD_none, Disk.openOrCreate_of_number?_eq_none (number?_first last), if_pos empty]
      have grown := Segment.discover_concat (by decide) (Disk.listing_create disk (name 0))
        (by simp [empty])
      rwa [empty] at grown

/-- The directory with its latest segment cut to its valid frames. -/
def repaired (disk : Disk) : Disk :=
  ((discover disk).getLast?.map (repair (made disk))).getD (made disk)

theorem repairs_repaired
    {disk : Disk}
    (wellFormed : disk.WellFormed)
    (present : HasFiles disk (discover disk)) :
    Repairs (made disk) (discover disk).getLast? (repaired disk) := by
  have madeWellFormed : (made disk).WellFormed :=
    ⟨wellFormed.numbers_nodup, wellFormed.number_lt⟩
  rw [repaired]
  cases last : (discover disk).getLast? with
  | none => exact repairs_none madeWellFormed
  | some latest =>
      obtain ⟨file, found⟩ :=
        Option.isSome_iff_exists.mp (present latest (List.mem_of_getLast? last))
      exact repairs_repair madeWellFormed found

/-- The directory with the file of the active segment, and that file. -/
def activated (disk : Disk) : Disk × Nat :=
  (repaired disk).openOrCreate (name ((discover disk).getLast?.getD 0))

/-- The writer of a log that is opened. -/
def openedWriter (settings : Settings) (disk : Disk) : Writer :=
  writerAt settings.writer ((discover disk).getLast?.getD 0) (activated disk).2
    (activated disk).1

/-- A log that is opened. -/
def openedLog (settings : Settings) (disk : Disk) : Log where
  settings := settings
  writer := some (openedWriter settings disk)
  index := rebuild disk (discover disk) []
  framesWritten := 0
  bytesWritten := 0
  truncatedTails := damagedCount disk (discover disk)

/-- A directory is opened if the files of its segments are there. -/
theorem openIn_eq
    {disk : Disk}
    (wellFormed : disk.WellFormed)
    (isPlace : disk.place ≠ .file)
    (present : HasFiles disk (discover disk))
    (settings : Settings) :
    openIn settings disk = .ok (openedLog settings disk, (activated disk).1) := by
  have recovery : Recovery.initial.addSegments (discover (made disk)) (made disk) =
      .ok (⟨rebuild disk (discover disk) [], 0 + damagedCount disk (discover disk)⟩,
        repaired disk) :=
    @addSegments_eq (made disk) _ present Recovery.initial
  have isDirectory : (repaired disk).place = .directory :=
    (repairs_repaired wellFormed present).place_eq
  rw [openIn, makeDirectory_eq isPlace]
  dsimp only
  rw [recovery]
  dsimp only
  rw [openAt_eq isDirectory, Nat.zero_add]
  rfl

/-- What opening a directory leaves. -/
theorem opens_openedLog
    {disk : Disk}
    (wellFormed : disk.WellFormed)
    (present : HasFiles disk (discover disk))
    (settings : Settings) :
    Opens settings disk (openedLog settings disk) (openedWriter settings disk)
      (activated disk).1 := by
  have repairs := repairs_repaired wellFormed present
  have sameNumber := Disk.number?_eq_of_names_eq repairs.names_eq
  have sameSegments : discover (repaired disk) = discover disk :=
    Segment.discover_eq_of_names_eq repairs.names_eq
  have provides : Disk.Provides (repaired disk) _ (activated disk).1 (activated disk).2 :=
    Disk.provides_openOrCreate repairs.wellFormed _
  have discovered : discover (activated disk).1 =
      if discover disk = [] then [0] else discover disk := by
    have repairedPresent : HasFiles (repaired disk) (discover (repaired disk)) := by
      rw [sameSegments]
      intro segment member
      rw [sameNumber]
      exact present segment member
    have result := discover_openOrCreate repairedPresent
    rwa [sameSegments] at result
  have greatest : ∀ other ∈ discover (activated disk).1,
      other ≤ (discover disk).getLast?.getD 0 := by
    rw [discovered]
    cases last : (discover disk).getLast? with
    | none => simp [List.getLast?_eq_none_iff.mp last]
    | some latest =>
        rw [if_neg (List.ne_nil_of_mem (List.mem_of_getLast? last))]
        exact le_of_getLast?_discover last
  refine ⟨rfl, rfl, ?_, rfl, rfl, rfl, rfl, discovered, ?_, ?_⟩
  · exact ready_writerAt provides.wellFormed (provides.place_eq.trans repairs.place_eq)
      provides.number?_eq greatest settings.writer
  · intro other file found
    exact provides.number?_kept other file ((sameNumber other).trans found)
  · intro segment
    rw [provides.segment_eq, repairs.segment_eq]
    rfl

/-- A directory is opened only if the files of its segments are there. -/
theorem hasFiles_of_openIn_eq_ok
    {settings : Settings}
    {disk opened : Disk}
    {log : Log}
    (accepted : openIn settings disk = .ok (log, opened)) :
    disk.place ≠ .file ∧ HasFiles disk (discover disk) := by
  have isPlace : disk.place ≠ .file := by
    intro isFile
    rw [openIn, Disk.makeDirectory, isFile] at accepted
    cases accepted
  refine ⟨isPlace, ?_⟩
  rw [openIn, makeDirectory_eq isPlace] at accepted
  dsimp only at accepted
  cases recovery : Recovery.initial.addSegments (discover (made disk)) (made disk) with
  | error error =>
      rw [recovery] at accepted
      cases accepted
  | ok result =>
      have found : HasFiles (made disk) (discover (made disk)) :=
        hasFiles_of_addSegments_eq_ok recovery
      exact found

/-- What opening a directory leaves, if it is opened. -/
theorem exists_opens_of_openIn_eq_ok
    {settings : Settings}
    {disk opened : Disk}
    {log : Log}
    (wellFormed : disk.WellFormed)
    (accepted : openIn settings disk = .ok (log, opened)) :
    ∃ writer, Opens settings disk log writer opened := by
  obtain ⟨isPlace, present⟩ := hasFiles_of_openIn_eq_ok accepted
  rw [openIn_eq wellFormed isPlace present, Except.ok.injEq, Prod.mk.injEq] at accepted
  obtain ⟨rfl, rfl⟩ := accepted
  exact ⟨_, opens_openedLog wellFormed present settings⟩

/-- The files of the segments of an opened log are there. -/
theorem Opens.hasFiles
    {settings : Settings}
    {disk opened : Disk}
    {log : Log}
    {writer : Writer}
    (opens : Opens settings disk log writer opened)
    (present : HasFiles disk (discover disk)) :
    HasFiles opened (discover opened) := by
  rw [opens.discover_eq]
  split
  · rename_i empty
    intro segment isFirst
    have active := opens.segment_eq
    rw [empty] at active
    rw [List.mem_singleton.mp isFirst, ← show writer.segment = 0 from active,
      opens.ready.number_eq]
    rfl
  · intro segment found
    obtain ⟨file, old⟩ := Option.isSome_iff_exists.mp (present segment found)
    rw [opens.number?_kept _ _ old]
    rfl

theorem wellFormed_vacant : Disk.vacant.WellFormed where
  numbers_nodup := List.nodup_nil
  number_lt := by simp [Disk.vacant]

theorem openIn_vacant (settings : Settings) :
    openIn settings Disk.vacant =
      .ok (openedLog settings Disk.vacant, (activated Disk.vacant).1) := by
  have noSegments : discover Disk.vacant = [] := by
    simp [discover, Disk.listing, Disk.vacant]
  refine openIn_eq wellFormed_vacant (by decide) ?_ settings
  simp [HasFiles, noSegments]

/-! ## What an opened log serves -/

/-- The frames of a segment are where the index of an opened log says. -/
theorem Opens.holds
    {settings : Settings}
    {disk opened : Disk}
    {log : Log}
    {writer : Writer}
    (opens : Opens settings disk log writer opened)
    {segment : Nat}
    {frame : ReadFrame}
    (present : frame ∈ (reading disk segment).1) :
    Holds writer opened ⟨segment, frame.offset⟩ frame.entries := by
  have read : Frame.readAt (opened.segment segment) frame.offset = .ok frame.entries := by
    obtain ⟨rest, bytes_eq⟩ := validBytes_isPrefix disk segment
    rw [opens.bytes_eq]
    split
    · have valid := readAt_validBytes present []
      rwa [List.append_nil] at valid
    · rw [← bytes_eq]
      exact readAt_validBytes present rest
  refine ⟨?_, fun _ _ => read⟩
  rw [Writer.written_of_buffer_eq_nil opens.buffer_eq]
  exact read

/-- Entering frames that were read keeps an index and a map related. -/
theorem matches_addFrames
    {related : Key → Location → Bytes → Prop}
    {index : Index}
    {contents : KeyMap Bytes}
    (agree : KeyMap.Matches related index contents)
    {segment : Nat}
    {frames : List ReadFrame}
    (stored : ∀ frame ∈ frames, ∀ place entry, frame.entries[place]? = some entry →
      related entry.key ⟨⟨segment, frame.offset⟩, place⟩ entry.value) :
    KeyMap.Matches related (Index.addFrames index segment frames)
      (contents.enter (frames.flatMap ReadFrame.entries)) := by
  induction frames generalizing index contents with
  | nil => exact agree
  | cons frame rest inductionHypothesis =>
      obtain ⟨first, others⟩ := List.forall_mem_cons.mp stored
      have later := inductionHypothesis (matches_add agree first) others
      rwa [List.flatMap_cons, KeyMap.enter, List.foldl_append]

/-- An opened log serves the map of the entries in the valid frames. -/
theorem Opens.serves
    {settings : Settings}
    {disk opened : Disk}
    {log : Log}
    {writer : Writer}
    (opens : Opens settings disk log writer opened) :
    Serves log writer opened (KeyMap.ofEntries (recovered disk)) := by
  have matched : ∀ (segments : List Nat) (index : Index) (contents : KeyMap Bytes),
      KeyMap.Matches (Leads writer opened) index contents →
        KeyMap.Matches (Leads writer opened) (rebuild disk segments index)
          (contents.enter (segments.flatMap fun segment =>
            (reading disk segment).1.flatMap ReadFrame.entries)) := by
    intro segments
    induction segments with
    | nil => exact fun _ _ agree => agree
    | cons segment rest inductionHypothesis =>
        intro index contents agree
        have entered := @matches_addFrames _ _ _ agree segment (reading disk segment).1
          fun frame present place entry stored => ⟨_, opens.holds present, stored⟩
        have later := inductionHypothesis _ _ entered
        rwa [List.flatMap_cons, KeyMap.enter, List.foldl_append]
  refine ⟨opens.writer_eq, opens.ready, ?_, KeyMap.ascending_ofEntries _⟩
  rw [opens.index_eq]
  exact matched (discover disk) [] [] List.Forall₂.nil

end Log
end EventRelay
