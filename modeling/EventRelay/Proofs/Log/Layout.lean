import EventRelay.Proofs.Log.Opening

/-!
# Where the frames of a log lie

The segments of a log are numbered from zero without gaps, and each of them is
made of whole frames.  The index of the log is what entering all these frames in
order gives.  An accepted batch adds one frame to the last segment, or a new
segment with this one frame.  Closing moves every frame to its file, and opening
finds the same frames, so it rebuilds the same index.
-/

namespace EventRelay
namespace Log

open EventRelay.Frame (Whole)
open Segment (Position ReadFrame Reader Writer bytesOf placed discover name)

/-- An accepted batch: its entries, and the segment and the offset where its
frame ends. -/
structure Record where
  segment : Nat
  stop : Nat
  entries : List Entry
deriving DecidableEq, Repr

/-- The frames of segments with consecutive numbers. -/
abbrev Layout := List (List Whole)

namespace Layout

/-- The bytes of a segment; there are none past the last one. -/
def bytesAt (layout : Layout) (segment : Nat) : Bytes :=
  bytesOf (layout[segment]?.getD [])

/-- The entries of all frames, in order. -/
def entries (layout : Layout) : List Entry :=
  layout.flatMap fun frames => frames.flatMap Whole.entries

/-- Enter the frames of segments into an index; the first segment has the given
number. -/
def enter : (first : Nat) → Layout → Index → Index
  | _, [], index => index
  | first, frames :: rest, index =>
      enter (first + 1) rest (Index.addFrames index first (placed 0 frames))

/-- The batch of a frame that was read. -/
def recordOf (segment : Nat) (frame : ReadFrame) : Record :=
  ⟨segment, frame.stop, frame.entries⟩

/-- The batches of segments, the first of which has the given number. -/
def records : (first : Nat) → Layout → List Record
  | _, [] => []
  | first, frames :: rest =>
      (placed 0 frames).map (recordOf first) ++ records (first + 1) rest

/-! ## Several parts -/

theorem bytesAt_of_length_le
    {layout : Layout}
    {segment : Nat}
    (beyond : layout.length ≤ segment) :
    layout.bytesAt segment = [] := by
  rw [bytesAt, List.getElem?_eq_none beyond]
  rfl

theorem bytesAt_append_left
    {front : Layout}
    {segment : Nat}
    (inFront : segment < front.length)
    (back : Layout) :
    bytesAt (front ++ back) segment = front.bytesAt segment := by
  rw [bytesAt, bytesAt, List.getElem?_append_left inFront]

theorem bytesAt_concat_self (front : Layout) (last : List Whole) :
    bytesAt (front ++ [last]) front.length = bytesOf last := by
  rw [bytesAt, List.getElem?_concat_length]
  rfl

/-- All segments but the last are those before it. -/
theorem bytesAt_concat_of_ne
    {front : Layout}
    {segment : Nat}
    (different : segment ≠ front.length)
    (last : List Whole) :
    bytesAt (front ++ [last]) segment = front.bytesAt segment := by
  by_cases inFront : segment < front.length
  · exact bytesAt_append_left inFront [last]
  · rw [bytesAt_of_length_le (Nat.le_of_not_lt inFront), bytesAt_of_length_le]
    rw [List.length_append, List.length_singleton]
    omega

theorem enter_append (first : Nat) (front back : Layout) (index : Index) :
    enter first (front ++ back) index =
      enter (first + front.length) back (enter first front index) := by
  induction front generalizing first index with
  | nil => rfl
  | cons frames front inductionHypothesis =>
      rw [List.cons_append, enter, inductionHypothesis, enter, List.length_cons, Nat.add_assoc,
        Nat.add_comm 1]

theorem records_append (first : Nat) (front back : Layout) :
    records first (front ++ back) =
      records first front ++ records (first + front.length) back := by
  induction front generalizing first with
  | nil => rfl
  | cons frames front inductionHypothesis =>
      rw [List.cons_append, records, inductionHypothesis, records, List.length_cons,
        Nat.add_assoc, Nat.add_comm 1, List.append_assoc]

/-- The batches hold the entries of the frames. -/
theorem flatMap_entries_records (first : Nat) (layout : Layout) :
    (records first layout).flatMap Record.entries = layout.entries := by
  induction layout generalizing first with
  | nil => rfl
  | cons frames rest inductionHypothesis =>
      rw [records, List.flatMap_append, inductionHypothesis, List.flatMap_map, entries, entries,
        List.flatMap_cons]
      exact congrArg (· ++ _) (Segment.flatMap_entries_placed 0 frames)

/-! ## One more frame -/

/-- Where the last segment ends, a frame is placed. -/
theorem placed_concat (frames : List Whole) (whole : Whole) :
    placed 0 (frames ++ [whole]) =
      placed 0 frames ++
        [⟨(bytesOf frames).length, (bytesOf (frames ++ [whole])).length, whole.entries⟩] := by
  rw [Segment.placed_append, placed, placed, Nat.zero_add, Segment.bytesOf_append,
    Segment.bytesOf_cons, Segment.bytesOf_nil, List.append_nil, List.length_append]

theorem enter_concat (front : Layout) (last : List Whole) (index : Index) :
    enter 0 (front ++ [last]) index =
      Index.addFrames (enter 0 front index) front.length (placed 0 last) := by
  rw [enter_append, Nat.zero_add]
  rfl

theorem records_concat (front : Layout) (last : List Whole) :
    records 0 (front ++ [last]) =
      records 0 front ++ (placed 0 last).map (recordOf front.length) := by
  rw [records_append, Nat.zero_add, records, records, List.append_nil]

/-- A frame added to the last segment is entered last. -/
theorem enter_extend (front : Layout) (last : List Whole) (whole : Whole) (index : Index) :
    enter 0 (front ++ [last ++ [whole]]) index =
      Index.add (enter 0 (front ++ [last]) index) ⟨front.length, (bytesOf last).length⟩
        whole.entries := by
  rw [enter_concat, enter_concat, placed_concat, Index.addFrames, List.foldl_append]
  rfl

theorem records_extend (front : Layout) (last : List Whole) (whole : Whole) :
    records 0 (front ++ [last ++ [whole]]) =
      records 0 (front ++ [last]) ++
        [⟨front.length, (bytesOf (last ++ [whole])).length, whole.entries⟩] := by
  rw [records_concat, records_concat, placed_concat, List.map_append, List.append_assoc]
  rfl

/-- An empty segment adds nothing. -/
theorem enter_concat_nil (front : Layout) (index : Index) :
    enter 0 (front ++ [[]]) index = enter 0 front index := by
  rw [enter_concat]
  rfl

theorem records_concat_nil (front : Layout) :
    records 0 (front ++ [[]]) = records 0 front := by
  rw [records_concat, placed, List.map_nil, List.append_nil]

/-- The index has the keys of the map of all entries. -/
theorem matches_enter
    {index : Index}
    {contents : KeyMap Bytes}
    (agree : KeyMap.Matches (fun _ _ _ => True) index contents)
    (first : Nat)
    (layout : Layout) :
    KeyMap.Matches (fun _ _ _ => True) (enter first layout index)
      (contents.enter layout.entries) := by
  induction layout generalizing first index contents with
  | nil => exact agree
  | cons frames rest inductionHypothesis =>
      have framed := @matches_addFrames _ _ _ agree first (placed 0 frames)
        fun _ _ _ _ _ => trivial
      have later := inductionHypothesis framed (first + 1)
      rw [Segment.flatMap_entries_placed] at later
      rwa [entries, List.flatMap_cons, KeyMap.enter, List.foldl_append]

end Layout

/-! ## Layouts on a disk -/

/-- The written bytes of all segments are those of a layout. -/
structure Laid (layout : Layout) (disk : Disk) (bytes : Nat → Bytes) : Prop where
  discover_eq : discover disk = List.range layout.length
  hasFiles : HasFiles disk (List.range layout.length)
  bytes_eq : ∀ segment, bytes segment = layout.bytesAt segment

/-- Only the names and the written bytes matter. -/
theorem Laid.congr
    {layout : Layout}
    {disk grown : Disk}
    {bytes more : Nat → Bytes}
    (laid : Laid layout disk bytes)
    (names_eq : grown.names = disk.names)
    (same : ∀ segment, more segment = bytes segment) :
    Laid layout grown more where
  discover_eq := (Segment.discover_eq_of_names_eq names_eq).trans laid.discover_eq
  hasFiles := by
    intro segment present
    rw [Disk.number?_eq_of_names_eq names_eq]
    exact laid.hasFiles segment present
  bytes_eq := fun segment => (same segment).trans (laid.bytes_eq segment)

/-- Sending on what is buffered leaves the layout alone. -/
theorem Laid.settle
    {layout : Layout}
    {writer after : Writer}
    {disk grown : Disk}
    (laid : Laid layout disk (writer.written disk))
    (settles : Writer.Settles writer disk after grown) :
    Laid layout grown (after.written grown) := by
  refine laid.congr settles.adds.names_eq fun segment => ?_
  rw [settles.adds.written_eq, ite_self, List.append_nil]

/-- After closing, the layout is that of the files. -/
theorem Laid.close
    {layout : Layout}
    {writer : Writer}
    {disk : Disk}
    (laid : Laid layout disk (writer.written disk))
    (hasFile : writer.HasFile disk) :
    Laid layout (writer.sync disk).2 (writer.sync disk).2.segment :=
  laid.congr (Writer.adds_sync hasFile).names_eq (segment_close hasFile)

/-- A frame added to the active segment is added to the layout. -/
theorem laid_extend
    {front : Layout}
    {last : List Whole}
    {writer after : Writer}
    {disk grown : Disk}
    {position : Position}
    {whole : Whole}
    (stores : Writer.Stores writer disk whole.bytes position after grown)
    (segment_eq : after.segment = front.length)
    (discover_eq : discover grown = List.range (front.length + 1))
    (hasFiles : HasFiles disk (List.range front.length))
    (bytes_eq : ∀ segment,
      writer.written disk segment = Layout.bytesAt (front ++ [last]) segment) :
    Laid (front ++ [last ++ [whole]]) grown (after.written grown) := by
  have length_eq : (front ++ [last ++ [whole]]).length = front.length + 1 := by
    rw [List.length_append, List.length_singleton]
  refine ⟨by rw [discover_eq, length_eq], ?_, fun segment => ?_⟩
  · rw [length_eq]
    intro segment present
    rw [List.range_succ, List.mem_append, List.mem_singleton] at present
    rcases present with old | rfl
    · obtain ⟨file, found⟩ := Option.isSome_iff_exists.mp (hasFiles segment old)
      rw [stores.number?_kept _ _ found]
      rfl
    · rw [← segment_eq, stores.ready.number_eq]
      rfl
  · rw [stores.written_eq, bytes_eq, stores.segment_eq, segment_eq]
    by_cases same : segment = front.length
    · subst same
      rw [if_pos rfl, Layout.bytesAt_concat_self, Layout.bytesAt_concat_self,
        Segment.bytesOf_append, Segment.bytesOf_cons, Segment.bytesOf_nil, List.append_nil]
    · rw [if_neg same, List.append_nil, Layout.bytesAt_concat_of_ne same,
        Layout.bytesAt_concat_of_ne same]

/-- What an accepted batch adds to a layout. -/
structure Extends
    (layout : Layout) (position : Position) (after : Writer) (grown : Disk) (entries : List Entry)
    (front : Layout) (last : List Whole) : Prop where
  laid : Laid (front ++ [last]) grown (after.written grown)
  segment_eq : after.segment = front.length
  enter_eq : Layout.enter 0 (front ++ [last]) [] =
    Index.add (Layout.enter 0 layout []) position entries
  records_eq : Layout.records 0 (front ++ [last]) =
    Layout.records 0 layout ++ [⟨after.segment, after.size, entries⟩]

/-- A frame at the end of the last segment is entered and recorded last. -/
theorem extends_extend
    {front : Layout}
    {last : List Whole}
    {writer after : Writer}
    {disk grown : Disk}
    {position : Position}
    {whole : Whole}
    (stores : Writer.Stores writer disk whole.bytes position after grown)
    (segment_eq : after.segment = front.length)
    (bytes_eq : ∀ segment,
      writer.written disk segment = Layout.bytesAt (front ++ [last]) segment)
    (laid : Laid (front ++ [last ++ [whole]]) grown (after.written grown)) :
    Extends (front ++ [last]) position after grown whole.entries front (last ++ [whole]) := by
  have offset : position.offset = (bytesOf last).length := by
    rw [stores.offset_eq, bytes_eq, stores.segment_eq, segment_eq, Layout.bytesAt_concat_self]
  have position_eq : position = ⟨front.length, (bytesOf last).length⟩ := by
    rw [← offset, ← segment_eq, ← stores.segment_eq]
  have size : after.size = (bytesOf (last ++ [whole])).length := by
    rw [stores.size_eq, offset, Segment.bytesOf_append, Segment.bytesOf_cons, Segment.bytesOf_nil,
      List.append_nil, List.length_append]
  refine ⟨laid, segment_eq, ?_, ?_⟩
  · rw [Layout.enter_extend, position_eq]
  · rw [Layout.records_extend, segment_eq, size]

/-- An accepted batch adds its frame to the last segment or to a new one. -/
theorem Laid.exists_extends
    {front : Layout}
    {last : List Whole}
    {writer after : Writer}
    {disk grown : Disk}
    {position : Position}
    {whole : Whole}
    (laid : Laid (front ++ [last]) disk (writer.written disk))
    (active : writer.segment = front.length)
    (stores : Writer.Stores writer disk whole.bytes position after grown) :
    ∃ newFront newLast,
      Extends (front ++ [last]) position after grown whole.entries newFront newLast := by
  have discovered := laid.discover_eq
  have files := laid.hasFiles
  rw [List.length_append, List.length_singleton] at discovered files
  rcases stores.follows with ⟨same, discover_eq⟩ | ⟨next, discover_eq⟩
  · rw [discovered] at discover_eq
    have older : HasFiles disk (List.range front.length) := by
      intro segment present
      rw [List.mem_range] at present
      exact files segment (List.mem_range.mpr (Nat.lt_succ_of_lt present))
    have segment_eq := same.trans active
    exact ⟨front, last ++ [whole], extends_extend stores segment_eq laid.bytes_eq
      (laid_extend stores segment_eq discover_eq older laid.bytes_eq)⟩
  · have segment_eq : after.segment = (front ++ [last]).length := by
      rw [next, active, List.length_append, List.length_singleton]
    have bytes_eq : ∀ segment, writer.written disk segment =
        Layout.bytesAt ((front ++ [last]) ++ [[]]) segment := by
      intro segment
      rw [laid.bytes_eq]
      by_cases isNext : segment = (front ++ [last]).length
      · rw [isNext, Layout.bytesAt_concat_self, Layout.bytesAt_of_length_le (Nat.le_refl _)]
        rfl
      · rw [Layout.bytesAt_concat_of_ne isNext]
    rw [discovered, active, ← List.range_succ] at discover_eq
    have all : discover grown = List.range ((front ++ [last]).length + 1) := by
      rw [discover_eq, List.length_append, List.length_singleton]
    have extended := extends_extend stores segment_eq bytes_eq
      (laid_extend stores segment_eq all laid.hasFiles bytes_eq)
    refine ⟨front ++ [last], [] ++ [whole], extended.laid, segment_eq, ?_, ?_⟩
    · rw [extended.enter_eq, Layout.enter_concat_nil]
    · rw [extended.records_eq, Layout.records_concat_nil]

/-! ## Opening a layout -/

/-- The files hold a layout, but the last of them goes on with something that is
not a whole frame. -/
structure Torn (front : Layout) (last : List Whole) (rest : Bytes) (disk : Disk) : Prop where
  discover_eq : discover disk = List.range (front.length + 1)
  hasFiles : HasFiles disk (List.range (front.length + 1))
  bytes_eq : ∀ segment, disk.segment segment =
    Layout.bytesAt (front ++ [last]) segment ++ if segment = front.length then rest else []
  stuck : Segment.Stuck rest

theorem stuck_nil : Segment.Stuck [] :=
  ⟨_, rfl⟩

/-- A layout of files is one whose last file goes on with nothing. -/
theorem Laid.torn
    {front : Layout}
    {last : List Whole}
    {disk : Disk}
    (laid : Laid (front ++ [last]) disk disk.segment) :
    Torn front last [] disk := by
  have discovered := laid.discover_eq
  have files := laid.hasFiles
  rw [List.length_append, List.length_singleton] at discovered files
  refine ⟨discovered, files, fun segment => ?_, stuck_nil⟩
  rw [laid.bytes_eq, ite_self, List.append_nil]

/-- What is read from the segments of a layout. -/
theorem Torn.reading
    {front : Layout}
    {last : List Whole}
    {rest : Bytes}
    {disk : Disk}
    (torn : Torn front last rest disk)
    (segment : Nat) :
    (reading disk segment).1 = placed 0 ((front ++ [last])[segment]?.getD []) ∧
      validBytes disk segment = Layout.bytesAt (front ++ [last]) segment ∧
      (isDamaged disk segment = true ↔ segment = front.length ∧ rest ≠ []) := by
  have bytes := torn.bytes_eq segment
  by_cases isLast : segment = front.length
  · rw [if_pos isLast] at bytes
    have read := reading_spec bytes torn.stuck
    exact ⟨read.1, read.2.1, read.2.2.trans (by simp [isLast])⟩
  · rw [if_neg isLast] at bytes
    have read := reading_spec bytes stuck_nil
    exact ⟨read.1, read.2.1, read.2.2.trans (by simp [isLast])⟩

/-- The index of consecutive segments is what entering their frames gives. -/
theorem rebuild_range'
    {disk : Disk}
    {layout : Layout}
    {first : Nat}
    (read : ∀ place frames, layout[place]? = some frames →
      (Log.reading disk (first + place)).1 = placed 0 frames)
    (index : Index) :
    rebuild disk (List.range' first layout.length) index = layout.enter first index := by
  induction layout generalizing first index with
  | nil => rfl
  | cons frames rest inductionHypothesis =>
      have here : (Log.reading disk first).1 = placed 0 frames := read 0 frames rfl
      have later := @inductionHypothesis (first + 1) fun place others present => by
        rw [Nat.add_assoc, Nat.add_comm 1]
        exact read (place + 1) others present
      rw [List.length_cons, List.range'_succ, rebuild, List.foldl_cons, here, Layout.enter]
      exact later _

theorem Torn.rebuild_eq
    {front : Layout}
    {last : List Whole}
    {rest : Bytes}
    {disk : Disk}
    (torn : Torn front last rest disk) :
    rebuild disk (discover disk) [] = Layout.enter 0 (front ++ [last]) [] := by
  have length_eq : (front ++ [last]).length = front.length + 1 := by
    rw [List.length_append, List.length_singleton]
  rw [torn.discover_eq, List.range_eq_range', ← length_eq]
  refine rebuild_range' (fun place frames present => ?_) []
  have read := (torn.reading place).1
  rwa [present, ← Nat.zero_add place] at read

/-- The recovered entries are those of the layout. -/
theorem Torn.recovered_eq
    {front : Layout}
    {last : List Whole}
    {rest : Bytes}
    {disk : Disk}
    (torn : Torn front last rest disk) :
    recovered disk = Layout.entries (front ++ [last]) := by
  have read : ∀ segment, (Log.reading disk segment).1.flatMap ReadFrame.entries =
      ((front ++ [last])[segment]?.getD []).flatMap Whole.entries := by
    intro segment
    rw [(torn.reading segment).1, Segment.flatMap_entries_placed]
  have all : (List.range (front ++ [last]).length).map
      (fun segment => (front ++ [last])[segment]?.getD []) = front ++ [last] := by
    apply List.ext_getElem
    · simp
    · intro place _ inLayout
      rw [List.getElem_map, List.getElem_range, List.getElem?_eq_getElem inLayout, Option.getD_some]
  rw [recovered, torn.discover_eq, List.flatMap_congr fun segment _ => read segment,
    ← List.flatMap_map, Layout.entries]
  rw [List.length_append, List.length_singleton] at all
  rw [all]

/-- Only the last segment is damaged, and only if its file goes on. -/
theorem Torn.damagedCount_eq
    {front : Layout}
    {last : List Whole}
    {rest : Bytes}
    {disk : Disk}
    (torn : Torn front last rest disk) :
    damagedCount disk (discover disk) = if rest = [] then 0 else 1 := by
  have older : (List.range front.length).countP (isDamaged disk) = 0 := by
    rw [List.countP_eq_zero]
    intro segment present isDamaged
    have isLast := ((torn.reading segment).2.2.mp isDamaged).1
    rw [List.mem_range] at present
    omega
  have latest := (torn.reading front.length).2.2
  rw [torn.discover_eq, damagedCount, List.range_succ, List.countP_append, older, Nat.zero_add,
    List.countP_singleton]
  by_cases whole : rest = []
  · rw [if_pos whole, if_neg]
    exact fun isDamaged => (latest.mp isDamaged).2 whole
  · rw [if_neg whole, if_pos]
    exact latest.mpr ⟨rfl, whole⟩

/-- Opening a layout leaves its whole frames. -/
theorem Torn.laid_of_opens
    {front : Layout}
    {last : List Whole}
    {rest : Bytes}
    {settings : Settings}
    {disk opened : Disk}
    {log : Log}
    {writer : Writer}
    (torn : Torn front last rest disk)
    (opens : Opens settings disk log writer opened) :
    writer.segment = front.length ∧
      Laid (front ++ [last]) opened (writer.written opened) := by
  have length_eq : (front ++ [last]).length = front.length + 1 := by
    rw [List.length_append, List.length_singleton]
  have latest : (discover disk).getLast? = some front.length := by
    rw [torn.discover_eq, List.range_succ, List.getLast?_concat]
  have found : discover disk ≠ [] := by
    intro empty
    rw [empty] at latest
    cases latest
  refine ⟨by rw [opens.segment_eq, latest, Option.getD_some], ?_, ?_, fun segment => ?_⟩
  · rw [opens.discover_eq, if_neg found, torn.discover_eq, length_eq]
  · rw [length_eq]
    intro segment present
    obtain ⟨file, old⟩ := Option.isSome_iff_exists.mp (torn.hasFiles segment present)
    rw [opens.number?_kept _ _ old]
    rfl
  · rw [Writer.written_of_buffer_eq_nil opens.buffer_eq, opens.bytes_eq, latest]
    by_cases isLast : segment = front.length
    · rw [if_pos (congrArg some isLast.symm), (torn.reading segment).2.1]
    · rw [if_neg (by simpa using Ne.symm isLast), torn.bytes_eq, if_neg isLast, List.append_nil]

/-- Opening an empty directory leaves one empty segment. -/
theorem laid_of_opens_empty
    {settings : Settings}
    {disk opened : Disk}
    {log : Log}
    {writer : Writer}
    (empty : disk.names = [])
    (opens : Opens settings disk log writer opened) :
    writer.segment = 0 ∧ log.index = [] ∧ log.truncatedTails = 0 ∧
      Laid [[]] opened (writer.written opened) := by
  have none : discover disk = [] := by
    rw [discover, Disk.listing, empty]
    simp
  have nothing : ∀ segment, disk.segment segment = [] := by
    intro segment
    rw [Disk.segment, Disk.number?, empty]
    rfl
  have active : writer.segment = 0 := by
    rw [opens.segment_eq, none]
    rfl
  have found : discover opened = [0] := by
    rw [opens.discover_eq, if_pos none]
  refine ⟨active, ?_, ?_, found, ?_, fun segment => ?_⟩
  · rw [opens.index_eq, none]
    rfl
  · rw [opens.truncatedTails_eq, none]
    rfl
  · intro segment present
    obtain rfl : segment = writer.segment := by
      rw [active]
      simpa using present
    rw [opens.ready.number_eq]
    rfl
  · rw [Writer.written_of_buffer_eq_nil opens.buffer_eq, opens.bytes_eq, none,
      if_neg (by simp), nothing]
    cases segment <;> rfl

end Log
end EventRelay
