import EventRelay.Proofs.Log.Opening

/-!
# Positions stay right

A writer says of every frame where it starts.  Whatever else it is asked to do,
the frame stays there: the frames of a segment follow each other without a gap
from where the segment ended when it was opened, a frame never straddles what was
sent to the file, and a segment that is left has everything in its file.
-/

namespace EventRelay
namespace Segment

/-! ## Requests -/

/-- What a writer is asked to do. -/
inductive Request where
  /-- Write a frame. -/
  | write (frame : Bytes)
  /-- Send the buffer on. -/
  | flush
  /-- Send the buffer on and make it durable. -/
  | sync
  /-- Make the frame at a position readable. -/
  | ensureReadable (position : Position)

/-- The frame that is to be written. -/
def Request.frame? : Request → Option Bytes
  | .write frame => some frame
  | _ => none

/-- A frame, and where the writer said that it starts. -/
structure Placement where
  position : Position
  frame : Bytes
deriving DecidableEq

/-- Where the frame ends. -/
def Placement.stop (placement : Placement) : Nat :=
  placement.position.offset + placement.frame.length

/-- A writer at work on a directory, and the frames that it has placed. -/
structure Session where
  writer : Writer
  disk : Disk
  placements : List Placement

namespace Session

/-- Do what is asked. -/
def serve (session : Session) : Request → Session
  | .write frame =>
      let (position, writer, disk) := session.writer.write session.disk frame
      ⟨writer, disk, session.placements ++ [⟨position, frame⟩]⟩
  | .flush =>
      let (writer, disk) := session.writer.flush session.disk
      { session with writer := writer, disk := disk }
  | .sync =>
      let (writer, disk) := session.writer.sync session.disk
      { session with writer := writer, disk := disk }
  | .ensureReadable position =>
      let (writer, disk) := session.writer.ensureReadable session.disk position
      { session with writer := writer, disk := disk }

def run (session : Session) (requests : List Request) : Session :=
  requests.foldl serve session

/-- The bytes written to a segment. -/
def written (session : Session) (segment : Nat) : Bytes :=
  session.writer.written session.disk segment

end Session

/-! ## Tilings -/

/-- The placements in a segment, in order. -/
def within (segment : Nat) (placements : List Placement) : List Placement :=
  placements.filter fun placement => decide (placement.position.segment = segment)

/-- The frames in a segment, one after the other. -/
def framesWithin (segment : Nat) (placements : List Placement) : Bytes :=
  (within segment placements).flatMap Placement.frame

/-- Frames follow each other from one offset to another, without gap or overlap. -/
def Tiles : (start : Nat) → List Placement → (stop : Nat) → Prop
  | start, [], stop => start = stop
  | start, placement :: rest, stop =>
      placement.position.offset = start ∧ Tiles placement.stop rest stop

theorem within_concat (segment : Nat) (placements : List Placement) (placement : Placement) :
    within segment (placements ++ [placement]) =
      within segment placements ++
        if placement.position.segment = segment then [placement] else [] := by
  rw [within, List.filter_append, List.filter_singleton, ← within]
  by_cases here : placement.position.segment = segment <;> simp [here]

theorem framesWithin_concat
    (segment : Nat) (placements : List Placement) (placement : Placement) :
    framesWithin segment (placements ++ [placement]) =
      framesWithin segment placements ++
        if placement.position.segment = segment then placement.frame else [] := by
  rw [framesWithin, within_concat, List.flatMap_append, ← framesWithin]
  split <;> simp

theorem mem_within_iff
    {segment : Nat}
    {placements : List Placement}
    {placement : Placement} :
    placement ∈ within segment placements ↔
      placement ∈ placements ∧ placement.position.segment = segment := by
  rw [within, List.mem_filter, decide_eq_true_iff]

/-- A tiling goes on with a frame where it stops. -/
theorem Tiles.concat
    {start stop : Nat}
    {placements : List Placement}
    (tiles : Tiles start placements stop)
    {placement : Placement}
    (starts : placement.position.offset = stop) :
    Tiles start (placements ++ [placement]) placement.stop := by
  induction placements generalizing start with
  | nil =>
      obtain rfl : start = stop := tiles
      exact ⟨starts, rfl⟩
  | cons first rest inductionHypothesis =>
      exact ⟨tiles.1, inductionHypothesis tiles.2⟩

/-- The frames of a tiling fill it. -/
theorem Tiles.length_eq
    {start stop : Nat}
    {placements : List Placement}
    (tiles : Tiles start placements stop) :
    stop = start + (placements.flatMap Placement.frame).length := by
  induction placements generalizing start with
  | nil => exact tiles.symm
  | cons first rest inductionHypothesis =>
      obtain ⟨starts, tilesRest⟩ := tiles
      rw [inductionHypothesis tilesRest, List.flatMap_cons, List.length_append, Placement.stop,
        starts, Nat.add_assoc]

/-- The frames of a tiling stand within it. -/
theorem Tiles.stop_le
    {start stop : Nat}
    {placements : List Placement}
    (tiles : Tiles start placements stop)
    {placement : Placement}
    (present : placement ∈ placements) :
    placement.stop ≤ stop := by
  induction placements generalizing start with
  | nil => cases present
  | cons first rest inductionHypothesis =>
      rcases List.mem_cons.mp present with rfl | later
      · have length := tiles.2.length_eq
        omega
      · exact inductionHypothesis tiles.2 later

/-- In the bytes that frames tile, each frame stands at its position. -/
theorem Tiles.isPrefix_drop
    {before : Bytes}
    {stop : Nat}
    {placements : List Placement}
    (tiles : Tiles before.length placements stop)
    {placement : Placement}
    (present : placement ∈ placements) :
    placement.frame <+:
      (before ++ placements.flatMap Placement.frame).drop placement.position.offset := by
  induction placements generalizing before with
  | nil => cases present
  | cons first rest inductionHypothesis =>
      obtain ⟨starts, tilesRest⟩ := tiles
      rw [List.flatMap_cons]
      rcases List.mem_cons.mp present with rfl | later
      · rw [starts, List.drop_left]
        exact List.prefix_append _ _
      · rw [← List.append_assoc]
        rw [Placement.stop, starts, ← List.length_append] at tilesRest
        exact inductionHypothesis tilesRest later

/-- A frame that ends within the front of some bytes stands in the front. -/
theorem isPrefix_drop_of_stop_le
    {front bytes frame : Bytes}
    {offset : Nat}
    (isFront : front <+: bytes)
    (enough : offset + frame.length ≤ front.length)
    (stands : frame <+: bytes.drop offset) :
    frame <+: front.drop offset := by
  obtain ⟨back, rfl⟩ := isFront
  rw [List.drop_append_of_le_length (by omega)] at stands
  refine List.prefix_of_prefix_length_le stands (List.prefix_append _ _) ?_
  rw [List.length_drop]
  omega

/-! ## The invariant -/

/-- A position comes before another one. -/
def Position.Precedes (left right : Position) : Prop :=
  left.segment < right.segment ∨ left.segment = right.segment ∧ left.offset < right.offset

namespace Session

/-- What holds of a writer that was opened on a directory. -/
structure Invariant (settings : WriterSettings) (start : Disk) (session : Session) : Prop where
  ready : session.writer.Ready session.disk
  settings_eq : session.writer.settings = settings
  notEmpty : ∀ placement ∈ session.placements, placement.frame ≠ []
  segment_le : ∀ placement ∈ session.placements,
    placement.position.segment ≤ session.writer.segment
  /-- To each segment the frames in it were added. -/
  written_eq : ∀ segment, session.written segment =
    start.segment segment ++ framesWithin segment session.placements
  tiles : ∀ segment, Tiles (start.segment segment).length (within segment session.placements)
    (session.written segment).length
  ascending : session.placements.Pairwise fun left right => left.position.Precedes right.position
  /-- A frame of the active segment was sent on as a whole or not at all. -/
  sent : ∀ placement ∈ session.placements,
    placement.position.segment = session.writer.segment →
      placement.stop ≤ session.writer.flushedSize ∨
        session.writer.flushedSize ≤ placement.position.offset

variable {settings : WriterSettings} {start : Disk} {session : Session}
variable {frame : Bytes} {position : Position} {after : Writer} {grown : Disk}

/-- A frame ends within what is written to its segment. -/
theorem Invariant.stop_le
    (invariant : session.Invariant settings start)
    {placement : Placement}
    (present : placement ∈ session.placements) :
    placement.stop ≤ (session.written placement.position.segment).length :=
  (invariant.tiles _).stop_le (mem_within_iff.mpr ⟨present, rfl⟩)

/-- Each position leads to its frame. -/
theorem Invariant.designates
    (invariant : session.Invariant settings start)
    {placement : Placement}
    (present : placement ∈ session.placements) :
    placement.frame <+:
      (session.written placement.position.segment).drop placement.position.offset := by
  rw [invariant.written_eq]
  exact (invariant.tiles _).isPrefix_drop (mem_within_iff.mpr ⟨present, rfl⟩)

/-- Sending on what is written changes nothing of this. -/
theorem Invariant.settle
    (invariant : session.Invariant settings start)
    (settles : session.writer.Settles session.disk after grown) :
    Invariant settings start { session with writer := after, disk := grown } := by
  have same : ∀ segment, after.written grown segment = session.written segment := by
    intro segment
    rw [settles.adds.written_eq, ite_self, List.append_nil]
    rfl
  have active := settles.adds.segment_eq
  refine ⟨settles.ready, settles.adds.settings_eq.trans invariant.settings_eq, invariant.notEmpty,
    ?_, fun segment => (same segment).trans (invariant.written_eq segment), ?_,
    invariant.ascending, ?_⟩
  · intro placement present
    rw [active]
    exact invariant.segment_le placement present
  · intro segment
    change Tiles _ _ (after.written grown segment).length
    rw [same]
    exact invariant.tiles segment
  · intro placement present isActive
    rw [active] at isActive
    have stop := invariant.stop_le present
    rw [isActive] at stop
    rcases settles.flushedSize_eq with everything | nothing
    · rw [everything, invariant.ready.size_eq]
      exact Or.inl stop
    · rw [nothing]
      exact invariant.sent placement present isActive

/-- A frame that is written comes after all others. -/
theorem Invariant.precedes
    (invariant : session.Invariant settings start)
    (stores : session.writer.Stores session.disk frame position after grown)
    {placement : Placement}
    (present : placement ∈ session.placements) :
    placement.position.Precedes position := by
  have follows : position.segment = session.writer.segment ∨
      position.segment = session.writer.segment + 1 := by
    rw [stores.segment_eq]
    exact stores.follows.imp And.left And.left
  have bound := invariant.segment_le placement present
  rcases Nat.lt_or_ge placement.position.segment position.segment with lower | upper
  · exact Or.inl lower
  · have same : placement.position.segment = position.segment := by omega
    have filled := List.length_pos_iff.mpr (invariant.notEmpty placement present)
    have stop := invariant.stop_le present
    have offset : position.offset = (session.written position.segment).length := stores.offset_eq
    rw [same, ← offset, Placement.stop] at stop
    exact Or.inr ⟨same, by omega⟩

/-- What is known to be sent on after a frame is written ends between two frames. -/
theorem Invariant.sent_store
    (invariant : session.Invariant settings start)
    (stores : session.writer.Stores session.disk frame position after grown)
    {placement : Placement}
    (present : placement ∈ session.placements ++ [⟨position, frame⟩])
    (isActive : placement.position.segment = after.segment) :
    placement.stop ≤ after.flushedSize ∨ after.flushedSize ≤ placement.position.offset := by
  have offset : position.offset = (session.written position.segment).length := stores.offset_eq
  rcases List.mem_append.mp present with old | new
  · have stop := invariant.stop_le old
    have bound := invariant.segment_le placement old
    rw [isActive, ← stores.segment_eq, ← offset] at stop
    rcases stores.flushedSize_eq with everything | ⟨next, _⟩ | ⟨same, nothing⟩
    · rw [everything, stores.size_eq]
      exact Or.inl (Nat.le_add_right_of_le stop)
    · omega
    · rw [nothing]
      exact invariant.sent placement old (isActive.trans same)
  · rw [List.mem_singleton.mp new]
    rcases stores.flushedSize_eq with everything | ⟨_, nothing⟩ | ⟨same, nothing⟩
    · rw [everything, stores.size_eq]
      exact Or.inl (Nat.le_refl _)
    · rw [nothing]
      exact Or.inr (Nat.zero_le _)
    · rw [nothing, offset, stores.segment_eq, same, written, Writer.written_self,
        List.length_append]
      exact Or.inr (Nat.le_add_right_of_le invariant.ready.flushedSize_le)

/-- A frame that is written goes on with the tiling of its segment. -/
theorem Invariant.store
    (invariant : session.Invariant settings start)
    (filled : frame ≠ [])
    (stores : session.writer.Stores session.disk frame position after grown) :
    Invariant settings start ⟨after, grown, session.placements ++ [⟨position, frame⟩]⟩ := by
  have grows : ∀ segment, after.written grown segment =
      session.written segment ++ if position.segment = segment then frame else [] := by
    intro segment
    simp only [stores.written_eq, eq_comm, written]
  have offset : position.offset = (session.written position.segment).length := stores.offset_eq
  constructor
  case ready => exact stores.ready
  case settings_eq => exact stores.settings_eq.trans invariant.settings_eq
  case notEmpty => simpa [or_imp, forall_and] using ⟨invariant.notEmpty, filled⟩
  case segment_le =>
    intro placement present
    change placement.position.segment ≤ after.segment
    rcases List.mem_append.mp present with old | new
    · have bound := invariant.segment_le placement old
      have follows := stores.follows.imp And.left And.left
      omega
    · rw [List.mem_singleton.mp new]
      exact Nat.le_of_eq stores.segment_eq
  case written_eq =>
    intro segment
    change after.written grown segment = _
    rw [grows, invariant.written_eq, framesWithin_concat, List.append_assoc]
  case tiles =>
    intro segment
    change Tiles _ _ (after.written grown segment).length
    rw [within_concat, grows]
    by_cases here : position.segment = segment
    · subst here
      rw [if_pos rfl, if_pos rfl, List.length_append, ← offset]
      exact (invariant.tiles position.segment).concat offset
    · rw [if_neg here, if_neg here, List.append_nil, List.append_nil]
      exact invariant.tiles segment
  case ascending =>
    refine List.pairwise_append.mpr ⟨invariant.ascending, List.pairwise_singleton _ _, ?_⟩
    intro placement old new isNew
    rw [List.mem_singleton.mp isNew]
    exact invariant.precedes stores old
  case sent =>
    intro placement present isActive
    exact invariant.sent_store stores present isActive

/-! ## Runs -/

/-- A frame that was placed stays placed. -/
theorem placements_isPrefix_run (session : Session) (requests : List Request) :
    session.placements <+: (session.run requests).placements := by
  induction requests generalizing session with
  | nil => exact List.prefix_refl _
  | cons request rest inductionHypothesis =>
      refine List.IsPrefix.trans ?_ (inductionHypothesis (session.serve request))
      cases request with
      | write frame => exact List.prefix_append _ _
      | flush => exact List.prefix_refl _
      | sync => exact List.prefix_refl _
      | ensureReadable position => exact List.prefix_refl _

/-- The frames that are placed are those that were to be written. -/
theorem frames_run (session : Session) (requests : List Request) :
    (session.run requests).placements.map Placement.frame =
      session.placements.map Placement.frame ++ requests.filterMap Request.frame? := by
  induction requests generalizing session with
  | nil => exact (List.append_nil _).symm
  | cons request rest inductionHypothesis =>
      refine (inductionHypothesis (session.serve request)).trans ?_
      cases request with
      | write frame => simp [serve, Request.frame?]
      | flush => rfl
      | sync => rfl
      | ensureReadable position => rfl

/-- A request is never answered in an earlier segment. -/
theorem segment_le_serve (session : Session) (request : Request) :
    session.writer.segment ≤ (session.serve request).writer.segment := by
  cases request with
  | write frame => exact session.writer.segment_le_write session.disk frame
  | flush => exact Nat.le_refl _
  | sync => exact Nat.le_refl _
  | ensureReadable position =>
      change _ ≤ (session.writer.ensureReadable session.disk position).1.segment
      rw [Writer.ensureReadable]
      split <;> exact Nat.le_refl _

theorem segment_le_run (session : Session) (requests : List Request) :
    session.writer.segment ≤ (session.run requests).writer.segment := by
  induction requests generalizing session with
  | nil => exact Nat.le_refl _
  | cons request rest inductionHypothesis =>
      exact Nat.le_trans (session.segment_le_serve request) (inductionHypothesis _)

/-- What was asked for keeps what holds of the writer. -/
theorem Invariant.serve
    (invariant : session.Invariant settings start)
    (small : session.writer.segment + 1 < 0x10000000000000000)
    {request : Request}
    (filled : ∀ frame, request.frame? = some frame → frame ≠ []) :
    (session.serve request).Invariant settings start := by
  cases request with
  | write frame =>
      exact invariant.store (filled frame rfl) (Writer.stores_write invariant.ready small frame)
  | flush => exact invariant.settle (Writer.settles_flush invariant.ready)
  | sync => exact invariant.settle (Writer.settles_sync invariant.ready)
  | ensureReadable position =>
      exact invariant.settle (Writer.settles_ensureReadable invariant.ready position)

theorem Invariant.run
    (invariant : session.Invariant settings start)
    {requests : List Request}
    (filled : ∀ frame, Request.write frame ∈ requests → frame ≠ [])
    (small : (session.run requests).writer.segment + 1 < 0x10000000000000000) :
    (session.run requests).Invariant settings start := by
  induction requests generalizing session with
  | nil => exact invariant
  | cons request rest inductionHypothesis =>
      have later : (session.serve request).writer.segment ≤
          (session.run (request :: rest)).writer.segment :=
        segment_le_run _ _
      have now := session.segment_le_serve request
      refine inductionHypothesis (invariant.serve (by omega) ?_) ?_ small
      · intro frame written
        cases request <;> cases written
        exact filled frame List.mem_cons_self
      · intro frame present
        exact filled frame (List.mem_cons_of_mem _ present)

/-! ## What is in the files -/

/-- All that is written to a segment that is not active is in its file. -/
theorem Invariant.segment_eq
    (invariant : session.Invariant settings start)
    {segment : Nat}
    (isLeft : segment ≠ session.writer.segment) :
    session.disk.segment segment =
      start.segment segment ++ framesWithin segment session.placements := by
  rw [← invariant.written_eq, written, Writer.written_of_ne isLeft]

/-- A frame whose position is made readable is in its file: it was sent on before, or
it is now. -/
theorem Invariant.isPrefix_drop_ensureReadable
    (invariant : session.Invariant settings start)
    {placement : Placement}
    (present : placement ∈ session.placements) :
    placement.frame <+:
      ((session.serve (.ensureReadable placement.position)).disk.segment
        placement.position.segment).drop placement.position.offset := by
  have stands := invariant.designates present
  change _ <+: ((session.writer.ensureReadable session.disk placement.position).2.segment
    placement.position.segment).drop _
  rw [Writer.ensureReadable]
  by_cases isActive : placement.position.segment = session.writer.segment
  · by_cases waits : session.writer.flushedSize ≤ placement.position.offset
    · rw [if_pos ⟨isActive, waits⟩, Writer.segment_flush invariant.ready.toHasFile]
      exact stands
    · rw [if_neg fun both => waits both.2]
      dsimp only
      have sent := invariant.sent placement present isActive
      have inFile := invariant.ready.flushedSize_le
      rw [isActive] at stands ⊢
      rw [Placement.stop] at sent
      refine isPrefix_drop_of_stop_le ?_ (by omega) stands
      rw [written, Writer.written_self]
      exact List.prefix_append _ _
  · rw [if_neg fun both => isActive both.1]
    rw [written, Writer.written_of_ne isActive] at stands
    exact stands

/-! ## Opening -/

open Log (made)

/-- The segment whose file is opened is still the latest one. -/
theorem le_of_mem_discover_openOrCreate
    {disk : Disk}
    {segment : Nat}
    (small : segment < 0x10000000000000000)
    (greatest : ∀ other ∈ discover disk, other ≤ segment) :
    ∀ other ∈ discover (disk.openOrCreate (name segment)).1, other ≤ segment := by
  cases found : disk.number? (name segment) with
  | some file =>
      rw [Disk.openOrCreate_of_number?_eq_some found]
      exact greatest
  | none =>
      have grown := discover_concat small (Disk.listing_create disk (name segment)) greatest
      rw [Disk.openOrCreate_of_number?_eq_none found, grown]
      simpa [or_imp, forall_and] using greatest

/-- A writer is opened on the latest segment of a directory, or on a new one. -/
theorem exists_openAt
    {disk : Disk}
    (wellFormed : disk.WellFormed)
    (isPlace : disk.place ≠ .file)
    {segment : Nat}
    (small : segment < 0x10000000000000000)
    (greatest : ∀ other ∈ discover disk, other ≤ segment)
    (settings : WriterSettings) :
    ∃ writer opened, Writer.openAt settings segment disk = .ok (writer, opened) ∧
      writer.segment = segment ∧ Invariant settings disk ⟨writer, opened, []⟩ := by
  have madeWellFormed : (made disk).WellFormed :=
    ⟨wellFormed.numbers_nodup, wellFormed.number_lt⟩
  have provides := Disk.provides_openOrCreate madeWellFormed (name segment)
  have opens : Writer.openAt settings segment disk =
      .ok (Log.writerAt settings segment ((made disk).openOrCreate (name segment)).2
        ((made disk).openOrCreate (name segment)).1,
        ((made disk).openOrCreate (name segment)).1) := by
    rw [Writer.openAt, Log.makeDirectory_eq isPlace]
    rfl
  have latest : ∀ other ∈ discover ((made disk).openOrCreate (name segment)).1,
      other ≤ segment :=
    le_of_mem_discover_openOrCreate small greatest
  refine ⟨_, _, opens, rfl, ?_⟩
  have sameBytes : ∀ other, written ⟨Log.writerAt settings segment
      ((made disk).openOrCreate (name segment)).2 ((made disk).openOrCreate (name segment)).1,
      ((made disk).openOrCreate (name segment)).1, []⟩ other = disk.segment other := by
    intro other
    rw [written, Writer.written_of_buffer_eq_nil rfl, provides.segment_eq]
    rfl
  refine ⟨Log.ready_writerAt provides.wellFormed provides.place_eq provides.number?_eq latest
    settings, rfl, by simp, by simp, ?_, ?_, List.Pairwise.nil, by simp⟩
  · intro other
    exact (sameBytes other).trans (List.append_nil _).symm
  · intro other
    exact congrArg List.length (sameBytes other).symm

/-! ## The result -/

/-- What a writer that was opened on a directory has said of its frames is right. -/
structure IsRight (start : Disk) (session : Session) : Prop where
  /-- Each position leads to its frame. -/
  designates : ∀ placement ∈ session.placements, placement.frame <+:
    (session.written placement.position.segment).drop placement.position.offset
  /-- The frames of each segment fill it from where it ended at the start. -/
  tiles : ∀ segment, Tiles (start.segment segment).length (within segment session.placements)
    (session.written segment).length
  ascending : session.placements.Pairwise fun left right => left.position.Precedes right.position
  /-- A segment that is left is in its file. -/
  segment_eq : ∀ segment ≠ session.writer.segment, session.disk.segment segment =
    start.segment segment ++ framesWithin segment session.placements
  /-- A frame is in the file once its position was made readable. -/
  readable : ∀ placement ∈ session.placements, placement.frame <+:
    ((session.serve (.ensureReadable placement.position)).disk.segment
      placement.position.segment).drop placement.position.offset

/-- The active segment is not empty and has reached its greatest size. -/
def IsFull (settings : WriterSettings) (session : Session) : Prop :=
  0 < (session.written session.writer.segment).length ∧
    settings.maxSegmentSize ≤ (session.written session.writer.segment).length

/-- What serving a request adds, if it makes a segment active. -/
structure Moves (session next : Session) (segment : Nat) (added : List Placement) : Prop where
  placements_eq : next.placements = session.placements ++ added
  segment_eq : next.writer.segment = segment
  /-- A segment is added to the directory just if it was not active. -/
  discover_eq : discover next.disk =
    discover session.disk ++ if segment = session.writer.segment then [] else [segment]

/-- The next segment is made active exactly by a frame that finds the active one full. -/
structure RotatesWhenFull (settings : WriterSettings) (session : Session) : Prop where
  leaves : session.IsFull settings → ∀ frame,
    session.Moves (session.serve (.write frame)) (session.writer.segment + 1)
      [⟨⟨session.writer.segment + 1, 0⟩, frame⟩]
  goesOn : ¬session.IsFull settings → ∀ frame,
    session.Moves (session.serve (.write frame)) session.writer.segment
      [⟨⟨session.writer.segment, (session.written session.writer.segment).length⟩, frame⟩]
  stays : ∀ request, request.frame? = none →
    session.Moves (session.serve request) session.writer.segment []

theorem Invariant.isRight
    (invariant : session.Invariant settings start) :
    session.IsRight start where
  designates := fun _ => invariant.designates
  tiles := invariant.tiles
  ascending := invariant.ascending
  segment_eq := fun _ => invariant.segment_eq
  readable := fun _ => invariant.isPrefix_drop_ensureReadable

theorem Invariant.isFull_iff
    (invariant : session.Invariant settings start) :
    session.writer.isFull = true ↔ session.IsFull settings := by
  rw [Writer.isFull, decide_eq_true_iff, invariant.ready.size_eq, invariant.settings_eq]
  rfl

/-- Sending on makes no other segment active. -/
theorem moves_settle
    (settles : session.writer.Settles session.disk after grown) :
    session.Moves { session with writer := after, disk := grown } session.writer.segment [] where
  placements_eq := (List.append_nil _).symm
  segment_eq := settles.adds.segment_eq
  discover_eq := by
    rw [if_pos rfl, List.append_nil]
    exact discover_eq_of_names_eq settles.adds.names_eq

/-- A frame makes the segment of its position active. -/
theorem moves_store
    (stores : session.writer.Stores session.disk frame position after grown) :
    session.Moves ⟨after, grown, session.placements ++ [⟨position, frame⟩]⟩ position.segment
      [⟨position, frame⟩] where
  placements_eq := rfl
  segment_eq := stores.segment_eq.symm
  discover_eq := by
    rw [stores.segment_eq]
    rcases stores.follows with ⟨same, found⟩ | ⟨next, found⟩
    · rw [if_pos same, List.append_nil]
      exact found
    · rw [if_neg (by omega), next]
      exact found

theorem Invariant.rotatesWhenFull
    (invariant : session.Invariant settings start)
    (small : session.writer.segment + 1 < 0x10000000000000000) :
    session.RotatesWhenFull settings := by
  have moves : ∀ frame, session.Moves (session.serve (.write frame))
      (session.writer.write session.disk frame).1.segment
      [⟨(session.writer.write session.disk frame).1, frame⟩] :=
    fun frame => moves_store (Writer.stores_write invariant.ready small frame)
  constructor
  case leaves =>
    intro full frame
    have moved := moves frame
    rw [Writer.position_write, if_pos (invariant.isFull_iff.mpr full)] at moved
    exact moved
  case goesOn =>
    intro notFull frame
    have moved := moves frame
    rw [Writer.position_write, if_neg (mt invariant.isFull_iff.mp notFull),
      invariant.ready.size_eq] at moved
    exact moved
  case stays =>
    intro request none
    cases request with
    | write frame => cases none
    | flush => exact moves_settle (Writer.settles_flush invariant.ready)
    | sync => exact moves_settle (Writer.settles_sync invariant.ready)
    | ensureReadable position =>
        exact moves_settle (Writer.settles_ensureReadable invariant.ready position)

/-- A writer is opened on the latest segment of a directory, or on a new one.  After
any requests, all positions that it gave lead to their frames, which fill each
segment from where it ended at the start, in ascending order.  The next segment is
made active just by a frame that finds the active one full, a segment that is left
is in its file, and so is every frame whose position is made readable. -/
theorem positions_isRight
    {disk : Disk}
    (wellFormed : disk.WellFormed)
    (isPlace : disk.place ≠ .file)
    {segment : Nat}
    (small : segment < 0xffffffffffffffff)
    (greatest : ∀ other ∈ discover disk, other ≤ segment)
    (settings : WriterSettings) :
    ∃ writer opened, Writer.openAt settings segment disk = .ok (writer, opened) ∧
      writer.segment = segment ∧
      ∀ requests, (∀ frame, Request.write frame ∈ requests → frame ≠ []) →
        (run ⟨writer, opened, []⟩ requests).writer.segment < 0xffffffffffffffff →
        (run ⟨writer, opened, []⟩ requests).placements.map Placement.frame =
            requests.filterMap Request.frame? ∧
          (∀ earlier later, earlier ++ later = requests →
            (run ⟨writer, opened, []⟩ earlier).placements <+:
              (run ⟨writer, opened, []⟩ requests).placements) ∧
          (run ⟨writer, opened, []⟩ requests).IsRight disk ∧
          (run ⟨writer, opened, []⟩ requests).RotatesWhenFull settings := by
  obtain ⟨writer, opened, opens, segment_eq, invariant⟩ :=
    exists_openAt wellFormed isPlace (by omega) greatest settings
  refine ⟨writer, opened, opens, segment_eq, fun requests filled below => ?_⟩
  have after := invariant.run filled (by omega)
  refine ⟨frames_run _ _, ?_, after.isRight, after.rotatesWhenFull (by omega)⟩
  rintro earlier later rfl
  rw [run, run, List.foldl_append]
  exact placements_isPrefix_run _ later

/-- A directory whose latest segment has two bytes. -/
def resumed : Disk where
  place := .directory
  names := [("wal-000003.log", 0)]
  contents := #[[8, 9]]

/-- Segments of at least four bytes, and a long wait before anything is sent on. -/
def sparing : WriterSettings where
  maxSegmentSize := 4
  flush := .every 100
  sync := .onRotation

/-- A frame that fills the segment, and two frames of the next one. -/
def threeFrames : List Request :=
  [.write [1, 2, 3], .write [4], .ensureReadable ⟨4, 0⟩, .write [5]]

/-- The frames are placed behind the two bytes and in the next segment. -/
theorem positions_isRight_resumed :
    (resumed.WellFormed ∧ resumed.place ≠ .file ∧ ∀ other ∈ discover resumed, other ≤ 3) ∧
      ∃ writer opened, Writer.openAt sparing 3 resumed = .ok (writer, opened) ∧
        (∀ frame, Request.write frame ∈ threeFrames → frame ≠ []) ∧
        (run ⟨writer, opened, []⟩ threeFrames).writer.segment = 4 ∧
        (run ⟨writer, opened, []⟩ threeFrames).placements =
          [⟨⟨3, 2⟩, [1, 2, 3]⟩, ⟨⟨4, 0⟩, [4]⟩, ⟨⟨4, 1⟩, [5]⟩] ∧
        (run ⟨writer, opened, []⟩ threeFrames).IsRight resumed := by
  have wellFormed : resumed.WellFormed := ⟨by decide, by decide⟩
  have greatest : ∀ other ∈ discover resumed, other ≤ 3 := by
    intro other found
    have read : other ∈ [3] := (perm_discover resumed).mem_iff.mp found
    exact Nat.le_of_eq (List.mem_singleton.mp read)
  obtain ⟨writer, opened, opens, _, runs⟩ :=
    positions_isRight wellFormed (by decide) (by decide) greatest sparing
  have result : (Writer.openAt sparing 3 resumed).toOption.map (fun opened =>
      ((run ⟨opened.1, opened.2, []⟩ threeFrames).writer.segment,
        (run ⟨opened.1, opened.2, []⟩ threeFrames).placements)) =
      some (4, [⟨⟨3, 2⟩, [1, 2, 3]⟩, ⟨⟨4, 0⟩, [4]⟩, ⟨⟨4, 1⟩, [5]⟩]) := by
    decide +kernel
  simp only [opens, Except.toOption, Option.map_some, Option.some.injEq, Prod.mk.injEq] at result
  obtain ⟨active, placements⟩ := result
  have filled : ∀ frame, Request.write frame ∈ threeFrames → frame ≠ [] := by
    simp [threeFrames]
  have below : (run ⟨writer, opened, []⟩ threeFrames).writer.segment < 0xffffffffffffffff := by
    rw [active]
    decide
  exact ⟨⟨wellFormed, by decide, greatest⟩, writer, opened, opens, filled, active, placements,
    (runs threeFrames filled below).2.2.1⟩

end Session
end Segment
end EventRelay
