import EventRelay.Disk.Basic
import EventRelay.Proofs.Segment.Name
import Mathlib.Data.List.Nodup

/-!
# Files keep apart

On a well-formed disk no two names share a file.  Changing one file then leaves
the bytes under every other name alone, and a new file leaves all of them alone.
-/

namespace EventRelay
namespace Disk

/-- No two names share a file, and every name has one. -/
structure WellFormed (disk : Disk) : Prop where
  /-- The files of the names are different. -/
  numbers_nodup : (disk.names.map Prod.snd).Nodup
  /-- Every name has a file. -/
  number_lt : ∀ named ∈ disk.names, named.2 < disk.contents.size

theorem mem_names_of_number?_eq_some
    {disk : Disk}
    {name : String}
    {number : Nat}
    (found : disk.number? name = some number) :
    (name, number) ∈ disk.names := by
  rw [number?, Option.map_eq_some_iff] at found
  obtain ⟨⟨other, file⟩, first, rfl⟩ := found
  have same : other = name := by simpa using List.find?_some first
  exact same ▸ List.mem_of_find?_eq_some first

theorem isSome_number?_of_mem_listing
    {disk : Disk}
    {name : String}
    (listed : name ∈ disk.listing) :
    (disk.number? name).isSome = true := by
  obtain ⟨named, present, rfl⟩ := List.mem_map.mp listed
  rw [number?, Option.isSome_map, List.find?_isSome]
  exact ⟨named, present, beq_self_eq_true _⟩

theorem WellFormed.number_lt_size
    {disk : Disk}
    (wellFormed : disk.WellFormed)
    {name : String}
    {number : Nat}
    (found : disk.number? name = some number) :
    number < disk.contents.size :=
  wellFormed.number_lt _ (mem_names_of_number?_eq_some found)

/-- Names with one file are the same. -/
theorem WellFormed.name_eq
    {disk : Disk}
    (wellFormed : disk.WellFormed)
    {left right : String}
    {number : Nat}
    (leftFound : disk.number? left = some number)
    (rightFound : disk.number? right = some number) :
    left = right := by
  have same := List.inj_on_of_nodup_map wellFormed.numbers_nodup
    (mem_names_of_number?_eq_some leftFound) (mem_names_of_number?_eq_some rightFound) rfl
  exact congrArg Prod.fst same

/-! ## Changing a file -/

@[simp] theorem names_append (disk : Disk) (number : Nat) (bytes : Bytes) :
    (disk.append number bytes).names = disk.names := by
  rw [append]
  split <;> rfl

@[simp] theorem place_append (disk : Disk) (number : Nat) (bytes : Bytes) :
    (disk.append number bytes).place = disk.place := by
  rw [append]
  split <;> rfl

theorem number?_eq_of_names_eq
    {left right : Disk}
    (same : left.names = right.names)
    (name : String) :
    left.number? name = right.number? name := by
  rw [number?, number?, same]

theorem content_change_self
    {disk : Disk}
    {number : Nat}
    (inRange : number < disk.contents.size)
    (change : Bytes → Bytes) :
    (disk.change number change).content number = change (disk.content number) := by
  simp [Disk.change, content, Array.getD_eq_getD_getElem?, Array.getElem_modify, inRange]

theorem content_change_of_ne
    {number other : Nat}
    (different : other ≠ number)
    (disk : Disk)
    (change : Bytes → Bytes) :
    (disk.change number change).content other = disk.content other := by
  simp [Disk.change, content, Array.getD_eq_getD_getElem?, Array.getElem?_modify,
    different.symm]

theorem WellFormed.change
    {disk : Disk}
    (wellFormed : disk.WellFormed)
    (number : Nat)
    (change : Bytes → Bytes) :
    (disk.change number change).WellFormed where
  numbers_nodup := wellFormed.numbers_nodup
  number_lt := by simpa [Disk.change] using wellFormed.number_lt

theorem append_eq_change
    {disk : Disk}
    {number : Nat}
    {bytes : Bytes}
    (notEmpty : bytes ≠ []) :
    disk.append number bytes = disk.change number (· ++ bytes) := by
  rw [append, if_neg]
  simpa using notEmpty

theorem WellFormed.append
    {disk : Disk}
    (wellFormed : disk.WellFormed)
    (number : Nat)
    (bytes : Bytes) :
    (disk.append number bytes).WellFormed := by
  rw [Disk.append]
  split
  · exact wellFormed
  · exact wellFormed.change number _

/-! ## Reading a file -/

theorem read_of_number?_eq_some
    {disk : Disk}
    {name : String}
    {number : Nat}
    (found : disk.number? name = some number) :
    disk.read name = .ok (disk.content number) := by
  rw [read, found]

/-- Changing the file of a name changes what is read under that name only. -/
theorem read_change
    {disk : Disk}
    (wellFormed : disk.WellFormed)
    {name : String}
    {number : Nat}
    (found : disk.number? name = some number)
    (change : Bytes → Bytes)
    (other : String) :
    (disk.change number change).read other =
      if other = name then .ok (change (disk.content number)) else disk.read other := by
  have sameNumber : (disk.change number change).number? other = disk.number? other :=
    number?_eq_of_names_eq rfl other
  split
  · rename_i same
    subst same
    rw [read_of_number?_eq_some (sameNumber.trans found),
      content_change_self (wellFormed.number_lt_size found)]
  · rename_i different
    cases otherFound : disk.number? other with
    | none => rw [read, read, sameNumber, otherFound]
    | some file =>
        have apart : file ≠ number := by
          rintro rfl
          exact different (wellFormed.name_eq otherFound found)
        rw [read_of_number?_eq_some (sameNumber.trans otherFound),
          read_of_number?_eq_some otherFound, content_change_of_ne apart]

/-! ## The files of segments -/

/-- The bytes of the file of a segment; there are none if there is no file. -/
def segment (disk : Disk) (segment : Nat) : Bytes :=
  ((disk.number? (Segment.name segment)).map disk.content).getD []

theorem segment_eq_content
    {disk : Disk}
    {segment number : Nat}
    (found : disk.number? (Segment.name segment) = some number) :
    disk.segment segment = disk.content number := by
  rw [Disk.segment, found]
  rfl

theorem number?_name_eq_none
    {disk : Disk}
    {segment : Nat}
    (small : segment < 0x10000000000000000)
    (missing : segment ∉ Segment.discover disk) :
    disk.number? (Segment.name segment) = none := by
  cases found : disk.number? (Segment.name segment) with
  | none => rfl
  | some file =>
      have listed : Segment.name segment ∈ disk.listing :=
        List.mem_map.mpr ⟨_, mem_names_of_number?_eq_some found, rfl⟩
      exact absurd (Segment.mem_discover_iff.mpr ⟨_, listed, Segment.ofName?_name small⟩) missing

/-- Changing the file of a segment changes that segment only. -/
theorem segment_change
    {disk : Disk}
    (wellFormed : disk.WellFormed)
    {active number : Nat}
    (found : disk.number? (Segment.name active) = some number)
    (change : Bytes → Bytes)
    (segment : Nat) :
    (disk.change number change).segment segment =
      if segment = active then change (disk.segment segment) else disk.segment segment := by
  have sameNumber : ∀ name, (disk.change number change).number? name = disk.number? name :=
    number?_eq_of_names_eq rfl
  split
  · rename_i same
    subst same
    rw [segment_eq_content found, segment_eq_content ((sameNumber _).trans found),
      content_change_self (wellFormed.number_lt_size found)]
  · rename_i different
    rw [Disk.segment, Disk.segment, sameNumber]
    cases other : disk.number? (Segment.name segment) with
    | none => rfl
    | some file =>
        have apart : file ≠ number := by
          rintro rfl
          exact different (Segment.name_injective (wellFormed.name_eq other found))
        simp [content_change_of_ne apart]

/-- Bytes added to the file of a segment are added to that segment only. -/
theorem segment_append
    {disk : Disk}
    (wellFormed : disk.WellFormed)
    {active number : Nat}
    (found : disk.number? (Segment.name active) = some number)
    (bytes : Bytes)
    (segment : Nat) :
    (disk.append number bytes).segment segment =
      disk.segment segment ++ if segment = active then bytes else [] := by
  by_cases empty : bytes = []
  · simp [append, empty]
  · rw [append_eq_change empty, segment_change wellFormed found]
    split
    · rfl
    · rw [List.append_nil]

/-! ## New files -/

theorem openOrCreate_of_number?_eq_some
    {disk : Disk}
    {name : String}
    {number : Nat}
    (found : disk.number? name = some number) :
    disk.openOrCreate name = (disk, number) := by
  simp only [openOrCreate, found]

/-- The disk with a new empty file. -/
def create (disk : Disk) (name : String) : Disk :=
  { disk with
    names := disk.names ++ [(name, disk.contents.size)]
    contents := disk.contents.push [] }

theorem openOrCreate_of_number?_eq_none
    {disk : Disk}
    {name : String}
    (missing : disk.number? name = none) :
    disk.openOrCreate name = (disk.create name, disk.contents.size) := by
  simp only [openOrCreate, missing]
  rfl

theorem listing_create (disk : Disk) (name : String) :
    (disk.create name).listing = disk.listing ++ [name] := by
  simp [listing, create]

/-- A name that is there keeps its file. -/
theorem number?_create_of_number?_eq_some
    {disk : Disk}
    {name : String}
    {number : Nat}
    (found : disk.number? name = some number)
    (new : String) :
    (disk.create new).number? name = some number := by
  rw [number?, Option.map_eq_some_iff] at found ⊢
  obtain ⟨named, first, rfl⟩ := found
  exact ⟨named, by simp [create, first], rfl⟩

/-- A new file is the only one that is added. -/
theorem number?_create
    {disk : Disk}
    {name : String}
    (missing : disk.number? name = none)
    (other : String) :
    (disk.create name).number? other =
      if other = name then some disk.contents.size else disk.number? other := by
  cases found : disk.number? other with
  | some number =>
      have apart : other ≠ name := by
        rintro rfl
        rw [missing] at found
        cases found
      rw [if_neg apart, number?_create_of_number?_eq_some found]
  | none =>
      rw [number?, Option.map_eq_none_iff] at found
      by_cases same : other = name
      · simp [number?, create, List.find?_append, same, same ▸ found]
      · simp [number?, create, List.find?_append, same, found, Ne.symm same]

theorem content_of_size_le
    {disk : Disk}
    {number : Nat}
    (outOfRange : disk.contents.size ≤ number) :
    disk.content number = [] := by
  simp [content, Array.getD_eq_getD_getElem?, outOfRange]

theorem content_create (disk : Disk) (name : String) (number : Nat) :
    (disk.create name).content number = disk.content number := by
  simp only [content, create, Array.getD_eq_getD_getElem?, Array.getElem?_push]
  split
  · rename_i last
    simp [last]
  · rfl

/-- A new file leaves the bytes of all segments alone. -/
theorem segment_create
    {disk : Disk}
    {name : String}
    (missing : disk.number? name = none)
    (segment : Nat) :
    (disk.create name).segment segment = disk.segment segment := by
  cases found : disk.number? (Segment.name segment) with
  | some number =>
      rw [segment_eq_content found,
        segment_eq_content (number?_create_of_number?_eq_some found name), content_create]
  | none =>
      have new := number?_create missing (Segment.name segment)
      rw [Disk.segment, Disk.segment, found, new, found]
      split
      · rw [Option.map_some, content_create, content_of_size_le (Nat.le_refl _)]
        rfl
      · rfl

/-- Only the name of a new file is read differently. -/
theorem read_create
    {disk : Disk}
    {name : String}
    (missing : disk.number? name = none)
    (other : String) :
    (disk.create name).read other = if other = name then .ok [] else disk.read other := by
  have new := number?_create missing other
  split at new
  · rename_i same
    rw [read_of_number?_eq_some new, if_pos same, content_create,
      content_of_size_le (Nat.le_refl _)]
  · rename_i different
    rw [if_neg different, read, read, new]
    cases disk.number? other with
    | none => rfl
    | some number => exact congrArg Except.ok (content_create disk name number)

theorem WellFormed.create
    {disk : Disk}
    (wellFormed : disk.WellFormed)
    (name : String) :
    (disk.create name).WellFormed where
  numbers_nodup := by
    rw [Disk.create, List.map_append, List.nodup_append]
    refine ⟨wellFormed.numbers_nodup, by simp, fun number present other new => ?_⟩
    obtain ⟨named, inNames, rfl⟩ := List.mem_map.mp present
    have bound := wellFormed.number_lt named inNames
    simp only [List.map_cons, List.map_nil, List.mem_singleton] at new
    omega
  number_lt := by
    intro named present
    simp only [Disk.create, List.mem_append, List.mem_singleton, Array.size_push] at present ⊢
    rcases present with old | rfl
    · have bound := wellFormed.number_lt named old
      omega
    · exact Nat.lt_succ_self _

/-- What opening a file, which is made if it is not there, leaves. -/
structure Provides (disk : Disk) (name : String) (opened : Disk) (number : Nat) : Prop where
  wellFormed : opened.WellFormed
  place_eq : opened.place = disk.place
  number?_eq : opened.number? name = some number
  number?_kept : ∀ other file, disk.number? other = some file → opened.number? other = some file
  segment_eq : ∀ segment, opened.segment segment = disk.segment segment

theorem provides_openOrCreate
    {disk : Disk}
    (wellFormed : disk.WellFormed)
    (name : String) :
    Provides disk name (disk.openOrCreate name).1 (disk.openOrCreate name).2 := by
  cases found : disk.number? name with
  | some number =>
      rw [openOrCreate_of_number?_eq_some found]
      exact ⟨wellFormed, rfl, found, fun _ _ => id, fun _ => rfl⟩
  | none =>
      rw [openOrCreate_of_number?_eq_none found]
      refine ⟨wellFormed.create name, rfl, ?_, ?_, segment_create found⟩
      · rw [number?_create found, if_pos rfl]
      · intro other file kept
        exact number?_create_of_number?_eq_some kept name

end Disk
end EventRelay
