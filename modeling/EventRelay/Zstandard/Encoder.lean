import EventRelay.Zstandard.CodedLiterals
import EventRelay.Zstandard.CodedSequences
import EventRelay.Zstandard.Frame
import EventRelay.Zstandard.Search.Cover

/-!
# Writing compressed frames

The writer makes one frame of blocks that are as large as blocks may be.  A
block that does not get smaller by enough is stored as it is.  What the search
for repetitions finds is taken on trust; therefore a written frame counts as a
compressed form only if reading it gives the content back.
-/

namespace EventRelay
namespace Zstandard

/-! ## Blocks -/

/-- The bytes that steps take as literals, and those left over. -/
def literalsOf : (steps : List Step) → (bytes : Bytes) → Bytes
  | [], bytes => bytes
  | step :: rest, bytes =>
      bytes.take step.literals ++ literalsOf rest (bytes.drop (step.literals + step.size))

/-- What precedes a block. -/
def blockHeader (isLast : Bool) (kind size : Nat) : Bytes :=
  Bytes.ofNatLE 3 (isLast.toNat + 2 * kind + 8 * size)

/-- The least size of a block that is searched. -/
def searchedSize : Nat := 7

/-- The size from which on a coded block is preferred to a repeated byte. -/
def repeatedLimit : Nat := 25

/-- What one block hands on to the next. -/
structure Progress where
  /-- The distances that are tried first. -/
  recent : Search.Recent
  /-- The tables of the search. -/
  tables : Search.Tables
  /-- The latest code of literals. -/
  plan : Option PrefixCode.Plan

/-- What is known before the first block. -/
def Progress.initial (level : Level) : Progress where
  recent := .initial
  tables := level.search.initialTables
  plan := none

/-- Whether the literals of a block are so many that they may be random. -/
def isSuspect (steps : List Step) (literals : Bytes) : Bool :=
  steps.isEmpty || 20 ≤ literals.length / steps.length

/-- The literals and sequences of a block, and the code of literals for later
blocks.  There are none if the block does not get smaller by enough. -/
def codeBlock?
    (level : Level)
    (steps : List Step)
    (plan : Option PrefixCode.Plan)
    (bytes : Bytes) :
    Option (Bytes × Option PrefixCode.Plan) := do
  let literals := literalsOf steps bytes
  let (coded, plan) := Literals.write level (isSuspect steps literals) plan literals
  let sequences ← Sequences.write? level.effort steps
  let block := coded ++ sequences
  if bytes.length ≤ block.length + leastGain level.effort bytes.length then none
  return (block, plan)

/-- Write the block of the content from one place to another.  The content is
given both as a whole and from the block on.  A block other than the first that
gets small, or that does not get smaller, may be one repeated byte. -/
def encodeBlock
    (level : Level)
    (content : Array UInt8)
    (start stop : Nat)
    (bytes : Bytes)
    (progress : Progress) :
    Bytes × Progress :=
  let isLast := stop = content.size ∧ stop < start + maxBlockSize
  let plain := blockHeader isLast 0 bytes.length ++ bytes
  if bytes.length < searchedSize then (plain, progress)
  else
    let outcome := level.search.cover (1 <<< level.window) content start stop
      progress.recent progress.tables
    let kept := { progress with tables := outcome.tables }
    let first := bytes.headD 0
    let repeated : Option Bytes :=
      if 0 < start ∧ bytes.all (· == first) then
        some (blockHeader isLast 1 bytes.length ++ [first])
      else none
    match codeBlock? level outcome.steps progress.plan bytes with
    | none => (repeated.getD plain, kept)
    | some (coded, plan) =>
        match repeated.filter fun _ => coded.length < repeatedLimit with
        | some block => (block, kept)
        | none =>
            (blockHeader isLast 2 coded.length ++ coded,
              { recent := outcome.recent, tables := outcome.tables, plan := plan })

/-- Write the blocks of the content from a place on.  The last block is smaller
than the others and may be empty.  The fuel must exceed the number of full
blocks. -/
def encodeBlocks (level : Level) (content : Array UInt8) :
    (fuel start : Nat) → (bytes : Bytes) → Progress → Bytes
  | 0, _, _, _ => []
  | fuel + 1, start, bytes, progress =>
      let front := bytes.take maxBlockSize
      let (block, progress) :=
        encodeBlock level content start (start + front.length) front progress
      if front.length < maxBlockSize then block
      else
        block ++
          encodeBlocks level content fuel (start + maxBlockSize) (bytes.drop maxBlockSize) progress

/-! ## Frames -/

/-- What follows the mark of a written frame: neither a size nor a hash is
given, and the window is a power of two. -/
def frameHeader (level : Level) : Bytes := [0x00, UInt8.ofNat (8 * (level.window - 10))]

/-- The frame of a content. -/
def encode (level : Level) (content : Bytes) : Bytes :=
  mark ++ frameHeader level ++
    encodeBlocks level content.toArray (content.length / maxBlockSize + 1) 0 content
      (.initial level)

/-- Whether reading compressed data gives a content back. -/
def restores (encoded content : Bytes) : Bool :=
  match read encoded with
  | .ok bytes => bytes == content.toArray
  | .error _ => false

theorem decode_of_restores
    {encoded content : Bytes}
    (restored : restores encoded content = true) :
    decode encoded = .ok content := by
  unfold restores at restored
  split at restored
  · rename_i bytes done
    rw [beq_iff_eq] at restored
    rw [decode_of_read_eq_ok done, restored]
  · cases restored

/-- The compressed form of a content, if it is smaller.  That it has to read back as well
stands for the assumption that compressing loses nothing: encoders do not check it, and a
right one gives nothing that does not read back. -/
def compress? (level : Level) (content : Bytes) : Option Bytes :=
  let encoded := encode level content
  if encoded.length < content.length && restores encoded content then some encoded else none

theorem of_compress?_eq_some
    {level : Level}
    {content compressed : Bytes}
    (made : compress? level content = some compressed) :
    compressed.length < content.length ∧ restores compressed content = true := by
  unfold compress? at made
  dsimp only at made
  split at made
  · rename_i fits
    cases made
    simpa using fits
  · cases made

/-- A compressed form reads back. -/
theorem decode_of_compress?_eq_some
    {level : Level}
    {content compressed : Bytes}
    (made : compress? level content = some compressed) :
    decode compressed = .ok content :=
  decode_of_restores (of_compress?_eq_some made).2

end Zstandard
end EventRelay
