import EventRelay.Zstandard.Frequencies
import EventRelay.Zstandard.Search.Basic
import EventRelay.Zstandard.Sequences

/-!
# Writing sequences

Each of the three numbers of a sequence is written as a symbol and the bits
that tell it from others in the symbol's range.  A writer takes the predefined
code for few sequences, the code of one symbol where there is but one, and
describes a code of its own where that pays.
-/

namespace EventRelay
namespace Zstandard

/-! ## Choosing a code -/

/-- What one of the three numbers of a sequence may be coded in. -/
structure CodeKind where
  /-- The ranges of the symbols. -/
  ranges : Ranges
  /-- The frequencies of the predefined code. -/
  predefined : List Frequency
  /-- The binary logarithm of the number of states of the predefined code. -/
  logarithm : Nat
  /-- The greatest logarithm for a code that is described. -/
  greatest : Nat

/-- The kind of code of numbers of literals. -/
def CodeKind.literals : CodeKind := ⟨literalRanges, literalFrequencies, 6, 9⟩

/-- The kind of code of distances. -/
def CodeKind.distances : CodeKind := ⟨distanceRanges, distanceFrequencies, 5, 8⟩

/-- The kind of code of numbers of copied bytes. -/
def CodeKind.sizes : CodeKind := ⟨sizeRanges, sizeFrequencies, 6, 9⟩

/-- How one of the three numbers of the sequences of a block is coded. -/
structure CodeChoice where
  /-- The number of the choice. -/
  mode : Nat
  /-- The description of the code. -/
  description : Bytes
  /-- The code. -/
  code : StateCode

namespace CodeChoice

/-- The predefined code. -/
def predefined (kind : CodeKind) : CodeChoice :=
  ⟨0, [], .ofFrequencies kind.logarithm kind.predefined⟩

/-- The code of one symbol. -/
def constant (symbol : Nat) : CodeChoice :=
  ⟨1, [UInt8.ofNat symbol], .constant symbol⟩

/-- A code that is described, for a text whose symbols have given counts.
Rare symbols are left to long texts. -/
def described (kind : CodeKind) (size : Nat) (counts : Array Nat) : CodeChoice :=
  let logarithm := suitableLogarithm kind.greatest 2 size counts.size
  let allowsRare := 2048 ≤ counts.foldl (· + ·) 0
  let frequencies := StateCode.shareOut logarithm allowsRare counts
  ⟨2, StateCode.describe logarithm frequencies, .ofFrequencies logarithm frequencies⟩

/-- Counts without the last symbol of a text, which its first state tells,
unless it occurs nowhere else. -/
def withoutLast (symbols : List Nat) (counts : Array Nat) : Array Nat :=
  match symbols.getLast? with
  | none => counts
  | some last =>
      if 1 < counts.getD last 0 then counts.modify last (· - 1) else counts

/-- The number of bits that a symbol of a frequency takes, in units of one part
in 256, where frequencies are given in parts of 256. -/
def symbolCost (frequency : Nat) : Nat :=
  let power := Nat.pow frequency 256
  2048 - if power ≤ 1 then 0 else Nat.log2 (power - 1) + 1

/-- The number of bits of a text in a code that fits it. -/
def ownCost (size : Nat) (counts : Array Nat) : Nat :=
  counts.foldl
    (fun sum count =>
      if count = 0 then sum else sum + count * symbolCost (max 1 (256 * count / size)))
    0 / 256

/-- The number of bits of a text in the predefined code. -/
def predefinedCost (kind : CodeKind) (counts : Array Nat) : Nat :=
  (List.zipWith
    (fun count frequency => count * symbolCost (frequency.states <<< (8 - kind.logarithm)))
    counts.toList kind.predefined).foldl (· + ·) 0 / 256

/-- Whether a text is better off with the predefined code.  With little care
that is so for few sequences and for those without a frequent symbol; with more
care the sizes are compared. -/
def prefersPredefined (effort : Nat) (kind : CodeKind) (size : Nat) (counts : Array Nat) :
    Bool :=
  if effort < 4 then
    size < (1 <<< kind.logarithm) * (10 - effort) / 8 ||
      mostFrequent counts < size >>> (kind.logarithm - 1)
  else
    predefinedCost kind counts ≤
      8 * (described kind size counts).description.length + ownCost size counts

/-- Choose a code for a text. -/
def of (effort : Nat) (kind : CodeKind) (symbols : List Nat) : CodeChoice :=
  let size := symbols.length
  let counts := tally symbols
  if mostFrequent counts = size then
    if size ≤ 2 then predefined kind else constant (symbols.headD 0)
  else if prefersPredefined effort kind size counts then predefined kind
  else described kind size (withoutLast symbols counts)

end CodeChoice

/-! ## Writing texts -/

/-- The symbol of a number in given ranges. -/
def Ranges.symbol? (ranges : Ranges) (number : Nat) : Option Nat :=
  ranges.findIdx? fun (least, width) => least ≤ number && number < least + 1 <<< width

/-- The bits that tell a number from the others in its range. -/
def Ranges.offset (ranges : Ranges) (symbol number : Nat) : BitString :=
  let (least, width) := ranges.getD symbol (0, 0)
  BitString.ofNatHigh width (number - least)

/-- A text in a code, ready to be joined with others. -/
structure CodedText where
  /-- How the text is coded. -/
  choice : CodeChoice
  /-- The bits of the first state. -/
  start : BitString
  /-- For each symbol the bits that tell the number in its range. -/
  offsets : List BitString
  /-- For each symbol the bits that lead to the next. -/
  steps : List BitString

/-- The text of numbers of a kind. -/
def CodedText.of? (effort : Nat) (kind : CodeKind) (numbers : List Nat) :
    Option CodedText := do
  let symbols ← numbers.mapM kind.ranges.symbol?
  let choice := CodeChoice.of effort kind symbols
  let (first, steps) ← choice.code.path? symbols
  return {
    choice := choice
    start := BitString.ofNatHigh choice.code.logarithm first
    offsets := List.zipWith kind.ranges.offset symbols numbers
    steps := steps ++ [[]] }

namespace Sequences

/-- What precedes sequences: their number. -/
def writeCount (count : Nat) : Bytes :=
  if count < 128 then [UInt8.ofNat count]
  else if count < 0x7F00 then Bytes.ofNatBE 2 (0x8000 + count)
  else 0xFF :: Bytes.ofNatLE 2 (count - 0x7F00)

/-- Whether the last description together with the text that follows has too
few bytes for some readers. -/
def isTooShort (choices : List CodeChoice) (text : Bytes) : Bool :=
  match (choices.filter fun choice => choice.mode = 2).getLast? with
  | some choice => choice.description.length + text.length < 4
  | none => false

/-- Write the sequences of a block. -/
def write? (effort : Nat) (steps : List Step) : Option Bytes :=
  if steps.isEmpty then some (writeCount 0)
  else do
    let literals ← CodedText.of? effort .literals (steps.map Step.literals)
    let distances ← CodedText.of? effort .distances (steps.map Step.number)
    let sizes ← CodedText.of? effort .sizes (steps.map Step.size)
    let modes := 64 * literals.choice.mode + 16 * distances.choice.mode + 4 * sizes.choice.mode
    let offsets := List.zipWith (· ++ ·) distances.offsets
      (List.zipWith (· ++ ·) sizes.offsets literals.offsets)
    let changes := List.zipWith (· ++ ·) literals.steps
      (List.zipWith (· ++ ·) sizes.steps distances.steps)
    let text := BitString.toBackward (literals.start ++ distances.start ++ sizes.start ++
      (List.zipWith (· ++ ·) offsets changes).flatten)
    if isTooShort [literals.choice, distances.choice, sizes.choice] text then none
    return writeCount steps.length ++ [UInt8.ofNat modes] ++ literals.choice.description ++
      distances.choice.description ++ sizes.choice.description ++ text

end Sequences
end Zstandard
end EventRelay
