import EventRelay.Zstandard.StateCode

/-!
# Frequencies for a text

A writer lays down a finite state code by how often each symbol of a text
occurs.  The states are shared out in proportion, at least one to every symbol
that occurs, and the shares are described in the form from which a reader takes
them.
-/

namespace EventRelay
namespace Zstandard

/-! ## Counting symbols -/

/-- How often each symbol occurs in a text, up to the greatest one. -/
def tally (symbols : List Nat) : Array Nat :=
  symbols.foldl (fun counts symbol => counts.modify symbol (· + 1))
    (Array.replicate (symbols.foldl max 0 + 1) 0)

/-- The count of the most frequent symbol. -/
def mostFrequent (counts : Array Nat) : Nat :=
  counts.foldl max 0

/-- The binary logarithm of a number of states or places for a text of some
size.  It is at most the greatest and no more than the size calls for, less an
allowance, but enough for all symbols and at least five.  A size smaller than
the allowance calls for nothing. -/
def suitableLogarithm (greatest allowance size symbols : Nat) : Nat :=
  let magnitude := Nat.log2 (size - 1)
  let called := if magnitude < allowance then greatest else magnitude - allowance
  let needed := min (Nat.log2 size + 1) (Nat.log2 (symbols - 1) + 2)
  min 12 (max 5 (max needed (min greatest called)))

namespace StateCode

/-! ## Sharing out the states -/

/-- How far the fraction of a small share has to go for the share to be rounded
up, in units of two to the power of minus twenty. -/
def roundingLimits : Array Nat :=
  #[0, 473195, 504333, 520860, 550000, 700000, 750000, 830000]

/-- The share of a symbol that is not rare. -/
def share (logarithm size count : Nat) : Nat :=
  let scale := 62 - logarithm
  let part := count * (1 <<< 62 / size)
  let whole := part >>> scale
  match roundingLimits[whole]? with
  | some limit => if limit <<< (scale - 20) < part - whole <<< scale then whole + 1 else whole
  | none => whole

/-- The frequency of a symbol that occurs at most once among the states. -/
def frequencyOfFew (allowsRare : Bool) (count : Nat) : Frequency :=
  if count = 0 then .times 0 else if allowsRare then .rare else .times 1

/-- The number of states that frequencies take. -/
def taken : (frequencies : List Frequency) → Nat
  | [] => 0
  | frequency :: rest => frequency.states + taken rest

/-- Share out states in proportion, each symbol by itself. -/
def shareOutRounded (logarithm size : Nat) (allowsRare : Bool) (counts : List Nat) :
    List Frequency :=
  counts.map fun count =>
    if count ≤ size >>> logarithm then frequencyOfFew allowsRare count
    else .times (share logarithm size count)

/-- Share out states to the symbols whose counts exceed a limit, so that the
states up to each symbol are in proportion.  Other symbols get one state.  The
step is the share of one occurrence, and the position is what has been shared
out, both in the same fractions of a state. -/
def shareOutFrom (scale few limit step : Nat) (allowsRare : Bool) :
    (position : Nat) → (counts : List Nat) → List Frequency
  | _, [] => []
  | position, count :: rest =>
      if count ≤ few then
        frequencyOfFew allowsRare count ::
          shareOutFrom scale few limit step allowsRare position rest
      else if count ≤ limit then
        .times 1 :: shareOutFrom scale few limit step allowsRare position rest
      else
        let following := position + count * step
        .times (following >>> scale - position >>> scale) ::
          shareOutFrom scale few limit step allowsRare following rest

/-- Share out states so that all are taken.  Symbols that are due less than one
and a half states get one, unless none is more frequent, and the others share
the rest. -/
def shareOutEvenly (logarithm size : Nat) (allowsRare : Bool) (counts : List Nat) :
    List Frequency :=
  let states := 1 <<< logarithm
  let scale := 62 - logarithm
  let restFor (limit : Nat) : Nat :=
    states - (counts.filter fun count => 0 < count && count ≤ limit).length
  let sizeFor (limit : Nat) : Nat := (counts.filter (limit < ·)).foldl (· + ·) 0
  let limit := (3 * size) >>> (logarithm + 1)
  let limit :=
    if limit < sizeFor limit / restFor limit then 3 * sizeFor limit / (2 * restFor limit)
    else limit
  let limit := min limit (counts.foldl max 0 - 1)
  let middle := 1 <<< (scale - 1) - 1
  let step := (restFor limit <<< scale + middle) / sizeFor limit
  shareOutFrom scale (size >>> logarithm) limit step allowsRare middle counts

/-- The frequencies that take all states.  What rounding leaves over, or takes
too much, falls to the symbol with the largest share, if that is large enough. -/
def shareOut (logarithm : Nat) (allowsRare : Bool) (counts : Array Nat) : List Frequency :=
  let size := counts.foldl (· + ·) 0
  let states := 1 <<< logarithm
  let frequencies := shareOutRounded logarithm size allowsRare counts.toList
  let sum := taken frequencies
  let largest := (frequencies.map Frequency.states).foldl max 0
  if states + largest / 2 ≤ sum then shareOutEvenly logarithm size allowsRare counts.toList
  else
    let place := frequencies.findIdx fun frequency => frequency.states == largest
    frequencies.set place (.times (largest + states - sum))

/-! ## Describing the frequencies -/

/-- Write how many further symbols do not occur.  A count of three goes on. -/
def writeAbsent (count : Nat) : BitString :=
  List.replicate (count / 3 * 2) true ++ BitString.ofNatLow 2 (count % 3)

/-- Write one frequency when `remaining` states are left.  Small values take
one bit less than large ones. -/
def writeFrequency (remaining : Nat) (frequency : Frequency) : BitString :=
  let width := Nat.log2 (remaining + 1) + 1
  let half := 1 <<< (width - 1)
  let threshold := 1 <<< width - 2 - remaining
  let value := match frequency with
    | .rare => 0
    | .times count => count + 1
  if value < threshold then BitString.ofNatLow (width - 1) value
  else if value < half then BitString.ofNatLow width value
  else BitString.ofNatLow width (value + threshold)

/-- Write frequencies until they take all states.  After a symbol that does not
occur stands how many more follow it. -/
def writeFrequencies : (remaining : Nat) → List Frequency → BitString
  | 0, _ => []
  | _, [] => []
  | remaining + 1, frequency :: rest =>
      let written := writeFrequency (remaining + 1) frequency
      let left := remaining + 1 - frequency.states
      if frequency = .times 0 then
        let absent := (rest.takeWhile (· == .times 0)).length
        written ++ writeAbsent absent ++ writeFrequencies left (rest.drop absent)
      else written ++ writeFrequencies left rest
  termination_by _ frequencies => frequencies.length

/-- The description of a code. -/
def describe (logarithm : Nat) (frequencies : List Frequency) : Bytes :=
  BitString.toForward
    (BitString.ofNatLow 4 (logarithm - 5) ++ writeFrequencies (1 <<< logarithm) frequencies)

/-! ## Texts in a code with two states in turn -/

/-- The symbols at even places of a text and those at odd places. -/
def alternate {α : Type} : List α → List α × List α
  | [] => ([], [])
  | symbol :: rest => ((symbol :: (alternate rest).2), (alternate rest).1)

/-- Take turns between two lists. -/
def takeTurns {α : Type} : List α → List α → List α
  | [], others => others
  | first :: rest, others => first :: takeTurns others rest
  termination_by firsts others => firsts.length + others.length

/-- The bytes whose symbols in two states are a text. -/
def alternately? (code : StateCode) (symbols : List Nat) : Option Bytes := do
  let (evens, odds) := alternate symbols
  let (first, firstSteps) ← code.path? evens
  let (second, secondSteps) ← code.path? odds
  return BitString.toBackward
    (BitString.ofNatHigh code.logarithm first ++ BitString.ofNatHigh code.logarithm second ++
      (takeTurns firstSteps secondSteps).flatten)

end StateCode
end Zstandard
end EventRelay
