import EventRelay.Zstandard.BitString
import EventRelay.Zstandard.Fault

/-!
# Finite state codes

A finite state code has a power of two of states.  Each state stands for a
symbol and tells how many bits to read and what to add to them for the number
of the next state.  A code is laid down by how often each symbol occurs among
the states.  The occurrences are spread over the states by a fixed stride; a
rare symbol, which occurs less than once, takes one state from the end.
-/

namespace EventRelay
namespace Zstandard

/-- How often a symbol occurs. -/
inductive Frequency where
  /-- Less than once: the symbol takes one of the last states. -/
  | rare
  /-- A number of times. -/
  | times (count : Nat)
deriving DecidableEq, Repr

/-- The number of states that a frequency takes. -/
def Frequency.states : Frequency → Nat
  | .rare => 1
  | .times count => count

/-- One state of a code. -/
structure State where
  /-- The symbol that the state stands for. -/
  symbol : Nat
  /-- The number of bits to read for the next state. -/
  bits : Nat
  /-- What to add to these bits. -/
  base : Nat
deriving DecidableEq, Repr, Inhabited

/-- A finite state code. -/
structure StateCode where
  /-- The binary logarithm of the number of states. -/
  logarithm : Nat
  /-- The states. -/
  states : Array State

namespace StateCode

/-- The symbols with given frequencies, each paired with its frequency. -/
def numbered (frequencies : List Frequency) : List (Nat × Frequency) :=
  (List.range frequencies.length).zip frequencies

/-- The rare symbols, in order. -/
def rareSymbols (frequencies : List Frequency) : List Nat :=
  (numbered frequencies).filterMap fun (symbol, frequency) =>
    match frequency with
    | .rare => some symbol
    | .times _ => none

/-- The other symbols, in order, each as often as it occurs. -/
def occurrences (frequencies : List Frequency) : List Nat :=
  (numbered frequencies).flatMap fun (symbol, frequency) =>
    match frequency with
    | .rare => []
    | .times count => List.replicate count symbol

/-- The places of the occurrences: multiples of the stride, without the states
that the rare symbols take. -/
def places (size available : Nat) : List Nat :=
  let stride := size / 2 + size / 8 + 3
  ((List.range size).map fun count => count * stride % size).filter (· < available)

/-- The symbol of every state. -/
def layout (logarithm : Nat) (frequencies : List Frequency) : Array Nat :=
  let size := 1 <<< logarithm
  let rare := rareSymbols frequencies
  let spread := (places size (size - rare.length)).zip (occurrences frequencies)
  let ends := ((List.range rare.length).map fun count => size - 1 - count).zip rare
  (spread ++ ends).foldl
    (fun symbols (place, symbol) => symbols.setIfInBounds place symbol)
    (Array.replicate size 0)

/-- Number the states of each symbol upwards, from the number of its states on.
The number tells how many bits lead on and from where. -/
def link (logarithm : Nat) :
    (symbols : List Nat) → (numbers : Array Nat) → List State
  | [], _ => []
  | symbol :: rest, numbers =>
      let number := numbers.getD symbol 1
      let bits := logarithm - Nat.log2 number
      { symbol := symbol, bits := bits, base := number <<< bits - 1 <<< logarithm } ::
        link logarithm rest (numbers.setIfInBounds symbol (number + 1))

/-- The code of given frequencies, whose states must number `2 ^ logarithm`. -/
def ofFrequencies (logarithm : Nat) (frequencies : List Frequency) : StateCode where
  logarithm := logarithm
  states := (link logarithm (layout logarithm frequencies).toList
    (frequencies.map Frequency.states).toArray).toArray

/-- The code that has but one symbol. -/
def constant (symbol : Nat) : StateCode where
  logarithm := 0
  states := #[{ symbol := symbol, bits := 0, base := 0 }]

/-- Read the first state. -/
def start? (code : StateCode) (bits : BitString) : Option (State × BitString) := do
  let (number, rest) ← BitString.readHigh? code.logarithm bits
  return (← code.states[number]?, rest)

/-- Read the state after a given one. -/
def next? (code : StateCode) (state : State) (bits : BitString) :
    Option (State × BitString) := do
  let (number, rest) ← BitString.readHigh? state.bits bits
  return (← code.states[state.base + number]?, rest)

/-- For each symbol its states with their numbers, in order. -/
def statesOfSymbols (code : StateCode) : Array (List (Nat × State)) :=
  let most := code.states.foldl (fun most state => max most state.symbol) 0
  let numbered := (List.range code.states.size).zip code.states.toList
  numbered.foldr (fun (number, state) lists => lists.modify state.symbol ((number, state) :: ·))
    (Array.replicate (most + 1) [])

/-- The path of a text, given the states of each symbol.  The last state is the
first that stands for its symbol, and each state before is the one from which
the next can be reached. -/
def pathThrough? (states : Array (List (Nat × State))) :
    List Nat → Option (Nat × List BitString)
  | [] => none
  | [symbol] => (states.getD symbol []).head?.map fun (number, _) => (number, [])
  | symbol :: following :: rest => do
      let (next, steps) ← pathThrough? states (following :: rest)
      let (number, state) ← (states.getD symbol []).find? fun (_, state) =>
        state.base ≤ next && next < state.base + 1 <<< state.bits
      return (number, BitString.ofNatHigh state.bits (next - state.base) :: steps)

/-- The states that stand for a text, and what to read between them: the number
of the first state and the bits that lead from each state to the next. -/
def path? (code : StateCode) (symbols : List Nat) : Option (Nat × List BitString) :=
  pathThrough? code.statesOfSymbols symbols

/-! ## The description of a code -/

/-- Read one frequency when `remaining` states are left.  Small values take one
bit less than large ones. -/
def readFrequency? (remaining : Nat) (bits : BitString) :
    Option (Frequency × BitString) := do
  let width := Nat.log2 (remaining + 1) + 1
  let half := 1 <<< (width - 1)
  let threshold := 1 <<< width - 2 - remaining
  let (low, shortRest) ← BitString.readLow? (width - 1) bits
  let (value, rest) ←
    if low < threshold then some (low, shortRest)
    else do
      let (high, rest) ← BitString.readLow? 1 shortRest
      some (if high = 0 then low else low + half - threshold, rest)
  return (if value = 0 then .rare else .times (value - 1), rest)

/-- Read how many further symbols do not occur.  A count of three goes on. -/
def readAbsent? : (fuel : Nat) → (bits : BitString) → Option (Nat × BitString)
  | 0, _ => none
  | fuel + 1, bits => do
      let (count, rest) ← BitString.readLow? 2 bits
      if count < 3 then return (count, rest)
      let (further, rest) ← readAbsent? fuel rest
      return (3 + further, rest)

/-- Read frequencies until they take all states.  The fuel is the greatest
number of symbols. -/
def readFrequencies? :
    (fuel remaining : Nat) → (bits : BitString) → Option (List Frequency × BitString)
  | _, 0, bits => some ([], bits)
  | 0, _ + 1, _ => none
  | fuel + 1, remaining + 1, bits => do
      let (frequency, rest) ← readFrequency? (remaining + 1) bits
      let left := remaining + 1 - frequency.states
      if frequency = .times 0 then
        let (absent, rest) ← readAbsent? (rest.length + 1) rest
        let (others, rest) ← readFrequencies? (fuel - absent) left rest
        return (frequency :: List.replicate absent (.times 0) ++ others, rest)
      else
        let (others, rest) ← readFrequencies? fuel left rest
        return (frequency :: others, rest)
  termination_by fuel => fuel

/-- More bytes than any description takes. -/
def maxDescription : Nat := 1024

/-- Read the description of a code with at most `symbols` symbols and at most
`2 ^ greatest` states from the front of a byte string.  The result holds the
bytes that follow the description. -/
def read? (symbols greatest : Nat) (bytes : Bytes) : Option (StateCode × Bytes) := do
  let front := bytes.take maxDescription
  let (low, rest) ← BitString.readLow? 4 (BitString.forward front)
  let logarithm := low + 5
  if greatest < logarithm then none
  let (frequencies, rest) ← readFrequencies? symbols (1 <<< logarithm) rest
  if symbols < frequencies.length then none
  return (ofFrequencies logarithm frequencies, bytes.drop (front.length - rest.length / 8))

/-! ## Texts in a code with two states in turn -/

/-- Read symbols with two states in turn.  A state that cannot be followed,
because too few bits are left, ends the text, and the other state gives its last
symbol.  The fuel bounds the number of symbols. -/
def readAlternately (code : StateCode) :
    (fuel : Nat) → (current other : State) → BitString → Option (List Nat)
  | 0, _, _, _ => none
  | fuel + 1, current, other, bits =>
      match BitString.skip? current.bits bits with
      | none => some [current.symbol, other.symbol]
      | some _ => do
          let (following, rest) ← code.next? current bits
          let symbols ← readAlternately code fuel other following rest
          return current.symbol :: symbols

/-- The symbols of a byte string that is read backwards with two states. -/
def symbols? (code : StateCode) (greatest : Nat) (bytes : Bytes) : Option (List Nat) := do
  let bits ← BitString.backward? bytes
  let (first, rest) ← code.start? bits
  let (second, rest) ← code.start? rest
  readAlternately code greatest first second rest

end StateCode
end Zstandard
end EventRelay
