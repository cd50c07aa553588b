import EventRelay.Zstandard.Frequencies
import EventRelay.Zstandard.PrefixCode

/-!
# Prefix codes for a text

A writer lays down a prefix code by how often each symbol of a text occurs.
The two groups of symbols that occur least are joined until one group is left,
and with every joining the code words of their symbols grow by a bit.  Code
words that get longer than allowed are cut, and others lengthened in return.
-/

namespace EventRelay
namespace Zstandard

/-- A symbol of a text. -/
structure Letter where
  /-- The symbol. -/
  symbol : Nat
  /-- How often it occurs. -/
  count : Nat
  /-- The number of bits of its code word. -/
  bits : Nat
deriving DecidableEq, Repr

/-- The symbols that occur, the most frequent first. -/
def lettersOf (counts : Array Nat) : List Letter :=
  let letters := (List.range counts.size).filterMap fun symbol =>
    let count := counts.getD symbol 0
    if count = 0 then none else some { symbol := symbol, count := count, bits := 0 }
  letters.mergeSort fun letter other => other.count ≤ letter.count

namespace CodeLengths

/-! ## Joining groups -/

/-- Symbols that share the start of their code words. -/
structure Group where
  /-- How often they occur together. -/
  count : Nat
  /-- The symbols. -/
  letters : List Letter

/-- Whether a group stands before one that is put in: it occurs less, or as
often and was joined before. -/
def Group.precedes (group joined : Group) : Bool :=
  group.count < joined.count || (group.count == joined.count && 1 < group.letters.length)

/-- Put a group into others, the least frequent first. -/
def insert (joined : Group) (groups : List Group) : List Group :=
  let front := groups.takeWhile (·.precedes joined)
  front ++ joined :: groups.drop front.length

/-- Two groups as one. -/
def join (first second : Group) : Group where
  count := first.count + second.count
  letters := (first.letters ++ second.letters).map fun letter =>
    { letter with bits := letter.bits + 1 }

/-- Join groups, the least frequent first, until one is left.  The fuel must be
at least the number of groups. -/
def joinAll : (fuel : Nat) → List Group → List Letter
  | fuel + 1, first :: second :: rest => joinAll fuel (insert (join first second) rest)
  | _, groups => groups.flatMap Group.letters

/-- The symbols of a text with the shortest code words for it, in the order in
which they are given, the most frequent first. -/
def shortest (letters : List Letter) : List Letter :=
  let groups := letters.reverse.map fun letter => Group.mk letter.count [letter]
  let joined := joinAll groups.length groups
  letters.map fun letter => (joined.find? (·.symbol == letter.symbol)).getD letter

/-! ## Cutting long code words -/

/-- The count of the last symbol whose code word has a given number of bits. -/
def lastCount? (bits : Nat) (letters : List Letter) : Option Nat :=
  (letters.filter (·.bits == bits)).getLast?.map Letter.count

/-- Lengthen the last code word of a given number of bits. -/
def lengthenLast (bits : Nat) (letters : List Letter) : List Letter :=
  let front := letters.takeWhile (·.bits ≤ bits)
  front.dropLast ++
    (front.getLast?.toList.map fun letter => { letter with bits := letter.bits + 1 }) ++
    letters.drop front.length

/-- Shorten the first code word of a given number of bits. -/
def shortenFirst (bits : Nat) (letters : List Letter) : List Letter :=
  let front := letters.takeWhile (·.bits < bits)
  match letters.drop front.length with
  | [] => letters
  | letter :: rest => front ++ { letter with bits := letter.bits - 1 } :: rest

/-- By how many bits less than the greatest a code word should be that is
lengthened.  A shorter one brings more, but two that are a bit longer may cost
less. -/
def lowerBy (width : Nat) (letters : List Letter) : (most : Nat) → Nat
  | most + 2 =>
      match lastCount? (width - (most + 2)) letters, lastCount? (width - (most + 1)) letters with
      | none, _ => lowerBy width letters (most + 1)
      | some _, none => most + 2
      | some shorter, some longer =>
          if shorter ≤ 2 * longer then most + 2 else lowerBy width letters (most + 1)
  | most => most

/-- Lengthen and shorten code words until they take as many places as there
are.  The debt is the number of places taken too much.  The fuel bounds the
number of code words that change. -/
def repay (width : Nat) : (fuel : Nat) → (debt : Int) → List Letter → List Letter
  | 0, _, letters => letters
  | fuel + 1, debt, letters =>
      if 0 < debt then
        let least := lowerBy width letters (Nat.log2 debt.toNat + 1)
        match (List.range' least (width - least)).find? fun lower =>
            (lastCount? (width - lower) letters).isSome with
        | none => letters
        | some lower =>
            repay width fuel (debt - (1 <<< (lower - 1) : Nat))
              (lengthenLast (width - lower) letters)
      else if debt < 0 then repay width fuel (debt + 1) (shortenFirst width letters)
      else letters

/-- Cut code words to a width, and lengthen others in return. -/
def cut (width : Nat) (letters : List Letter) : List Letter :=
  let longest := letters.foldl (fun most letter => max most letter.bits) 0
  if longest ≤ width then letters
  else
    let scale := longest - width
    let excess := letters.foldl
      (fun sum letter =>
        if width < letter.bits then sum + (1 <<< scale - 1 <<< (longest - letter.bits)) else sum)
      0
    let debt := excess >>> scale
    repay width (2 * debt + letters.length)
      debt
      (letters.map fun letter => { letter with bits := min width letter.bits })

end CodeLengths

namespace PrefixCode

/-- A code that a writer has laid down. -/
structure Plan where
  /-- The code. -/
  code : PrefixCode
  /-- The weights of the symbols, up to the greatest one. -/
  weights : List Nat
  /-- The code word of each symbol, which is empty where there is none. -/
  words : Array BitString

/-- The code word of each symbol.  It is the start that the numbers of the
symbol's places have in common. -/
def words (code : PrefixCode) : Array BitString :=
  (List.range code.table.size).foldl
    (fun words place =>
      let word := code.table.getD place default
      words.setIfInBounds word.symbol.toNat
        (BitString.ofNatHigh word.bits (place >>> (code.width - word.bits))))
    (Array.replicate 256 [])

/-- The plan for symbols with code words of given lengths. -/
def Plan.ofLetters (letters : List Letter) : Plan :=
  let width := letters.foldl (fun most letter => max most letter.bits) 0
  let greatest := letters.foldl (fun most letter => max most letter.symbol) 0
  let weights := letters.foldl
    (fun weights letter => weights.setIfInBounds letter.symbol (width + 1 - letter.bits))
    (Array.replicate (greatest + 1) 0)
  let code := ofWeights width weights.toList
  { code := code, weights := weights.toList, words := code.words }

/-- The plan for a text whose symbols have given counts, with code words of at
most a number of bits. -/
def Plan.of (width : Nat) (counts : Array Nat) : Plan :=
  .ofLetters (CodeLengths.cut width (CodeLengths.shortest (lettersOf counts)))

/-- Whether every symbol of a text has a code word. -/
def Plan.covers (plan : Plan) (counts : Array Nat) : Bool :=
  (List.range counts.size).all fun symbol =>
    counts.getD symbol 0 = 0 || !(plan.words.getD symbol []).isEmpty

/-- The number of bytes that a text takes, rounded down. -/
def Plan.cost (plan : Plan) (counts : Array Nat) : Nat :=
  (List.range counts.size).foldl
    (fun bits symbol => bits + counts.getD symbol 0 * (plan.words.getD symbol []).length) 0 / 8

/-! ## Describing a code -/

/-- Weights in a state code, if they take at least two bytes and less than a
number of them. -/
def packWeights? (limit : Nat) (weights : List Nat) : Option Bytes := do
  let counts := tally weights
  if weights.length ≤ 2 ∨ mostFrequent counts = weights.length ∨ mostFrequent counts = 1 then none
  let logarithm := suitableLogarithm 6 2 weights.length counts.size
  let frequencies := StateCode.shareOut logarithm false counts
  let text ← (StateCode.ofFrequencies logarithm frequencies).alternately? weights
  let packed := StateCode.describe logarithm frequencies ++ text
  if 1 < packed.length ∧ packed.length < limit then some packed else none

/-- Weights as half bytes, high half first. -/
def joinHalves : List Nat → Bytes
  | [] => []
  | [high] => [UInt8.ofNat (16 * high)]
  | high :: low :: rest => UInt8.ofNat (16 * high + low) :: joinHalves rest

/-- The description of a code by its weights, of which the last is left out. -/
def Plan.describe? (plan : Plan) : Option Bytes :=
  let weights := plan.weights.dropLast
  match packWeights? (weights.length / 2) weights with
  | some packed => some (UInt8.ofNat packed.length :: packed)
  | none =>
      if 128 < weights.length then none
      else some (UInt8.ofNat (127 + weights.length) :: joinHalves weights)

/-! ## Choosing the width -/

/-- The greatest width of the code of literals. -/
def maxWidth : Nat := 11

/-- The number of bytes of a plan's description and of a text. -/
def Plan.total? (plan : Plan) (counts : Array Nat) : Option Nat :=
  plan.describe?.map fun description => description.length + plan.cost counts

/-- The plan for a text with the least description and text. -/
def Plan.least (counts : Array Nat) : Plan :=
  let least := Nat.log2 (lettersOf counts).length + 1
  ((List.range' least (maxWidth + 1 - least)).map fun width => Plan.of width counts).foldl
    (fun best plan =>
      match best.total? counts, plan.total? counts with
      | some fewer, some total => if total < fewer then plan else best
      | none, some _ => plan
      | _, none => best)
    (Plan.of maxWidth counts)

/-- The plan for a text.  With enough care several widths are compared, and
otherwise the width follows from the text's size. -/
def Plan.ofCounts (careful : Bool) (counts : Array Nat) : Plan :=
  if careful then .least counts
  else
    let size := counts.foldl (· + ·) 0
    .of (suitableLogarithm maxWidth 1 size counts.size) counts

/-- The bytes whose symbols are a text. -/
def Plan.encode (plan : Plan) (text : Bytes) : Bytes :=
  BitString.toBackward (text.flatMap fun byte => plan.words.getD byte.toNat [])

end PrefixCode
end Zstandard
end EventRelay
