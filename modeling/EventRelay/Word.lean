/-!
# Words of 64 bits

A number is a word only if 64 bits hold it.  Words are added one after the other as
long as their sum is a word.
-/

namespace EventRelay
namespace Word

/-- Why a number cannot be computed as a word. -/
inductive Overflow where
  /-- A sum is not a word. -/
  | sum
deriving DecidableEq, Repr

/-- The text of the overflow. -/
def Overflow.message : Overflow → String
  | .sum => "attempt to add with overflow"

/-- A sum as a word. -/
def ofSum (value : Nat) : Except Overflow UInt64 :=
  if value < UInt64.size then .ok (.ofNat value) else .error .sum

theorem ofSum_toNat (word : UInt64) : ofSum word.toNat = .ok word := by
  rw [ofSum, if_pos word.toNat_lt_size, UInt64.ofNat_toNat]

/-- The sum of two words. -/
def add (left right : UInt64) : Except Overflow UInt64 :=
  ofSum (left.toNat + right.toNat)

/-- The sum of words, added up in order. -/
def sum (words : List UInt64) : Except Overflow UInt64 :=
  words.foldlM add 0

end Word
end EventRelay
