import EventRelay.Disk.Basic

/-!
# Names of segment files

A log is stored in numbered segments.  The file of a segment is named by its
number, filled up with zeros to six digits.  When segments are looked for, a
number may be written with any filling and with a plus sign, so one number may
be found more than once.
-/

namespace EventRelay
namespace Segment

/-- A number in decimal, filled up with zeros on the left. -/
def padded (width number : Nat) : String :=
  let digits := toString number
  String.ofList (List.replicate (width - digits.length) '0') ++ digits

/-- The name of the file of a segment. -/
def name (segment : Nat) : String :=
  "wal-" ++ padded 6 segment ++ ".log"

/-- Take an expected beginning off a text. -/
def dropFront? : (front text : List Char) → Option (List Char)
  | [], text => some text
  | _ :: _, [] => none
  | expected :: front, character :: text =>
      if expected = character then dropFront? front text else none

/-- Take an expected end off a text. -/
def dropEnd? (tail text : List Char) : Option (List Char) :=
  (dropFront? tail.reverse text.reverse).map List.reverse

/-- Whether a character is a decimal digit. -/
def isDigit (character : Char) : Bool :=
  decide ('0' ≤ character ∧ character ≤ '9')

/-- The number that decimal digits stand for. -/
def number (digits : List Char) : Nat :=
  digits.foldl (fun number digit => number * 10 + (digit.toNat - 48)) 0

/-- The 64-bit number of a text: digits, perhaps after a plus sign. -/
def word? (text : List Char) : Option Nat :=
  let digits := (dropFront? ['+'] text).getD text
  if digits.isEmpty || !digits.all isDigit || decide (0x10000000000000000 ≤ number digits) then none
  else some (number digits)

/-- The segment that a file name stands for, if it is one of a segment. -/
def ofName? (name : String) : Option Nat := do
  let rest ← dropFront? "wal-".toList name.toList
  let digits ← dropEnd? ".log".toList rest
  word? digits

/-- The segments of the files in the directory, in ascending order. -/
def discover (disk : Disk) : List Nat :=
  (disk.listing.filterMap ofName?).mergeSort (· ≤ ·)

end Segment
end EventRelay
