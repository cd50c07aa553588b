import EventRelay.Zstandard.PrefixCode

/-!
# Literals of a block

The first part of a compressed block holds the bytes that are not copied from
earlier ones.  They are stored as they are, as one repeated byte, or in a
prefix code, which is either described in front of them or the one of an
earlier block.
-/

namespace EventRelay
namespace Zstandard

/-- The greatest number of bytes that a block stands for. -/
def maxBlockSize : Nat := 131072

/-- What bounds the bytes that a block stands for. -/
structure Room where
  /-- The number of bytes before the block. -/
  start : Nat
  /-- The greatest number of bytes that a block of the frame stands for. -/
  limit : Nat
  /-- The number of bytes that can be added. -/
  free : Nat
  /-- Whether the frame is taken at once. -/
  atOnce : Bool

namespace Literals

/-- How literals are stored. -/
inductive Storage where
  /-- As they are. -/
  | plain
  /-- As one byte that is repeated. -/
  | repeated
  /-- In a prefix code that is described in front of them. -/
  | coded
  /-- In the prefix code of an earlier block. -/
  | recoded
deriving DecidableEq, Repr

/-- The storage with a given number. -/
def Storage.ofBits (number : Nat) : Storage :=
  match number with
  | 0 => .plain
  | 1 => .repeated
  | 2 => .coded
  | _ => .recoded

/-- What precedes the literals. -/
structure Header where
  /-- How the literals are stored. -/
  storage : Storage
  /-- The number of literals. -/
  count : Nat
  /-- The number of bytes in which they are stored, unless they are stored as
  they are. -/
  stored : Nat
  /-- Whether coded literals are stored in four parts. -/
  parted : Bool

/-- The fields of literals that are not coded: a count after the low bits of
the header. -/
def readPlain? (storage : Storage) (size shift : Nat) (bytes : Bytes) :
    Option (Header × Bytes) := do
  let (field, rest) ← Bytes.split? size bytes
  let count := Bytes.toNatLE field >>> shift
  let stored := if storage = .repeated then 1 else 0
  return ({ storage := storage, count := count, stored := stored, parted := false }, rest)

/-- The fields of coded literals: two counts of the same width. -/
def readCoded? (storage : Storage) (parted : Bool) (size width : Nat) (bytes : Bytes) :
    Option (Header × Bytes) := do
  let (field, rest) ← Bytes.split? size bytes
  let fields := Bytes.toNatLE field / 16
  let count := fields % (1 <<< width)
  let stored := fields >>> width % (1 <<< width)
  return ({ storage := storage, count := count, stored := stored, parted := parted }, rest)

/-- Read what precedes the literals.  The two lowest bits tell the storage and
the next two the size of the header. -/
def readHeader? : Bytes → Option (Header × Bytes)
  | [] => none
  | first :: rest =>
      let storage := Storage.ofBits (first.toNat % 4)
      let format := first.toNat / 4 % 4
      let bytes := first :: rest
      if storage = .plain ∨ storage = .repeated then
        if format % 2 = 0 then readPlain? storage 1 3 bytes
        else if format = 1 then readPlain? storage 2 4 bytes
        else readPlain? storage 3 4 bytes
      else
        if format = 0 then readCoded? storage false 3 10 bytes
        else if format = 1 then readCoded? storage true 3 10 bytes
        else if format = 2 then readCoded? storage true 4 14 bytes
        else readCoded? storage true 5 18 bytes

/-- Read literals from four texts.  The sizes of the first three stand in
front, and each of them holds a fourth of the literals, rounded up. -/
def readParts? (code : PrefixCode) (count : Nat) (bytes : Bytes) : Option Bytes := do
  let (sizes, rest) ← Bytes.split? 6 bytes
  let (first, rest) ← Bytes.split? (Bytes.toNatLE (sizes.take 2)) rest
  let (second, rest) ← Bytes.split? (Bytes.toNatLE ((sizes.drop 2).take 2)) rest
  let (third, fourth) ← Bytes.split? (Bytes.toNatLE (sizes.drop 4)) rest
  let share := (count + 3) / 4
  if count < 3 * share then none
  let first ← code.symbols? share first
  let second ← code.symbols? share second
  let third ← code.symbols? share third
  let fourth ← code.symbols? (count - 3 * share) fourth
  return first ++ second ++ third ++ fourth

/-- Read literals in a prefix code. -/
def readCodedText? (code : PrefixCode) (header : Header) (bytes : Bytes) : Option Bytes :=
  if header.parted then readParts? code header.count bytes
  else code.symbols? header.count bytes

/-- The least number of literals in four texts. -/
def leastInParts : Nat := 6

/-- Read what precedes the literals of a block, and check whether they fit.
The literals are in the code of an earlier block only if there is one. -/
def readFitting (room : Room) (earlier : Option PrefixCode) (bytes : Bytes) :
    Except Fault (Header × Bytes) := do
  require (2 ≤ bytes.length)
  let storage := Storage.ofBits ((bytes.headD 0).toNat % 4)
  if storage = .recoded ∧ earlier.isNone then .error .codeMissing
  require (storage = .plain ∨ storage = .repeated ∨ 5 ≤ bytes.length)
  let (header, rest) ← orCorrupt (readHeader? bytes)
  require (header.count ≤ room.limit)
  if header.parted ∧ header.count < leastInParts then .error .wrongLiterals
  require (header.stored ≤ rest.length)
  if room.free < header.count then .error .outOfRoom
  return (header, rest)

/-- Read the literals after what precedes them.  The result also holds the
prefix code for later blocks and the rest of the block. -/
def readStored? (earlier : Option PrefixCode) (header : Header) (bytes : Bytes) :
    Option (Bytes × Option PrefixCode × Bytes) := do
  match header.storage with
  | .plain =>
      let (literals, rest) ← Bytes.split? header.count bytes
      return (literals, earlier, rest)
  | .repeated =>
      let (stored, rest) ← Bytes.split? header.stored bytes
      return (stored.flatMap (List.replicate header.count), earlier, rest)
  | .coded =>
      let (stored, rest) ← Bytes.split? header.stored bytes
      let (code, text) ← PrefixCode.read? stored
      return (← readCodedText? code header text, some code, rest)
  | .recoded =>
      let (stored, rest) ← Bytes.split? header.stored bytes
      let code ← earlier
      return (← readCodedText? code header stored, earlier, rest)

/-- Read the literals of a block. -/
def read (room : Room) (earlier : Option PrefixCode) (bytes : Bytes) :
    Except Fault (Bytes × Option PrefixCode × Bytes) := do
  let (header, rest) ← readFitting room earlier bytes
  orCorrupt (readStored? earlier header rest)

end Literals
end Zstandard
end EventRelay
