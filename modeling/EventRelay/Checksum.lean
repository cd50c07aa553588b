import EventRelay.Bytes

/-!
# The CRC-32C checksum

The 32-bit cyclic redundancy code CRC-32C in its reflected form: the register is
shifted towards its low end, starts with every bit set, and is complemented at
the end.  Each byte is absorbed by eight single-bit shifts, so the register after
any input is obtained by iterating one linear map.
-/

namespace EventRelay
namespace Checksum

/-- The reflected polynomial of the code without its leading term. -/
def polynomial : UInt32 := 0x82F63B78

/-- Divide the register by the formal variable, reducing by the polynomial. -/
def shift (register : UInt32) : UInt32 :=
  if register &&& 1 = 0 then register >>> 1
  else (register >>> 1) ^^^ polynomial

/-- Apply `shift` a given number of times. -/
def shifts : (count : Nat) → UInt32 → UInt32
  | 0, register => register
  | count + 1, register => shifts count (shift register)

/-- Take one byte into the register. -/
def absorb (register : UInt32) (byte : UInt8) : UInt32 :=
  shifts 8 (register ^^^ byte.toUInt32)

/-- The register after a byte string, from a given register. -/
def run (register : UInt32) (bytes : Bytes) : UInt32 :=
  bytes.foldl absorb register

/-- The checksum of a byte string. -/
def crc32c (bytes : Bytes) : UInt32 :=
  run 0xFFFFFFFF bytes ^^^ 0xFFFFFFFF

@[simp] theorem run_nil (register : UInt32) :
    run register [] = register :=
  rfl

@[simp] theorem run_cons (register : UInt32) (byte : UInt8) (rest : Bytes) :
    run register (byte :: rest) = run (absorb register byte) rest :=
  rfl

@[simp] theorem run_append (register : UInt32) (left right : Bytes) :
    run register (left ++ right) = run (run register left) right := by
  simp [run]

end Checksum
end EventRelay
