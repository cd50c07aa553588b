import EventRelay.Bytes

/-!
# Text from bytes that may not be text

Bytes are read as UTF-8.  Where they are not well formed, every maximal run of
bytes that begins some well-formed character, and every byte that begins none,
is shown as one replacement character.
-/

namespace EventRelay
namespace Lossy

/-- The sign shown in place of bytes that form no character. -/
def replacement : Char := Char.ofNat 0xFFFD

/-- What the first byte of a longer character lays down about the rest of it. -/
structure Lead where
  /-- The number of bytes that follow. -/
  following : Nat
  /-- The bits of the character that the first byte holds. -/
  bits : Nat
  /-- The least admissible second byte. -/
  least : Nat
  /-- The greatest admissible second byte. -/
  greatest : Nat

/-- The first bytes of characters of two, three and four bytes.  The bounds on
the second byte exclude overlong forms, surrogates and numbers past the last
character. -/
def lead? (byte : UInt8) : Option Lead :=
  let code := byte.toNat
  if code < 0xC2 then none
  else if code < 0xE0 then some ⟨1, code - 0xC0, 0x80, 0xBF⟩
  else if code = 0xE0 then some ⟨2, 0, 0xA0, 0xBF⟩
  else if code = 0xED then some ⟨2, 0xD, 0x80, 0x9F⟩
  else if code < 0xF0 then some ⟨2, code - 0xE0, 0x80, 0xBF⟩
  else if code = 0xF0 then some ⟨3, 0, 0x90, 0xBF⟩
  else if code < 0xF4 then some ⟨3, code - 0xF0, 0x80, 0xBF⟩
  else if code = 0xF4 then some ⟨3, 4, 0x80, 0x8F⟩
  else none

/-- Read the bytes that follow a first byte.  The result holds the character's
number, or nothing when an inadmissible byte or the end comes first, and the
bytes left over. -/
def follow :
    (count least greatest bits : Nat) → Bytes → Option Nat × Bytes
  | 0, _, _, bits, rest => (some bits, rest)
  | _ + 1, _, _, _, [] => (none, [])
  | count + 1, least, greatest, bits, byte :: rest =>
      if least ≤ byte.toNat ∧ byte.toNat ≤ greatest then
        follow count 0x80 0xBF (bits * 64 + (byte.toNat - 0x80)) rest
      else (none, byte :: rest)

theorem length_follow_le
    (count least greatest bits : Nat)
    (bytes : Bytes) :
    (follow count least greatest bits bytes).2.length ≤ bytes.length := by
  fun_induction follow count least greatest bits bytes with
  | case1 => exact Nat.le_refl _
  | case2 => exact Nat.le_refl _
  | case3 count least greatest bits byte rest _ inductionHypothesis =>
      exact Nat.le_succ_of_le inductionHypothesis
  | case4 => exact Nat.le_refl _

/-- The characters shown for a byte string. -/
def characters : Bytes → List Char
  | [] => []
  | byte :: rest =>
      if byte < 0x80 then
        Char.ofNat byte.toNat :: characters rest
      else
        match lead? byte with
        | none => replacement :: characters rest
        | some lead =>
            let read := follow lead.following lead.least lead.greatest lead.bits rest
            match read.1 with
            | some number => Char.ofNat number :: characters read.2
            | none => replacement :: characters read.2
  termination_by bytes => bytes.length
  decreasing_by
    · exact Nat.lt_succ_self _
    · exact Nat.lt_succ_self _
    · exact Nat.lt_succ_of_le (length_follow_le _ _ _ _ rest)
    · exact Nat.lt_succ_of_le (length_follow_le _ _ _ _ rest)

/-- The text shown for a byte string. -/
def text (bytes : Bytes) : String :=
  String.ofList (characters bytes)

end Lossy
end EventRelay
