import EventRelay.Text.Hex
import EventRelay.Text.Printable

/-!
# Quoted text

The form in which a message shows a text: between double quotes, with quotes,
backslashes and characters without a shape of their own escaped.
-/

namespace EventRelay
namespace Quoted

/-- An escaped character: a backslash and a letter. -/
def escape (letter : Char) : List Char :=
  [Char.ofNat 0x5C, letter]

/-- The form of one character. -/
def character (shown : Char) : List Char :=
  let code := shown.toNat
  if code = 0 then escape '0'
  else if code = 9 then escape 't'
  else if code = 10 then escape 'n'
  else if code = 13 then escape 'r'
  else if code = 0x22 || code = 0x5C then escape shown
  else if Printable.isPrintable shown then [shown]
  else escape 'u' ++ [Char.ofNat 0x7B] ++ (Hex.plain code).toList ++ [Char.ofNat 0x7D]

/-- The quoted form of a text. -/
def text (shown : String) : String :=
  "\"" ++ String.ofList (shown.toList.flatMap character) ++ "\""

end Quoted
end EventRelay
