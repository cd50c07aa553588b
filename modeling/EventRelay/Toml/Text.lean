import EventRelay.Text.Hex
import EventRelay.Toml.Scanner
import EventRelay.Toml.Value

/-!
# Strings and keys of a TOML document

A string stands between double quotes, where a backslash starts an escape, or
between single quotes, where it does not.  Three quotes open a string that may
go over several lines; a line end right after them does not belong to the
string, and every line end inside is taken as a line feed.
-/

namespace EventRelay
namespace Toml
namespace Reader

/-- The character of a hexadecimal code of a fixed number of digits. -/
def coded (width : Nat) : Reader Char := fun text =>
  match (text.take width).mapM Hex.value? with
  | some digits =>
      let code := digits.foldl (fun code digit => code * 16 + digit) 0
      if digits.length = width ∧ Nat.isValidChar code then
        some (Char.ofNat code, text.drop width)
      else none
  | none => none

/-- The character of an escape, after its backslash. -/
def escaped : Reader Char := do
  let letter ← character fun _ => true
  if letter = quote || letter = backslash then return letter
  else if letter = 'b' then return Char.ofNat 0x08
  else if letter = 'f' then return Char.ofNat 0x0C
  else if letter = 'n' then return lineFeed
  else if letter = 'r' then return carriageReturn
  else if letter = 't' then return Char.ofNat 0x09
  else if letter = 'u' then coded 4
  else if letter = 'U' then coded 8
  else failure

/-- What stands for itself in a string between quotes of a kind. -/
def plain (delimiter : Char) : Reader Char :=
  character fun shown =>
    isPrintable shown && shown ≠ delimiter && !(delimiter = quote && shown = backslash)

/-- The text of a string on one line, after its opening quote. -/
def lineString (delimiter : Char) : Reader String := do
  let characters ← sequence do
    if ← word? [delimiter] then return none
    else if delimiter = quote then
      if ← word? [backslash] then return some (← escaped)
      else return some (← plain delimiter)
    else return some (← plain delimiter)
  return String.ofList characters

/-- Skip a line end after a backslash with all blanks and line ends around it. -/
def joinedLines : Reader Unit := do
  blanks
  if ← lineEnd? then
    let _ ← sequence do
      if ← lineEnd? then return some ()
      else if (← run isBlank).isEmpty then return none
      else return some ()
  else failure

/-- One piece of a string over several lines, unless its end is ahead. -/
def longPiece? (delimiter : Char) : Reader (Option (List Char)) := do
  if ← ahead [delimiter, delimiter, delimiter] then return none
  else if ← word? [delimiter] then return some [delimiter]
  else if ← lineEnd? then return some [lineFeed]
  else if delimiter = quote then
    if ← word? [backslash] then
      match ← optional joinedLines with
      | some () => return some []
      | none => return some [← escaped]
    else return some [← plain delimiter]
  else return some [← plain delimiter]

/-- The text of a string over several lines, after its opening quotes.  The
last three quotes close it, and up to two before them belong to it. -/
def longString (delimiter : Char) : Reader String := do
  let _ ← lineEnd?
  let pieces ← sequence (longPiece? delimiter)
  let quotes ← run fun shown => shown = delimiter
  if 5 < quotes.length then failure
  return String.ofList (pieces.flatten ++ quotes.drop 3)

/-- A string of any kind. -/
def string : Reader String := do
  if ← word? [quote, quote, quote] then longString quote
  else if ← word? [quote] then lineString quote
  else if ← word? [apostrophe, apostrophe, apostrophe] then longString apostrophe
  else
    word [apostrophe]
    lineString apostrophe

/-! ## Keys -/

/-- Whether a character may stand in a key without quotes. -/
def isBare (character : Char) : Bool :=
  let code := character.toNat
  isDigit character || (65 ≤ code && code ≤ 90) || (97 ≤ code && code ≤ 122) ||
    character = '_' || character = '-'

/-- One part of a key. -/
def keyPart : Reader String := do
  if ← word? [quote] then lineString quote
  else if ← word? [apostrophe] then lineString apostrophe
  else
    let characters ← run isBare
    if characters.isEmpty then failure
    return String.ofList characters

/-- One part of a key with blanks around it. -/
def spacedKeyPart : Reader String := do
  blanks
  let part ← keyPart
  blanks
  return part

/-- The number of parts that a key must not reach. -/
def keyLimit : Nat := 80

/-- A key: parts with points between them. -/
def key : Reader Path := do
  let first ← spacedKeyPart
  let others ← sequence do
    if ← word? ['.'] then return some (← spacedKeyPart)
    else return none
  let parts := first :: others
  if keyLimit ≤ parts.length then failure
  return ⟨parts.dropLast, others.getLastD first⟩

end Reader
end Toml
end EventRelay
