/-!
# Scanning TOML text

A reader takes something off the front of a text or fails.  This module holds
the readers of single characters, blanks, comments and line ends, and the
repetition of a reader up to the end of a sequence.
-/

namespace EventRelay
namespace Toml

/-- A reader takes a value off the front of a text and leaves the rest. -/
abbrev Reader := StateT (List Char) Option

namespace Reader

/-- The next character, which stays in the text. -/
def peek? : Reader (Option Char) := fun text =>
  some (text.head?, text)

/-- Take one character that passes a test. -/
def character (test : Char → Bool) : Reader Char := fun text =>
  match text with
  | first :: rest => if test first then some (first, rest) else none
  | [] => none

/-- Take all characters up to the first one that fails a test. -/
def run (test : Char → Bool) : Reader (List Char) := fun text =>
  some (text.takeWhile test, text.dropWhile test)

/-- Take a fixed word. -/
def word (expected : List Char) : Reader Unit := fun text =>
  if expected.isPrefixOf text then some ((), text.drop expected.length) else none

/-- Whether a fixed word was there and has been taken. -/
def word? (expected : List Char) : Reader Bool := fun text =>
  if expected.isPrefixOf text then some (true, text.drop expected.length) else some (false, text)

/-- Whether a fixed word is there. -/
def ahead (expected : List Char) : Reader Bool := fun text =>
  some (expected.isPrefixOf text, text)

/-- Take something, or nothing where that fails. -/
def optional (reader : Reader α) : Reader (Option α) := fun text =>
  match reader text with
  | some (value, rest) => some (some value, rest)
  | none => some (none, text)

/-- Repeat a reader until it says that the sequence is over. -/
def repeatWithin (step : Reader (Option α)) : (rounds : Nat) → Reader (List α)
  | 0 => failure
  | rounds + 1 => do
      match ← step with
      | none => return []
      | some item => return item :: (← repeatWithin step rounds)

/-- Repeat a reader until it says that the sequence is over.  Every item takes
at least one character, so there are no more rounds than characters and one. -/
def sequence (step : Reader (Option α)) : Reader (List α) := fun text =>
  repeatWithin step (text.length + 1) text

/-- Take what a reader takes when it takes all of a text. -/
def readAll? (reader : Reader α) (text : List Char) : Option α :=
  match reader text with
  | some (value, []) => some value
  | _ => none

end Reader

/-- The double quote. -/
def quote : Char := Char.ofNat 0x22

/-- The single quote. -/
def apostrophe : Char := Char.ofNat 0x27

/-- The backslash. -/
def backslash : Char := Char.ofNat 0x5C

/-- The opening brace. -/
def openBrace : Char := Char.ofNat 0x7B

/-- The closing brace. -/
def closeBrace : Char := Char.ofNat 0x7D

/-- The line feed. -/
def lineFeed : Char := Char.ofNat 0x0A

/-- The carriage return. -/
def carriageReturn : Char := Char.ofNat 0x0D

/-- Whether a character separates tokens of a line. -/
def isBlank (character : Char) : Bool :=
  character.toNat = 0x20 || character.toNat = 0x09

/-- Whether a character may stand in a comment and in every kind of string: no
control character but the tab. -/
def isPrintable (character : Char) : Bool :=
  character.toNat = 0x09 || (0x20 ≤ character.toNat && character.toNat ≠ 0x7F)

/-- Whether a character is a decimal digit. -/
def isDigit (character : Char) : Bool :=
  48 ≤ character.toNat && character.toNat ≤ 57

namespace Reader

/-- Skip blanks. -/
def blanks : Reader Unit := do
  let _ ← run isBlank

/-- Take a line end if there is one. -/
def lineEnd? : Reader Bool := do
  if ← word? [lineFeed] then return true
  else word? [carriageReturn, lineFeed]

/-- Skip a comment, up to the end of its line, if there is one. -/
def comment? : Reader Bool := do
  if ← word? ['#'] then
    let _ ← run isPrintable
    return true
  else return false

/-- Take the end of a line, or find the end of the text. -/
def endOfLine : Reader Unit := do
  if ← lineEnd? then return
  match ← peek? with
  | none => return
  | some _ => failure

/-- Skip the rest of a line that holds nothing more. -/
def restOfLine : Reader Unit := do
  blanks
  let _ ← comment?
  endOfLine

/-- Skip a stretch of blanks, line ends and comments. -/
def filler : Reader Unit := do
  let _ ← sequence do
    if ← lineEnd? then return some ()
    else if ← comment? then
      endOfLine
      return some ()
    else if (← run isBlank).isEmpty then return none
    else return some ()

end Reader
end Toml
end EventRelay
