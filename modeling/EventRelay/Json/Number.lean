import EventRelay.Json.Scanner

/-!
# Numbers in JSON text

A number without fraction and exponent that fits a 64-bit word is read as that
word.  Every other number is read as a binary one: its digits are gathered into
one word, digits that do not fit are dropped, and the word is scaled by one
power of ten.  A number that would be infinite is malformed.
-/

namespace EventRelay
namespace Json

/-- A number read from a document. -/
inductive Number where
  /-- A number from zero up. -/
  | word (value : Nat)
  /-- A whole number below zero. -/
  | negative (value : Int)
  /-- A number with a fraction or an exponent, or too large for a word. -/
  | floating (value : Binary64)
deriving DecidableEq, Repr

/-- What a number is when it is not what was expected. -/
def Number.found : Number → Found
  | .word value => .integer value
  | .negative value => .integer value
  | .floating value => .floating value

/-- The number that a digit stands for. -/
def digitValue (character : Char) : Nat :=
  character.toNat - 48

/-- Gather digits while the number fits a 64-bit word.  The result holds the
number, how many digits were gathered, and the rest. -/
def gather : (significand count : Nat) → List Char → Nat × Nat × List Char
  | significand, count, [] => (significand, count, [])
  | significand, count, character :: rest =>
      let extended := significand * 10 + digitValue character
      if isDigit character && decide (extended < 0x10000000000000000) then
        gather extended (count + 1) rest
      else (significand, count, character :: rest)

/-- Divide by powers of ten until the exponent is at least -308. -/
def scaleDown : (fuel : Nat) → Binary64 → (exponent : Nat) → Binary64
  | 0, value, _ => value
  | fuel + 1, value, exponent =>
      if exponent ≤ 308 then value.divide (.ofDecimal false 1 exponent)
      else scaleDown fuel (value.divide (.ofDecimal false 1 308)) (exponent - 308)

/-- A word times a power of ten.  Three divisions by the greatest power bring
every word to zero. -/
def scaled (significand : Nat) (exponent : Int) : Except Fault Binary64 :=
  let value := Binary64.ofNat significand
  if significand = 0 then .ok value
  else if exponent < 0 then .ok (scaleDown 4 value (-exponent).toNat)
  else if 308 < exponent then .error .malformed
  else
    match value.multiply (.ofDecimal false 1 exponent) with
    | .finite negative significand exponent => .ok (.finite negative significand exponent)
    | _ => .error .malformed

/-- A binary number of a given sign. -/
def withSign (negative : Bool) : Binary64 → Binary64
  | .finite _ significand exponent => .finite negative significand exponent
  | other => other

/-- A scaled word with its sign and the rest of the text. -/
def finishFloating
    (negative : Bool)
    (significand : Nat)
    (exponent : Int)
    (rest : List Char) : Except Fault (Number × List Char) :=
  match scaled significand exponent with
  | .error fault => .error fault
  | .ok value => .ok (.floating (withSign negative value), rest)

/-- The number that a run of digits stands for. -/
def digitsValue (digits : List Char) : Nat :=
  digits.foldl (fun total character => total * 10 + digitValue character) 0

/-- Read an exponent after its letter. -/
def readExponent
    (negative : Bool)
    (significand : Nat)
    (exponent : Int)
    (text : List Char) : Except Fault (Number × List Char) :=
  let lowered := match text with
    | '-' :: _ => true
    | _ => false
  let unsigned := match text with
    | '-' :: rest => rest
    | '+' :: rest => rest
    | _ => text
  match unsigned with
  | [] => .error .cutOff
  | first :: _ =>
      if isDigit first then
        let size := digitsValue (unsigned.takeWhile isDigit)
        let rest := unsigned.dropWhile isDigit
        if 0x80000000 ≤ size then
          if significand ≠ 0 && !lowered then .error .malformed
          else finishFloating negative 0 0 rest
        else
          finishFloating negative significand
            (if lowered then exponent - size else exponent + size) rest
      else .error .malformed

/-- Read an exponent if there is one, and end the number. -/
def readTail
    (negative : Bool)
    (significand : Nat)
    (exponent : Int)
    (text : List Char) : Except Fault (Number × List Char) :=
  match text with
  | 'e' :: rest => readExponent negative significand exponent rest
  | 'E' :: rest => readExponent negative significand exponent rest
  | _ => finishFloating negative significand exponent text

/-- Read a fraction after its point, which at least one digit must follow. -/
def readFraction
    (negative : Bool)
    (significand : Nat)
    (exponent : Int)
    (text : List Char) : Except Fault (Number × List Char) :=
  match text with
  | [] => .error .cutOff
  | first :: _ =>
      if isDigit first then
        let gathered := gather significand 0 text
        readTail negative gathered.1 (exponent - gathered.2.1)
          (gathered.2.2.dropWhile isDigit)
      else .error .malformed

/-- A whole number of a given sign.  There is no negative zero among them, and
none below the least signed 64-bit number. -/
def whole (negative : Bool) (significand : Nat) : Number :=
  if negative then
    if 0 < significand ∧ significand ≤ 0x8000000000000000 then .negative (-(significand : Int))
    else .floating (withSign true (.ofNat significand))
  else .word significand

/-- Read what follows the whole part of a number. -/
def readAfterWhole
    (negative : Bool)
    (significand : Nat)
    (text : List Char) : Except Fault (Number × List Char) :=
  match text with
  | '.' :: rest => readFraction negative significand 0 rest
  | 'e' :: rest => readExponent negative significand 0 rest
  | 'E' :: rest => readExponent negative significand 0 rest
  | _ => .ok (whole negative significand, text)

/-- Read a number after its sign. -/
def readUnsigned (negative : Bool) (text : List Char) : Except Fault (Number × List Char) :=
  match text with
  | [] => .error .cutOff
  | '0' :: rest =>
      match rest with
      | next :: _ => if isDigit next then .error .malformed else readAfterWhole negative 0 rest
      | [] => readAfterWhole negative 0 rest
  | first :: _ =>
      if isDigit first then
        let gathered := gather 0 0 text
        let dropped := gathered.2.2.takeWhile isDigit
        let rest := gathered.2.2.dropWhile isDigit
        if dropped.isEmpty then readAfterWhole negative gathered.1 rest
        else
          match rest with
          | '.' :: fraction => readFraction negative gathered.1 dropped.length fraction
          | _ => readTail negative gathered.1 dropped.length rest
      else .error .malformed

/-- Read a number. -/
def readNumber (text : List Char) : Except Fault (Number × List Char) :=
  match text with
  | '-' :: rest => readUnsigned true rest
  | _ => readUnsigned false text

/-- What stands at the front of a text that holds another value than expected.
Lists and objects are not looked into. -/
def found (text : List Char) : Except Fault Found :=
  match text with
  | [] => .error .malformed
  | first :: rest =>
      if first = 'n' then (readWord ['u', 'l', 'l'] rest).map fun _ => .null
      else if first = 't' then (readWord ['r', 'u', 'e'] rest).map fun _ => .boolean true
      else if first = 'f' then (readWord ['a', 'l', 's', 'e'] rest).map fun _ => .boolean false
      else if first = quote then
        (readString rest).map fun result => .text (String.ofList result.1)
      else if first = '[' then .ok .sequence
      else if first = openBrace then .ok .map
      else if first = '-' || isDigit first then
        (readNumber text).map fun result => result.1.found
      else .error .malformed

/-- The fault of a value of another kind than expected. -/
def unexpected (expected : String) (text : List Char) : Fault :=
  match found text with
  | .ok found => .mismatch (.kind found expected)
  | .error fault => fault

end Json
end EventRelay
