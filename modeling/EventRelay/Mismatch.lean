import EventRelay.Binary64.Shortest
import EventRelay.Text.Quoted

/-!
# Values that are not of the expected kind

A document reader that meets a value of the wrong kind says what it found and
what it expected there.  The two document formats spell binary numbers
differently, so the spelling is a parameter of the message.
-/

namespace EventRelay

/-- What a reader found. -/
inductive Found where
  /-- The null value. -/
  | null
  /-- A truth value. -/
  | boolean (value : Bool)
  /-- A whole number. -/
  | integer (value : Int)
  /-- A binary number. -/
  | floating (value : Binary64)
  /-- A text. -/
  | text (value : String)
  /-- A sequence of values. -/
  | sequence
  /-- A table of values. -/
  | map
deriving DecidableEq, Repr

/-- The words for what was found. -/
def Found.words (floatText : Binary64 → String) : Found → String
  | .null => "null"
  | .boolean value => "boolean `" ++ (if value then "true" else "false") ++ "`"
  | .integer value => "integer `" ++ toString value ++ "`"
  | .floating value => "floating point `" ++ floatText value ++ "`"
  | .text value => "string " ++ Quoted.text value
  | .sequence => "sequence"
  | .map => "map"

/-- Why a well-formed value cannot be taken. -/
inductive Mismatch where
  /-- The value is of another kind. -/
  | kind (found : Found) (expected : String)
  /-- The value is of the right kind but out of range. -/
  | value (found : Found) (expected : String)
  /-- A field comes twice. -/
  | duplicateField (name : String)
  /-- A field is absent. -/
  | missingField (name : String)
  /-- A sequence of fields is too short. -/
  | shortSequence (length : Nat) (expected : String)
  /-- A name is none of the admissible ones. -/
  | unknownName (name : String) (admissible : List String)
  /-- The value breaks a rule of its own type. -/
  | rule (message : String)
deriving DecidableEq, Repr

/-- A name between backquotes. -/
def backquoted (name : String) : String :=
  "`" ++ name ++ "`"

/-- The text of the mismatch. -/
def Mismatch.message (floatText : Binary64 → String) : Mismatch → String
  | .kind found expected =>
      "invalid type: " ++ found.words floatText ++ ", expected " ++ expected
  | .value found expected =>
      "invalid value: " ++ found.words floatText ++ ", expected " ++ expected
  | .duplicateField name => "duplicate field " ++ backquoted name
  | .missingField name => "missing field " ++ backquoted name
  | .shortSequence length expected =>
      "invalid length " ++ toString length ++ ", expected " ++ expected
  | .unknownName name admissible =>
      "unknown variant " ++ backquoted name ++ ", expected one of " ++
        ", ".intercalate (admissible.map backquoted)
  | .rule message => message

end EventRelay
