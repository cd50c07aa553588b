import EventRelay.Mismatch

/-!
# Scanning JSON text

The lexical parts of a JSON document, read from the front of a list of
characters: blanks, fixed words, strings with their escapes, and whole values
that are only skipped.  Skipping checks the shape of a value but not the
numbers and characters that it stands for, and nests to any depth.  Every
scanner that takes a value returns a shorter rest.
-/

namespace EventRelay
namespace Json

/-- Why a document cannot be read. -/
inductive Fault where
  /-- The text ends inside the document. -/
  | cutOff
  /-- The text is no JSON document. -/
  | malformed
  /-- The document is well formed up to a value that cannot be taken. -/
  | mismatch (cause : Mismatch)
deriving DecidableEq, Repr

/-- Whether a character may stand between two tokens. -/
def isBlank (character : Char) : Bool :=
  character = ' ' || character = '\n' || character = '\t' || character = '\r'

/-- The text without its leading blanks. -/
def skipBlanks (text : List Char) : List Char :=
  text.dropWhile isBlank

theorem length_skipBlanks_le (text : List Char) :
    (skipBlanks text).length ≤ text.length :=
  (List.dropWhile_suffix isBlank).length_le

theorem length_le_of_skipBlanks_eq
    {text trimmed : List Char}
    (skipped : skipBlanks text = trimmed) :
    trimmed.length ≤ text.length :=
  skipped ▸ length_skipBlanks_le text

theorem length_lt_of_skipBlanks_eq_cons
    {text rest : List Char}
    {character : Char}
    (skipped : skipBlanks text = character :: rest) :
    rest.length < text.length :=
  length_le_of_skipBlanks_eq skipped

/-- The backslash. -/
def backslash : Char := Char.ofNat 0x5C

/-- The double quote. -/
def quote : Char := Char.ofNat 0x22

/-- The opening brace. -/
def openBrace : Char := Char.ofNat 0x7B

/-- The closing brace. -/
def closeBrace : Char := Char.ofNat 0x7D

/-- Read the rest of a fixed word. -/
def readWord : (word text : List Char) → Except Fault (List Char)
  | [], text => .ok text
  | _ :: _, [] => .error .cutOff
  | expected :: word, character :: text =>
      if expected = character then readWord word text else .error .malformed

theorem length_readWord_le
    {word text rest : List Char}
    (read : readWord word text = .ok rest) :
    rest.length ≤ text.length := by
  induction word generalizing text with
  | nil =>
      cases read
      exact Nat.le_refl _
  | cons expected word inductionHypothesis =>
      cases text with
      | nil => cases read
      | cons character text =>
          unfold readWord at read
          split at read
          · exact Nat.le_succ_of_le (inductionHypothesis read)
          · cases read

/-! ## Strings -/

/-- Read four hexadecimal digits.  A text that ends within four bytes is cut
off, whatever stands there. -/
def readFourDigits : List Char → Except Fault (Nat × List Char)
  | first :: second :: third :: fourth :: rest =>
      match Hex.value? first, Hex.value? second, Hex.value? third, Hex.value? fourth with
      | some a, some b, some c, some d => .ok (((a * 16 + b) * 16 + c) * 16 + d, rest)
      | _, _, _, _ => .error .malformed
  | text => .error (if (String.ofList text).utf8ByteSize < 4 then .cutOff else .malformed)

theorem length_readFourDigits_lt
    {text rest : List Char}
    {number : Nat}
    (read : readFourDigits text = .ok (number, rest)) :
    rest.length < text.length := by
  unfold readFourDigits at read
  split at read
  · split at read
    · cases read
      simp
      omega
    · cases read
  · cases read

/-- Whether a number is the first half of a surrogate pair. -/
def isHighSurrogate (number : Nat) : Bool :=
  0xD800 ≤ number && number ≤ 0xDBFF

/-- Whether a number is the second half of a surrogate pair. -/
def isLowSurrogate (number : Nat) : Bool :=
  0xDC00 ≤ number && number ≤ 0xDFFF

/-- The character of a surrogate pair. -/
def joinSurrogates (high low : Nat) : Char :=
  Char.ofNat ((high - 0xD800) * 0x400 + (low - 0xDC00) + 0x10000)

/-- Read the second half of a surrogate pair, written as an escape. -/
def readLowSurrogate (high : Nat) (text : List Char) : Except Fault (Char × List Char) :=
  match readWord [backslash, 'u'] text with
  | .error fault => .error fault
  | .ok digits =>
      match readFourDigits digits with
      | .error fault => .error fault
      | .ok (low, rest) =>
          if isLowSurrogate low then .ok (joinSurrogates high low, rest)
          else .error .malformed

/-- Read a character written as a hexadecimal escape.  A character past the
sixteen-bit ones is written as a surrogate pair. -/
def readNumbered (text : List Char) : Except Fault (Char × List Char) :=
  match readFourDigits text with
  | .error fault => .error fault
  | .ok (number, rest) =>
      if isLowSurrogate number then .error .malformed
      else if isHighSurrogate number then readLowSurrogate number rest
      else .ok (Char.ofNat number, rest)

/-- The character that a one-letter escape stands for. -/
def escaped? (letter : Char) : Option Char :=
  if letter = quote || letter = backslash || letter = '/' then some letter
  else if letter = 'b' then some (Char.ofNat 8)
  else if letter = 'f' then some (Char.ofNat 12)
  else if letter = 'n' then some (Char.ofNat 10)
  else if letter = 'r' then some (Char.ofNat 13)
  else if letter = 't' then some (Char.ofNat 9)
  else none

/-- Read an escape after its backslash. -/
def readEscape : List Char → Except Fault (Char × List Char)
  | [] => .error .cutOff
  | letter :: rest =>
      if letter = 'u' then readNumbered rest
      else match escaped? letter with
        | some character => .ok (character, rest)
        | none => .error .malformed

theorem length_readLowSurrogate_lt
    {high : Nat}
    {text rest : List Char}
    {character : Char}
    (read : readLowSurrogate high text = .ok (character, rest)) :
    rest.length < text.length := by
  unfold readLowSurrogate at read
  split at read
  · cases read
  · rename_i wordRead
    have shorter := length_readWord_le wordRead
    split at read
    · cases read
    · rename_i digitsRead
      have shorterStill := length_readFourDigits_lt digitsRead
      split at read
      · simp only [Except.ok.injEq, Prod.mk.injEq] at read
        obtain ⟨_, rfl⟩ := read
        omega
      · cases read

theorem length_readNumbered_lt
    {text rest : List Char}
    {character : Char}
    (read : readNumbered text = .ok (character, rest)) :
    rest.length < text.length := by
  unfold readNumbered at read
  split at read
  · cases read
  · rename_i digitsRead
    have shorter := length_readFourDigits_lt digitsRead
    split at read
    · cases read
    · split at read
      · exact Nat.lt_trans (length_readLowSurrogate_lt read) shorter
      · cases read
        exact shorter

theorem length_readEscape_lt
    {text rest : List Char}
    {character : Char}
    (read : readEscape text = .ok (character, rest)) :
    rest.length < text.length := by
  unfold readEscape at read
  split at read
  · cases read
  · split at read
    · exact Nat.lt_succ_of_lt (length_readNumbered_lt read)
    · split at read
      · cases read
        exact Nat.lt_succ_self _
      · cases read

/-- Read a string after its opening quote.  Control characters must be escaped. -/
def readString (text : List Char) : Except Fault (List Char × List Char) :=
  match text with
  | [] => .error .cutOff
  | character :: rest =>
      if character = quote then .ok ([], rest)
      else if character = backslash then
        match _read : readEscape rest with
        | .error fault => .error fault
        | .ok (shown, rest) =>
            match readString rest with
            | .error fault => .error fault
            | .ok (shownRest, rest) => .ok (shown :: shownRest, rest)
      else if character.toNat < 0x20 then .error .malformed
      else
        match readString rest with
        | .error fault => .error fault
        | .ok (shownRest, rest) => .ok (character :: shownRest, rest)
  termination_by text.length
  decreasing_by
    · exact Nat.lt_succ_of_lt (length_readEscape_lt ‹_›)
    · exact Nat.lt_succ_self _

/-- Skip an escape after its backslash.  Any four hexadecimal digits are
admitted, whether they stand for a character or not. -/
def skipEscape : List Char → Except Fault (List Char)
  | [] => .error .cutOff
  | letter :: rest =>
      if letter = 'u' then (readFourDigits rest).map Prod.snd
      else if (escaped? letter).isSome then .ok rest
      else .error .malformed

theorem length_skipEscape_lt
    {text rest : List Char}
    (skipped : skipEscape text = .ok rest) :
    rest.length < text.length := by
  unfold skipEscape at skipped
  split at skipped
  · cases skipped
  · split at skipped
    · rename_i tail _
      cases digitsRead : readFourDigits tail with
      | error fault =>
          rw [digitsRead] at skipped
          cases skipped
      | ok result =>
          rw [digitsRead] at skipped
          cases skipped
          exact Nat.lt_succ_of_lt (length_readFourDigits_lt digitsRead)
    · split at skipped
      · cases skipped
        exact Nat.lt_succ_self _
      · cases skipped

/-- Skip a string after its opening quote. -/
def skipString (text : List Char) : Except Fault (List Char) :=
  match text with
  | [] => .error .cutOff
  | character :: rest =>
      if character = quote then .ok rest
      else if character = backslash then
        match _skipped : skipEscape rest with
        | .error fault => .error fault
        | .ok rest => skipString rest
      else if character.toNat < 0x20 then .error .malformed
      else skipString rest
  termination_by text.length
  decreasing_by
    · exact Nat.lt_succ_of_lt (length_skipEscape_lt ‹_›)
    · exact Nat.lt_succ_self _

theorem length_skipString_lt
    {text rest : List Char}
    (skipped : skipString text = .ok rest) :
    rest.length < text.length := by
  fun_induction skipString text with
  | case1 => cases skipped
  | case2 =>
      cases skipped
      exact Nat.lt_succ_self _
  | case3 => cases skipped
  | case4 =>
      rename_i inductionHypothesis
      have escapeShorter := length_skipEscape_lt ‹skipEscape _ = _›
      exact Nat.lt_succ_of_lt (Nat.lt_trans (inductionHypothesis skipped) escapeShorter)
  | case5 => cases skipped
  | case6 =>
      rename_i inductionHypothesis
      exact Nat.lt_succ_of_lt (inductionHypothesis skipped)

/-! ## Numbers that are only skipped -/

/-- Whether a character is a decimal digit. -/
def isDigit (character : Char) : Bool :=
  48 ≤ character.toNat && character.toNat ≤ 57

/-- Skip at least one digit. -/
def skipDigits : List Char → Except Fault (List Char)
  | character :: rest =>
      if isDigit character then .ok (rest.dropWhile isDigit) else .error .malformed
  | [] => .error .malformed

/-- Skip the exponent of a number, if there is one. -/
def skipExponent : List Char → Except Fault (List Char)
  | mark :: rest =>
      if mark = 'e' || mark = 'E' then
        match rest with
        | sign :: digits =>
            if sign = '+' || sign = '-' then skipDigits digits else skipDigits rest
        | [] => .error .malformed
      else .ok (mark :: rest)
  | [] => .ok []

/-- Skip the fraction and exponent of a number, if there are any. -/
def skipFraction : List Char → Except Fault (List Char)
  | '.' :: rest =>
      match skipDigits rest with
      | .error fault => .error fault
      | .ok rest => skipExponent rest
  | text => skipExponent text

/-- Skip a number after its sign. -/
def skipNumber : List Char → Except Fault (List Char)
  | '0' :: rest =>
      match rest with
      | character :: _ => if isDigit character then .error .malformed else skipFraction rest
      | [] => .ok []
  | text =>
      match skipDigits text with
      | .error fault => .error fault
      | .ok rest => skipFraction rest

theorem length_dropWhile_le (test : Char → Bool) (text : List Char) :
    (text.dropWhile test).length ≤ text.length :=
  (List.dropWhile_suffix test).length_le

theorem length_skipDigits_lt
    {text rest : List Char}
    (skipped : skipDigits text = .ok rest) :
    rest.length < text.length := by
  unfold skipDigits at skipped
  split at skipped
  · split at skipped
    · cases skipped
      exact Nat.lt_succ_of_le (length_dropWhile_le _ _)
    · cases skipped
  · cases skipped

theorem length_skipExponent_le
    {text rest : List Char}
    (skipped : skipExponent text = .ok rest) :
    rest.length ≤ text.length := by
  unfold skipExponent at skipped
  split at skipped
  · split at skipped
    · split at skipped
      · split at skipped
        · have shorter := length_skipDigits_lt skipped
          simp only [List.length_cons]
          omega
        · have shorter := length_skipDigits_lt skipped
          simp only [List.length_cons] at shorter ⊢
          omega
      · cases skipped
    · cases skipped
      exact Nat.le_refl _
  · cases skipped
    exact Nat.le_refl _

theorem length_skipFraction_le
    {text rest : List Char}
    (skipped : skipFraction text = .ok rest) :
    rest.length ≤ text.length := by
  unfold skipFraction at skipped
  split at skipped
  · split at skipped
    · cases skipped
    · rename_i digitsSkipped
      have shorter := length_skipDigits_lt digitsSkipped
      have shorterStill := length_skipExponent_le skipped
      simp only [List.length_cons]
      omega
  · exact length_skipExponent_le skipped

theorem length_skipNumber_lt
    {text rest : List Char}
    (skipped : skipNumber text = .ok rest) :
    rest.length < text.length := by
  unfold skipNumber at skipped
  split at skipped
  · split at skipped
    · split at skipped
      · cases skipped
      · exact Nat.lt_succ_of_le (length_skipFraction_le skipped)
    · cases skipped
      simp
  · split at skipped
    · cases skipped
    · rename_i digitsSkipped
      exact Nat.lt_of_le_of_lt (length_skipFraction_le skipped)
        (length_skipDigits_lt digitsSkipped)

/-! ## Values that are only skipped -/

/-- Skip a value that is neither a list nor an object. -/
def skipScalar : List Char → Except Fault (List Char)
  | [] => .error .cutOff
  | character :: rest =>
      if character = 'n' then readWord ['u', 'l', 'l'] rest
      else if character = 't' then readWord ['r', 'u', 'e'] rest
      else if character = 'f' then readWord ['a', 'l', 's', 'e'] rest
      else if character = quote then skipString rest
      else if character = '-' then skipNumber rest
      else if isDigit character then skipNumber (character :: rest)
      else .error .malformed

theorem length_skipScalar_lt
    {text rest : List Char}
    (skipped : skipScalar text = .ok rest) :
    rest.length < text.length := by
  unfold skipScalar at skipped
  split at skipped
  · cases skipped
  · split at skipped
    · exact Nat.lt_succ_of_le (length_readWord_le skipped)
    · split at skipped
      · exact Nat.lt_succ_of_le (length_readWord_le skipped)
      · split at skipped
        · exact Nat.lt_succ_of_le (length_readWord_le skipped)
        · split at skipped
          · exact Nat.lt_succ_of_lt (length_skipString_lt skipped)
          · split at skipped
            · exact Nat.lt_succ_of_lt (length_skipNumber_lt skipped)
            · split at skipped
              · exact length_skipNumber_lt skipped
              · cases skipped

/-- A list or object that is being skipped. -/
inductive Container where
  /-- A list. -/
  | list
  /-- An object. -/
  | object
deriving DecidableEq, Repr

/-- The character that ends a container. -/
def Container.close : Container → Char
  | .list => ']'
  | .object => closeBrace

/-- What may come next while values are skipped. -/
inductive Expectation where
  /-- A value. -/
  | value
  /-- The first item of the innermost container, or its end. -/
  | firstItem
  /-- A further item of the innermost container. -/
  | nextItem
  /-- The end of the innermost container, or a comma. -/
  | afterItem

/-- The name of an object's field with its colon. -/
def skipName (text : List Char) : Except Fault (List Char) :=
  match skipBlanks text with
  | [] => .error .cutOff
  | character :: rest =>
      if character ≠ quote then .error .malformed
      else match skipString rest with
        | .error fault => .error fault
        | .ok rest =>
            match skipBlanks rest with
            | [] => .error .cutOff
            | colon :: rest => if colon = ':' then .ok rest else .error .malformed

theorem length_skipName_lt
    {text rest : List Char}
    (skipped : skipName text = .ok rest) :
    rest.length < text.length := by
  unfold skipName at skipped
  have blanks := length_skipBlanks_le text
  split at skipped
  · cases skipped
  · rename_i trimmed
    rw [trimmed, List.length_cons] at blanks
    split at skipped
    · cases skipped
    · split at skipped
      · cases skipped
      · rename_i afterString stringSkipped
        have shorter := length_skipString_lt stringSkipped
        have moreBlanks := length_skipBlanks_le afterString
        split at skipped
        · cases skipped
        · rename_i trimmedAgain
          rw [trimmedAgain, List.length_cons] at moreBlanks
          split at skipped
          · cases skipped
            omega
          · cases skipped

/-- The order in which expectations may be met without taking a character. -/
def Expectation.rank : Expectation → Nat
  | .value => 0
  | .nextItem => 1
  | .firstItem => 2
  | .afterItem => 3

/-- Skip what is left of a value.  The containers that are still open stand
innermost first. -/
def skipOpen
    (containers : List Container)
    (expected : Expectation)
    (text : List Char) : Except Fault (List Char) :=
  match expected, containers with
  | .value, containers =>
      match _trimmed : skipBlanks text with
      | [] => .error .cutOff
      | character :: rest =>
          if character = '[' then skipOpen (.list :: containers) .firstItem rest
          else if character = openBrace then skipOpen (.object :: containers) .firstItem rest
          else match _skipped : skipScalar (character :: rest) with
            | .error fault => .error fault
            | .ok rest => skipOpen containers .afterItem rest
  | .firstItem, [] => .ok text
  | .firstItem, container :: outer =>
      match _trimmed : skipBlanks text with
      | [] => .error .cutOff
      | character :: rest =>
          if character = container.close then skipOpen outer .afterItem rest
          else skipOpen (container :: outer) .nextItem text
  | .nextItem, [] => .ok text
  | .nextItem, .list :: outer => skipOpen (.list :: outer) .value text
  | .nextItem, .object :: outer =>
      match _skipped : skipName text with
      | .error fault => .error fault
      | .ok rest => skipOpen (.object :: outer) .value rest
  | .afterItem, [] => .ok text
  | .afterItem, container :: outer =>
      match _trimmed : skipBlanks text with
      | [] => .error .cutOff
      | character :: rest =>
          if character = ',' then skipOpen (container :: outer) .nextItem rest
          else if character = container.close then skipOpen outer .afterItem rest
          else .error .malformed
  termination_by (text.length, expected.rank)
  decreasing_by
    · exact Prod.Lex.left _ _ (length_lt_of_skipBlanks_eq_cons ‹_›)
    · exact Prod.Lex.left _ _ (length_lt_of_skipBlanks_eq_cons ‹_›)
    · exact Prod.Lex.left _ _ (Nat.lt_of_lt_of_le (length_skipScalar_lt ‹_›)
        (length_le_of_skipBlanks_eq ‹_›))
    · exact Prod.Lex.left _ _ (length_lt_of_skipBlanks_eq_cons ‹_›)
    · exact Prod.Lex.right _ (by decide)
    · exact Prod.Lex.right _ (by decide)
    · exact Prod.Lex.left _ _ (length_skipName_lt ‹_›)
    · exact Prod.Lex.left _ _ (length_lt_of_skipBlanks_eq_cons ‹_›)
    · exact Prod.Lex.left _ _ (length_lt_of_skipBlanks_eq_cons ‹_›)

/-- Skip one value. -/
def skipValue (text : List Char) : Except Fault (List Char) :=
  skipOpen [] .value text

end Json
end EventRelay
