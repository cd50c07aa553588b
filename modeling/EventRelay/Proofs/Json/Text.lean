import EventRelay.Event.Document

/-!
# Strings are read back

Every character has a form inside a string: it stands for itself, or it is escaped by
a letter or by its number in hexadecimal digits.  From this form just the character is
read, so a written string is read back, whatever characters it holds.
-/

namespace EventRelay

namespace Hex

theorem value?_digit : ∀ value < 16, value? (digit value) = some value := by
  decide

end Hex

namespace Json

theorem readFourDigits_digits
    {number : Nat}
    (small : number < 0x10000)
    (rest : List Char) :
    readFourDigits (Hex.digits 4 number ++ rest) = .ok (number, rest) := by
  have digitRead : ∀ shifted, Hex.value? (Hex.digit (shifted % 16)) = some (shifted % 16) :=
    fun shifted => Hex.value?_digit _ (Nat.mod_lt _ (by decide))
  simp only [Hex.digits, List.nil_append, List.cons_append, readFourDigits, digitRead]
  congr 2
  omega

/-- A control character is read from its number. -/
theorem readEscape_digits
    {character : Char}
    (isControl : character.toNat < 0x20)
    (rest : List Char) :
    readEscape ('u' :: (Hex.digits 4 character.toNat ++ rest)) = .ok (character, rest) := by
  have notLow : isLowSurrogate character.toNat = false :=
    Bool.and_eq_false_imp.mpr fun low => absurd (of_decide_eq_true low) (by omega)
  have notHigh : isHighSurrogate character.toNat = false :=
    Bool.and_eq_false_imp.mpr fun high => absurd (of_decide_eq_true high) (by omega)
  rw [readEscape, if_pos rfl, readNumbered, readFourDigits_digits (by omega)]
  simp only [notLow, notHigh, Bool.false_eq_true, if_false, Char.ofNat_toNat]

/-- What is read after an escape comes after the character that is escaped. -/
theorem readString_of_escape
    {character : Char}
    {escape rest tail shown : List Char}
    (escaped : readEscape (escape ++ rest) = .ok (character, rest))
    (read : readString rest = .ok (shown, tail)) :
    readString (backslash :: (escape ++ rest)) = .ok (character :: shown, tail) := by
  rw [readString, if_neg (by decide), if_pos rfl]
  split
  · rename_i failed
    rw [escaped] at failed
    cases failed
  · rename_i other further succeeded
    rw [escaped] at succeeded
    cases succeeded
    rw [read]

end Json

namespace Event

open Json

/-- The form of a character: a letter after a backslash, its number, or itself. -/
inductive Form (character : Char) : List Char → Prop
  | letter (letter : Char) :
      letter ≠ 'u' → escaped? letter = some character → Form character [backslash, letter]
  | number :
      character.toNat < 0x20 →
        Form character (backslash :: 'u' :: Hex.digits 4 character.toNat)
  | plain :
      character ≠ quote → character ≠ backslash → 0x20 ≤ character.toNat →
        Form character [character]

/-- A character that is escaped by a letter has a number of its own. -/
theorem form_of_toNat
    {character letter : Char}
    {number : Nat}
    (toNat_eq : character.toNat = number)
    (notNumber : letter ≠ 'u')
    (escapes : escaped? letter = some (Char.ofNat number)) :
    Form character [backslash, letter] := by
  refine .letter letter notNumber ?_
  rw [escapes, ← toNat_eq, Char.ofNat_toNat]

theorem form_writeCharacter (character : Char) : Form character (writeCharacter character) := by
  rw [writeCharacter]
  simp only [Bool.or_eq_true, decide_eq_true_iff]
  split
  · rename_i special
    rcases special with rfl | rfl
    · exact .letter quote (by decide) (by decide)
    · exact .letter backslash (by decide) (by decide)
  · rename_i notSpecial
    obtain ⟨notQuote, notBackslash⟩ := not_or.mp notSpecial
    repeat' split
    -- Five characters have a letter of their own.
    any_goals exact form_of_toNat ‹_› (by decide) (by decide)
    · exact .number ‹_›
    · exact .plain notQuote notBackslash (Nat.not_lt.mp ‹_›)

end Event

namespace Json

/-- What is read after the form of a character comes after the character. -/
theorem readString_of_form
    {character : Char}
    {form rest tail shown : List Char}
    (isForm : Event.Form character form)
    (read : readString rest = .ok (shown, tail)) :
    readString (form ++ rest) = .ok (character :: shown, tail) := by
  cases isForm with
  | letter letter notNumber escapes =>
      have escaped : readEscape ([letter] ++ rest) = .ok (character, rest) := by
        rw [List.singleton_append, readEscape, if_neg notNumber, escapes]
      exact readString_of_escape escaped read
  | number isControl =>
      have escaped : readEscape (('u' :: Hex.digits 4 character.toNat) ++ rest) =
          .ok (character, rest) :=
        readEscape_digits isControl rest
      exact readString_of_escape escaped read
  | plain notQuote notBackslash printable =>
      rw [List.singleton_append, readString, if_neg notQuote, if_neg notBackslash,
        if_neg (Nat.not_lt.mpr printable), read]

/-- The forms of characters are read up to the quote behind them. -/
theorem readString_flatMap (text rest : List Char) :
    readString (text.flatMap Event.writeCharacter ++ quote :: rest) = .ok (text, rest) := by
  induction text with
  | nil => rw [List.flatMap_nil, List.nil_append, readString, if_pos rfl]
  | cons character text inductionHypothesis =>
      rw [List.flatMap_cons, List.append_assoc]
      exact readString_of_form (Event.form_writeCharacter character) inductionHypothesis

end Json
end EventRelay
