import EventRelay.Toml.Number
import EventRelay.Toml.Table
import EventRelay.Toml.Text

/-!
# TOML documents

A document is read in two steps.  The text is cut into statements, each of
which is a header or gives a value to a key, and the statements are carried out
one after the other on a table.  Either step may refuse the document; there is
one kind of refusal.
-/

namespace EventRelay
namespace Toml
namespace Reader

/-! ## Values -/

/-- A truth value. -/
def boolean : Reader Bool := do
  if ← word? ['t', 'r', 'u', 'e'] then return true
  else
    word ['f', 'a', 'l', 's', 'e']
    return false

/-- A value that holds no others. -/
def scalar : Reader Value :=
  (do return .text (← string)) <|>
  (do return .boolean (← boolean)) <|>
  (do
    moment
    return .moment) <|>
  (do return .floating (← decimalFraction)) <|>
  (do return .floating (← specialNumber)) <|>
  (do return .integer (← integer))

/-- The items of a list, after its opening bracket.  A comma may stand after
the last one. -/
def items (value : Reader Value) : Reader (List Value) := do
  filler
  sequence do
    if ← word? [']'] then return none
    else
      let item ← value
      filler
      if ← word? [','] then filler
      else if !(← ahead [']']) then failure
      return some item

/-- A key and its value. -/
def assignment (value : Reader Value) : Reader (Path × Value) := do
  let path ← key
  word ['=']
  blanks
  return (path, ← value)

/-- The entries of a table between braces, after the opening one.  They stand
on one line, and no comma may stand after the last one. -/
def assignments (value : Reader Value) : Reader (List (Path × Value)) := do
  blanks
  sequence do
    if ← word? [closeBrace] then return none
    else
      let entry ← assignment value
      blanks
      if ← word? [','] then
        blanks
        if ← ahead [closeBrace] then failure
      else if !(← ahead [closeBrace]) then failure
      return some entry

/-- A value that nests no deeper than given. -/
def valueWithin : (depth : Nat) → Reader Value
  | 0 => scalar
  | depth + 1 => do
      if ← word? ['['] then return .array false (← items (valueWithin depth))
      else if ← word? [openBrace] then
        match Table.ofAssignments (← assignments (valueWithin depth)) with
        | some table => return table.toValue
        | none => failure
      else scalar

/-- How deep values may nest. -/
def nestingLimit : Nat := 79

/-- A value. -/
def value : Reader Value :=
  valueWithin nestingLimit

end Reader

/-! ## Statements -/

/-- A statement of a document. -/
inductive Statement where
  /-- A value for a key. -/
  | assignment (path : Path) (value : Value)
  /-- The header of a table. -/
  | header (path : Path)
  /-- The header of a further table of an open list. -/
  | itemHeader (path : Path)
deriving Repr

namespace Reader

/-- A statement, up to the end of its line. -/
def statement : Reader Statement := do
  if ← word? ['[', '['] then
    let path ← key
    word [']', ']']
    restOfLine
    return .itemHeader path
  else if ← word? ['['] then
    let path ← key
    word [']']
    restOfLine
    return .header path
  else
    let (path, value) ← assignment value
    restOfLine
    return .assignment path value

/-- The statements of a document.  A mark of the byte order may stand before
them. -/
def statements : Reader (List Statement) := do
  let _ ← word? [Char.ofNat 0xFEFF]
  filler
  let found ← sequence do
    match ← peek? with
    | none => return none
    | some _ =>
        let found ← statement
        filler
        return some found
  return found

end Reader

/-! ## Carrying out statements -/

/-- A document of which some statements have been carried out. -/
structure Draft where
  /-- The document so far. -/
  root : Table
  /-- The path of the table that the next assignment adds to. -/
  position : List String
deriving Repr

namespace Draft

/-- No statement has been carried out. -/
def initial : Draft where
  root := .empty .header
  position := []

/-- Carry out a statement. -/
def apply (draft : Draft) : Statement → Option Draft
  | .assignment path value => do
      let root ← draft.root.changeAt .header (fun table => table.assign path value) draft.position
      return { draft with root := root }
  | .header path => do
      let root ← draft.root.changeAt .header (Table.openTable path.last) path.parents
      return ⟨root, path.parents ++ [path.last]⟩
  | .itemHeader path => do
      let root ← draft.root.changeAt .header (Table.openItem path.last) path.parents
      return ⟨root, path.parents ++ [path.last]⟩

end Draft

/-- The table that a text describes. -/
def read (text : String) : Option Table := do
  let statements ← Reader.statements.readAll? text.toList
  let draft ← statements.foldlM Draft.apply .initial
  return draft.root

end Toml
end EventRelay
