import FormulaAudit.Address.Column
import FormulaAudit.Text.Blank

/-! One cell such as `C7` or `$C$7`; a `$` marks the column or the row as absolute. -/

namespace FormulaAudit.Address

open Text

/-- Row and column are counted from 0. -/
structure Cell where
  row : Nat
  col : Nat
  rowAbsolute : Bool := false
  colAbsolute : Bool := false
  deriving DecidableEq, Repr

def splitMarker : List Char → Bool × List Char
  | '$' :: cs => (true, cs)
  | cs => (false, cs)

def rowIndex (text : String) (digits : List Char) : Except Error Nat :=
  if digits.isEmpty || !digits.all Char.isDigit then
    .error (.rowNotNumber text)
  else
    let row := digitsValue digits
    if row = 0 then .error (.rowZero text)
    else if row ≤ maxRows then .ok (row - 1)
    else if row ≤ indexCap then .error (.rowOutOfBounds (row - 1))
    else .error (.rowOutOfBounds indexCap)

namespace Cell

def parseChars (cs : List Char) : Except Error Cell := do
  let (colAbsolute, body) := splitMarker cs
  let letters := body.takeWhile Char.isAlpha
  if letters.isEmpty then
    throw (.noColumn (.ofList cs))
  let col ← Column.index letters
  let (rowAbsolute, digits) := splitMarker (body.dropWhile Char.isAlpha)
  let row ← rowIndex (.ofList cs) digits
  return { row, col, rowAbsolute, colAbsolute }

def parse (s : String) : Except Error Cell :=
  parseChars (trimChars s.toList)

def marker (absolute : Bool) : String :=
  if absolute then "$" else ""

def text (c : Cell) : String :=
  marker c.colAbsolute ++ Column.name c.col ++ marker c.rowAbsolute ++ toString (c.row + 1)

def compare (a b : Cell) : Ordering :=
  ((Ord.compare a.row b.row).then (Ord.compare a.col b.col)).then
    ((Ord.compare a.rowAbsolute b.rowAbsolute).then (Ord.compare a.colAbsolute b.colAbsolute))

def sort (cells : List Cell) : List Cell :=
  cells.mergeSort fun a b => (compare a b).isLE

end Cell

end FormulaAudit.Address
