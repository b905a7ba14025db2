import FormulaAudit.Address.Cell

/-!
Rectangles of cells such as `B3:D9`, in any order of their corners, and column ranges such as `B:D`,
which cover every row. Of a chain such as `A1:B2:C3` only the outermost parts count.
-/

namespace FormulaAudit.Address

open Text

structure Range where
  first : Cell
  last : Cell
  deriving DecidableEq, Repr

def endpointChars (cs : List Char) : Option (List Char × List Char) :=
  if cs.contains ':' then
    some (cs.takeWhile (· != ':'), (cs.reverse.takeWhile (· != ':')).reverse)
  else none

def endpoints (s : String) : Option (String × String) :=
  (endpointChars s.toList).map fun p => (.ofList p.1, .ofList p.2)

namespace Range

/-- The range spanned by two corners; its first corner keeps the markers of `a`, its last one those
of `b`. -/
def ofCorners (a b : Cell) : Range where
  first := { a with row := min a.row b.row, col := min a.col b.col }
  last := { b with row := max a.row b.row, col := max a.col b.col }

def isColumnOnly (part : List Char) : Bool :=
  let letters := (splitMarker part).2
  !letters.isEmpty && letters.all Char.isAlpha

def ofColumns (first last : List Char) : Except Error Range := do
  let a ← Column.index (splitMarker first).2
  let b ← Column.index (splitMarker last).2
  return ofCorners { row := 0, col := a } { row := maxRows - 1, col := b }

def corner (text part : List Char) : Except Error Cell :=
  (Cell.parseChars (trimChars part)).mapError (.badCorner (.ofList text))

def parseChars (cs : List Char) : Except Error Range :=
  match endpointChars cs with
  | none => .error (.noColon (.ofList cs))
  | some (first, last) =>
    if isColumnOnly first && isColumnOnly last then ofColumns first last
    else do
      let a ← corner cs first
      let b ← corner cs last
      return ofCorners a b

def parse (s : String) : Except Error Range :=
  parseChars (trimChars s.toList)

def rowCount (r : Range) : Nat :=
  r.last.row - r.first.row + 1

def colCount (r : Range) : Nat :=
  r.last.col - r.first.col + 1

def contains (r : Range) (c : Cell) : Bool :=
  decide (r.first.row ≤ c.row) && decide (c.row ≤ r.last.row) &&
    (decide (r.first.col ≤ c.col) && decide (c.col ≤ r.last.col))

def text (r : Range) : String :=
  r.first.text ++ ":" ++ r.last.text

def rowSpan (s : String) : Option Nat :=
  (parse s).toOption.map rowCount

end Range

end FormulaAudit.Address
