import FormulaAudit.Address.Error
import FormulaAudit.Text.Case

/-! Columns: letters read and written in bijective base 26, counted from 0. -/

namespace FormulaAudit.Address.Column

open Text

def digit (c : Char) : Nat :=
  c.toUpper.toNat - 'A'.toNat + 1

/-- The number of a column, counted from 1 and cut off at `indexCap`. -/
def number (letters : List Char) : Nat :=
  letters.foldl (fun n c => min (n * 26 + digit c) indexCap) 0

def index (letters : List Char) : Except Error Nat :=
  if letters.isEmpty || !letters.all Char.isAlpha then
    .error (.notColumn (.ofList letters))
  else if number letters ≤ maxColumns then
    .ok (number letters - 1)
  else
    .error (.columnOutOfBounds (number letters - 1))

def letter (n : Nat) : Char :=
  Char.ofNat ('A'.toNat + n)

def letters (column : Nat) : List Char :=
  if column < 26 then [letter column]
  else letters (column / 26 - 1) ++ [letter (column % 26)]
termination_by column
decreasing_by omega

def name (column : Nat) : String :=
  .ofList (letters column)

end FormulaAudit.Address.Column
