/-! Sheet limits, and why a text is not an address. -/

namespace FormulaAudit.Address

def maxRows : Nat := 1048576

def maxColumns : Nat := 16384

/-- No larger index is reported; a larger one is reported as this. -/
def indexCap : Nat := 4294967295

inductive Error
  | noColumn (text : String)
  | notColumn (letters : String)
  | rowNotNumber (text : String)
  | rowZero (text : String)
  | rowOutOfBounds (row : Nat)
  | columnOutOfBounds (column : Nat)
  | noColon (text : String)
  | badCorner (text : String) (cause : Error)
  deriving DecidableEq, Repr

def Error.message : Error → String
  | .noColumn text => s!"Invalid cell reference '{text}' has no column"
  | .notColumn letters => s!"Invalid cell reference '{letters}' is not a column name"
  | .rowNotNumber text => s!"Invalid cell reference '{text}': row must be a number"
  | .rowZero text => s!"Invalid cell reference '{text}': rows start at 1"
  | .rowOutOfBounds row => s!"Row index {row} is past the last row index {maxRows - 1}"
  | .columnOutOfBounds column =>
    s!"Column index {column} is past the last column index {maxColumns - 1}"
  | .noColon text => s!"Invalid range reference '{text}' has no ':'"
  | .badCorner text cause => s!"Invalid range reference '{text}': " ++ cause.message

end FormulaAudit.Address
