import FormulaAudit.Text.Blank
import FormulaAudit.Text.Case

/-! Keys of cells: an address without white space around it, without `$` and in upper case. -/

namespace FormulaAudit.Address

open Text

def keyChars (cs : List Char) : List Char :=
  ((trimChars cs).filter (· != '$')).map Char.toUpper

def key (s : String) : String :=
  .ofList (keyChars s.toList)

end FormulaAudit.Address
