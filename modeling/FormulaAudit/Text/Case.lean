/-! Letter case and digits of ASCII; other characters have no case here. -/

namespace FormulaAudit.Text

def upper (s : String) : String :=
  .ofList (s.toList.map Char.toUpper)

def lower (s : String) : String :=
  .ofList (s.toList.map Char.toLower)

def sameIgnoringCase (s t : String) : Bool :=
  upper s == upper t

def digitsValue (digits : List Char) : Nat :=
  digits.foldl (fun n c => n * 10 + (c.toNat - '0'.toNat)) 0

theorem toList_upper (s : String) : (upper s).toList = s.toList.map Char.toUpper := by
  simp [upper]

theorem sameIgnoringCase_iff {s t : String} : sameIgnoringCase s t = true ↔ upper s = upper t := by
  simp [sameIgnoringCase]

end FormulaAudit.Text
