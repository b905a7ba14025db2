import FormulaAudit.Text.Case
import Std.Data.TreeMap

/-! Sheets of formulas, and workbooks of sheets; sheets are found by name in any case. -/

namespace FormulaAudit

structure Sheet where
  name : String
  formulas : Std.TreeMap String String := {}

namespace Sheet

def set (s : Sheet) (cell formula : String) : Sheet :=
  { s with formulas := s.formulas.insert cell formula }

def setAll (s : Sheet) (formulas : List (String × String)) : Sheet :=
  formulas.foldl (fun s p => s.set p.1 p.2) s

def get? (s : Sheet) (cell : String) : Option String :=
  s.formulas[cell]?

def toList (s : Sheet) : List (String × String) :=
  s.formulas.toList

def size (s : Sheet) : Nat :=
  s.formulas.size

def isNamed (s : Sheet) (name : String) : Bool :=
  Text.sameIgnoringCase s.name name

end Sheet

structure Workbook where
  sheets : List Sheet := []

namespace Workbook

def push (w : Workbook) (s : Sheet) : Workbook :=
  ⟨w.sheets ++ [s]⟩

def sheet? (w : Workbook) (name : String) : Option Sheet :=
  w.sheets.find? (·.isNamed name)

def modifySheet (name : String) (f : Sheet → Sheet) : List Sheet → List Sheet
  | [] => [f { name }]
  | s :: rest => if s.isNamed name then f s :: rest else s :: modifySheet name f rest

def ensure (w : Workbook) (name : String) : Workbook :=
  ⟨modifySheet name id w.sheets⟩

def set (w : Workbook) (name cell formula : String) : Workbook :=
  ⟨modifySheet name (·.set cell formula) w.sheets⟩

def countFormulas : List Sheet → Nat
  | [] => 0
  | s :: rest => s.size + countFormulas rest

def formulaCount (w : Workbook) : Nat :=
  countFormulas w.sheets

end Workbook

end FormulaAudit
