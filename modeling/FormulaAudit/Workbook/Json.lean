import FormulaAudit.Json.Syntax
import FormulaAudit.Workbook.Basic

/-!
Workbooks from JSON. A workbook and a sheet may be written as an object, whose unknown keys are
ignored, or as an array of their fields in order.
-/

namespace FormulaAudit.Workbook

open Json (Input)

def text? : Input → Option String
  | .string text => text
  | _ => none

def list? : Input → Option (List Input)
  | .array items => some items
  | _ => none

def entries? (entries : List (Option String × Input)) : Option (List (String × Input)) :=
  entries.mapM fun p => p.1.map (·, p.2)

/-- The value under a key; `none` if the key is repeated. -/
def unique? (key : String) (entries : List (String × Input)) : Option (Option Input) :=
  match entries.filter (·.1 == key) with
  | [] => some none
  | [p] => some (some p.2)
  | _ => none

def formulas? : Input → Option (List (String × String))
  | .object entries => do
    let entries ← entries? entries
    entries.mapM fun p => (text? p.2).map (p.1, ·)
  | _ => none

def sheetOf? (name : Input) (formulas : Option Input) : Option Sheet := do
  let name ← text? name
  match formulas with
  | none => return { name }
  | some f => return Sheet.setAll { name } (← formulas? f)

def sheetOfInput? : Input → Option Sheet
  | .object entries => do
    let entries ← entries? entries
    let name ← unique? "name" entries
    let formulas ← unique? "formulas" entries
    sheetOf? (← name) formulas
  | .array [name] => sheetOf? name none
  | .array [name, formulas] => sheetOf? name (some formulas)
  | _ => none

def sheets? (sheets : Option Input) : Option Workbook :=
  match sheets with
  | none => some {}
  | some v => do
    let items ← list? v
    return ⟨← items.mapM sheetOfInput?⟩

def ofInput? : Input → Option Workbook
  | .object entries => do
    let entries ← entries? entries
    sheets? (← unique? "sheets" entries)
  | .array [] => sheets? none
  | .array [sheets] => sheets? (some sheets)
  | _ => none

def ofJson (bytes : List UInt8) : Option Workbook :=
  (Json.parse bytes).bind ofInput?

end FormulaAudit.Workbook
