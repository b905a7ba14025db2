import FormulaAudit.Csv.Record
import FormulaAudit.Text.Blank
import FormulaAudit.Text.Utf8
import FormulaAudit.Workbook.Basic

/-!
Workbooks from comma-separated values, with one formula a row. The header names the columns `cell`,
`formula` and perhaps `sheet`; other columns are ignored.
-/

namespace FormulaAudit.Workbook

open Text (ofUtf8? trim)

structure Row where
  sheet : Option String
  cell : String
  formula : String
  deriving DecidableEq, Repr

def Row.sheetName (default : String) (r : Row) : String :=
  match r.sheet with
  | some name => if name = "" then default else name
  | none => default

def addRow (default : String) (w : Workbook) (r : Row) : Workbook :=
  w.set (r.sheetName default) r.cell r.formula

def ofRows (default : String) (rows : List Row) : Workbook :=
  rows.foldl (addRow default) {}

def fieldTexts? (r : Csv.Record) : Option (List String) :=
  (r.mapM ofUtf8?).map fun fields => fields.map trim

def rowByNames? (header fields : List String) : Option Row := do
  if ["sheet", "cell", "formula"].any fun name => decide (1 < header.count name) then
    none
  let columns := header.zip fields
  let cell ← columns.lookup "cell"
  let formula ← columns.lookup "formula"
  return ⟨columns.lookup "sheet", cell, formula⟩

/-- A row by position, used when the header is not text. -/
def rowByPosition? : List String → Option Row
  | sheet :: cell :: formula :: _ => some ⟨some sheet, cell, formula⟩
  | _ => none

def row? (header r : Csv.Record) : Option Row := do
  if r.length ≠ header.length then
    none
  let fields ← fieldTexts? r
  match fieldTexts? header with
  | some names => rowByNames? names fields
  | none => rowByPosition? fields

def rowsFrom (header : Csv.Record) : Nat → List Csv.Record → Except Nat (List Row)
  | _, [] => .ok []
  | line, r :: rs => do
    match row? header r with
    | none => throw line
    | some row =>
      let rows ← rowsFrom header (line + 1) rs
      return row :: rows

/-- Reads a workbook; the header counts as line 1 and each record as one line. -/
def ofCsv (default : String) (bytes : List UInt8) : Except Nat Workbook :=
  match Csv.records bytes with
  | [] => .ok {}
  | header :: rs => (rowsFrom header 2 rs).map (ofRows default)

end FormulaAudit.Workbook
