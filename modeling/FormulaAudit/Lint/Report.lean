import FormulaAudit.Lint.Rules
import FormulaAudit.Workbook.Basic

/-! Checks of whole sheets and workbooks. -/

namespace FormulaAudit.Lint

open Address (key)

structure Entry where
  cell : String
  formula : String
  analysis : Analysis

def Entry.ofPair (p : String × String) : Entry :=
  ⟨p.1, p.2, Formula.analyze p.2⟩

def entries (s : Sheet) : List Entry :=
  (s.toList.filter fun p => !Text.allBlank p.2).map Entry.ofPair

def graphOf (es : List Entry) : Dependency.Graph :=
  es.foldl (fun g e => g.addFormula e.cell e.analysis) ∅

def writtenCell (es : List Entry) (k : String) : String :=
  match es.find? fun e => key e.cell == k with
  | some e => e.cell
  | none => k

def circularKeys (o : Options) (es : List Entry) : List String :=
  (graphOf es).circular o.strategy

def circularIssue (sheet : String) (es : List Entry) (k : String) : Issue :=
  Place.issue ⟨sheet, writtenCell es k⟩ .error "Circular reference detected"
    (some "Break the dependency cycle")

def entryIssues (o : Options) (sheet : String) (e : Entry) : List Issue :=
  analyzedIssues o e.analysis e.formula ⟨sheet, e.cell⟩

structure Metadata where
  formulaCount : Nat := 0
  sheetCount : Nat := 0
  volatileFormulaCount : Nat := 0
  circularReferenceCount : Nat := 0
  invalidFormulaCount : Nat := 0
  deriving DecidableEq, Repr

def Metadata.add (a b : Metadata) : Metadata where
  formulaCount := a.formulaCount + b.formulaCount
  sheetCount := a.sheetCount + b.sheetCount
  volatileFormulaCount := a.volatileFormulaCount + b.volatileFormulaCount
  circularReferenceCount := a.circularReferenceCount + b.circularReferenceCount
  invalidFormulaCount := a.invalidFormulaCount + b.invalidFormulaCount

structure Report where
  issues : List Issue := []
  metadata : Metadata := {}
  deriving DecidableEq, Repr

namespace Report

def append (a b : Report) : Report :=
  ⟨a.issues ++ b.issues, a.metadata.add b.metadata⟩

def count (r : Report) (severity : Severity) : Nat :=
  r.issues.countP (·.severity == severity)

def hasErrors (r : Report) : Bool :=
  r.issues.any Issue.isError

def ofSheet (o : Options) (s : Sheet) : Report :=
  let es := entries s
  let keys := circularKeys o es
  { issues := es.flatMap (entryIssues o s.name) ++ keys.map (circularIssue s.name es)
    metadata :=
      { formulaCount := es.length
        sheetCount := 1
        volatileFormulaCount := es.countP (·.analysis.hasVolatile)
        circularReferenceCount := keys.length
        invalidFormulaCount := es.countP (!·.analysis.isValid) } }

def ofWorkbook (o : Options) (w : Workbook) : Report :=
  (w.sheets.map (ofSheet o)).foldl append {}

end Report

def sheetIssues (o : Options) (s : Sheet) : List Issue :=
  (Report.ofSheet o s).issues

end FormulaAudit.Lint
