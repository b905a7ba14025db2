import FormulaAudit.Address.Range
import FormulaAudit.Formula.Analysis
import FormulaAudit.Formula.Division
import FormulaAudit.Lint.Issue
import FormulaAudit.Lint.Options

/-! The rules for one formula, in the order in which their issues are reported. -/

namespace FormulaAudit.Lint

structure Place where
  sheet : String
  cell : String
  deriving DecidableEq, Repr

def Place.issue (p : Place) (severity : Severity) (message : String)
    (suggestion : Option String := none) : Issue :=
  ⟨.formula, severity, p.sheet, p.cell, message, suggestion⟩

def invalidIssue (a : Analysis) (p : Place) : Issue :=
  let reason :=
    match a.errors with
    | [] => "unknown error"
    | r :: _ => r.message
  p.issue .error ("Invalid formula: " ++ reason) (some "Check the formula syntax")

def complexityIssues (o : Options) (a : Analysis) (p : Place) : List Issue :=
  if o.complexityThreshold.isBelowHalves a.halfUnits then
    [p.issue .warning "Complex formula detected"
      (some "Consider breaking this formula into smaller parts")]
  else []

def volatileIssues (o : Options) (a : Analysis) (p : Place) : List Issue :=
  if o.reportVolatile && a.hasVolatile then
    [p.issue .warning
      ("Volatile functions used: " ++ ", ".intercalate a.volatileFunctions.eraseDups)
      (some "Avoid volatile functions where possible; they recalculate on every change")]
  else []

def rangeIssue? (o : Options) (p : Place) (range : String) : Option Issue :=
  match Address.Range.rowSpan range with
  | some rows =>
    if o.largeRangeRows < rows then
      some (p.issue .warning
        ("Large range reference " ++ range ++ " spans " ++ toString rows ++ " rows"))
    else none
  | none => none

def repeatedIssues (o : Options) (a : Analysis) (p : Place) : List Issue :=
  if o.reportRepeated then a.repeatedReferences.map fun r => p.issue .info r.message else []

def structuralIssues (o : Options) (a : Analysis) (p : Place) : List Issue :=
  complexityIssues o a p ++ volatileIssues o a p ++ a.usedRanges.filterMap (rangeIssue? o p) ++
    repeatedIssues o a p

def divisionIssues (formula : String) (p : Place) : List Issue :=
  if Formula.mayDivideByZero formula then
    [p.issue .error "Possible division by zero" (some "Add error handling with IFERROR()")]
  else []

def analyzedIssues (o : Options) (a : Analysis) (formula : String) (p : Place) : List Issue :=
  (if a.isValid then structuralIssues o a p else [invalidIssue a p]) ++ divisionIssues formula p

def formulaIssues (o : Options) (formula : String) (p : Place) : List Issue :=
  analyzedIssues o (Formula.analyze formula) formula p

end FormulaAudit.Lint
