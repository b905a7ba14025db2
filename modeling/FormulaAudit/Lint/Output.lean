import FormulaAudit.Json.Output
import FormulaAudit.Lint.Report

/-! Analyses and reports as JSON and as text. -/

namespace FormulaAudit

open Json (Output)

def halvesText (halves : Nat) : String :=
  toString (halves / 2) ++ if halves % 2 = 0 then ".0" else ".5"

def RepeatedReference.output (r : RepeatedReference) : Output :=
  .object [("reference", .string r.reference), ("occurrences", .ofNat r.occurrences)]

def Analysis.output (a : Analysis) : Output :=
  .object
    ([("isValid", .boolean a.isValid),
      ("errors", .strings (a.errors.map Remark.message)),
      ("complexity", .number (halvesText a.halfUnits)),
      ("volatileFunctions", .strings a.volatileFunctions),
      ("dependencies", .strings a.dependencies),
      ("usedRanges", .strings a.usedRanges)] ++
    if a.repeatedReferences.isEmpty then []
    else [("repeatedReferences", .array (a.repeatedReferences.map RepeatedReference.output))])

def Issue.output (i : Issue) : Output :=
  .object
    ([("type", .string i.kind.name),
      ("severity", .string i.severity.name),
      ("cell", .string i.cell),
      ("sheet", .string i.sheet),
      ("message", .string i.message)] ++
    match i.suggestion with
    | some s => [("suggestion", .string s)]
    | none => [])

namespace Lint

def Metadata.output (m : Metadata) : Output :=
  .object
    [("formulaCount", .ofNat m.formulaCount),
      ("sheetCount", .ofNat m.sheetCount),
      ("volatileFormulaCount", .ofNat m.volatileFormulaCount),
      ("circularReferenceCount", .ofNat m.circularReferenceCount),
      ("invalidFormulaCount", .ofNat m.invalidFormulaCount)]

def Report.output (r : Report) : Output :=
  .object [("issues", .array (r.issues.map Issue.output)), ("metadata", r.metadata.output)]

def Report.summary (r : Report) : String :=
  toString r.metadata.formulaCount ++ " formulas in " ++ toString r.metadata.sheetCount ++
    " sheets: " ++ toString (r.count .error) ++ " errors, " ++ toString (r.count .warning) ++
    " warnings, " ++ toString (r.count .info) ++ " info"

def Report.lines (r : Report) : List String :=
  r.issues.map Issue.display ++ [r.summary]

end Lint

end FormulaAudit
