import FormulaAudit.Lint.Options
import FormulaAudit.Toml.Document

/-! Options read from TOML. Unknown keys are ignored, and options left out keep their value. -/

namespace FormulaAudit.Lint.Options

open Toml (Item Table)

def float? : Item → Option Binary64
  | .scalar (.float x) => some x
  | .scalar (.integer n) => some (.ofInt n)
  | _ => none

def natural? (most : Nat) : Item → Option Nat
  | .scalar (.integer n) => if 0 ≤ n ∧ n ≤ most then some n.toNat else none
  | _ => none

def boolean? : Item → Option Bool
  | .scalar (.boolean b) => some b
  | _ => none

def cycleSearchOf? (name : String) : Option CycleSearch :=
  if name = "path-copy" then some .paths
  else if name = "strongly-connected" ∨ name = "scc" then some .components
  else none

/-- A search is named by a string, or by the only key of a table, with nothing under it. -/
def cycleSearch? : Item → Option CycleSearch
  | .scalar (.string name) => cycleSearchOf? name
  | .table _ [(name, .table _ [])] => cycleSearchOf? name
  | .table _ [(name, .array [])] => cycleSearchOf? name
  | _ => none

def field {α : Type} (t : Table) (key : String) (read : Item → Option α) (default : α) : Option α :=
  match t.lookup key with
  | none => some default
  | some item => read item

def ofTable (t : Table) : Option Options := do
  let d : Options := {}
  let complexityThreshold ← field t "complexity_threshold" float? d.complexityThreshold
  let largeRangeRows ← field t "large_range_rows" (natural? 0xffffffff) d.largeRangeRows
  let cycleSearch ← field t "cycle_strategy" cycleSearch? d.cycleSearch
  let cycleBudget ← field t "cycle_visit_budget" (natural? 0xffffffffffffffff) d.cycleBudget
  let reportRepeated ← field t "report_repeated_references" boolean? d.reportRepeated
  let reportVolatile ← field t "report_volatile" boolean? d.reportVolatile
  return ⟨complexityThreshold, largeRangeRows, cycleSearch, cycleBudget, reportRepeated,
    reportVolatile⟩

def ofToml (s : String) : Option Options :=
  (Toml.parse s).bind ofTable

end FormulaAudit.Lint.Options
