import FormulaAudit.Dependency.Cycles
import FormulaAudit.Number.Binary64

/-! Options of the checks. -/

namespace FormulaAudit.Lint

inductive CycleSearch
  | paths
  | components
  deriving DecidableEq, Repr

structure Options where
  complexityThreshold : Binary64 := .ofInt 5
  largeRangeRows : Nat := 1000
  cycleSearch : CycleSearch := .paths
  cycleBudget : Nat := Dependency.defaultBudget
  reportRepeated : Bool := true
  reportVolatile : Bool := true
  deriving DecidableEq, Repr

def Options.strategy (o : Options) : Dependency.Strategy :=
  match o.cycleSearch with
  | .paths => .paths o.cycleBudget
  | .components => .components

end FormulaAudit.Lint
