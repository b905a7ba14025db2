import FormulaAudit.Dependency.Components
import FormulaAudit.Dependency.Graph
import FormulaAudit.Dependency.PathSearch

/-! Circular references: the cells whose formulas read themselves in the end. -/

namespace FormulaAudit.Dependency

open Address (key)

inductive Strategy
  | paths (budget : Nat)
  | components
  deriving DecidableEq, Repr

def defaultBudget : Nat := 100000

namespace Graph

def index (g : Graph) : Std.HashMap String (List String) :=
  .ofList g.rows

def indexedReads (index : Std.HashMap String (List String)) (k : String) : List String :=
  index.getD k []

def readers (g : Graph) : List String :=
  (g.rows.filter fun r => !r.2.isEmpty).map (·.1)

def isCyclic (edges : String → List String) : List String → Bool
  | [v] => (edges v).contains v
  | _ => true

def cyclicComponents (g : Graph) : List String :=
  let reads := indexedReads g.index
  let edges := fun v => (reads (key v)).filter fun w => !(reads w).isEmpty
  ((components g.readers edges).filter (isCyclic edges)).flatten

/-- The cells on cycles, by paths; from the first search on that runs out of its budget, the
components answer. -/
def cyclicPaths (g : Graph) (search : String → Option Bool) : List String → List String
  | [] => []
  | v :: vs =>
    match search v with
    | some true => v :: cyclicPaths g search vs
    | some false => cyclicPaths g search vs
    | none =>
      let cyclic := g.cyclicComponents
      (v :: vs).filter cyclic.contains

def circular (g : Graph) (strategy : Strategy) : List String :=
  let cells :=
    match strategy with
    | .paths budget =>
      let reads := indexedReads g.index
      g.cyclicPaths (PathSearch.reachesItself reads · budget) g.readers
    | .components => g.cyclicComponents
  cells.mergeSort fun a b => decide (a ≤ b)

end Graph

end FormulaAudit.Dependency
