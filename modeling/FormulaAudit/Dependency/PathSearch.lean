/-!
A search for a path from a vertex back to itself that keeps every path it follows apart, under a
budget: a step costs one unit, and each path copied costs its length.
-/

namespace FormulaAudit.Dependency.PathSearch

variable {α : Type} [BEq α]

inductive Outcome (α : Type)
  | found
  | remaining (budget : Nat) (todo : List (α × List α))

/-- Follows the edges to `targets` from the end of `path`. Vertices on the path and vertices without
edges of their own are left out. -/
def expand (edges : α → List α) (start : α) (path : List α) :
    List α → Nat → List (α × List α) → Outcome α
  | [], budget, todo => .remaining budget todo
  | v :: vs, budget, todo =>
    if v == start then .found
    else if path.contains v || (edges v).isEmpty then expand edges start path vs budget todo
    else expand edges start path vs (budget - path.length) ((v, v :: path) :: todo)

theorem expand_budget_le (edges : α → List α) (start : α) (path targets : List α) (budget : Nat)
    (todo : List (α × List α)) {left : Nat} {todo' : List (α × List α)}
    (h : expand edges start path targets budget todo = .remaining left todo') : left ≤ budget := by
  induction targets generalizing budget todo with
  | nil => simp [expand] at h; omega
  | cons v vs ih =>
    simp only [expand] at h
    split at h
    · simp at h
    · split at h
      · exact ih _ _ h
      · exact Nat.le_trans (ih _ _ h) (Nat.sub_le _ _)

/-- `none` when the budget runs out first. -/
def search (edges : α → List α) (start : α) (budget : Nat) : List (α × List α) → Option Bool
  | [] => some false
  | (v, path) :: todo =>
    match budget with
    | 0 => none
    | budget + 1 =>
      match _h : expand edges start path (edges v) budget todo with
      | .found => some true
      | .remaining left todo' => search edges start left todo'
termination_by budget
decreasing_by
  have := expand_budget_le _ _ _ _ _ _ _h
  omega

def reachesItself (edges : α → List α) (start : α) (budget : Nat) : Option Bool :=
  search edges start budget [(start, [start])]

end FormulaAudit.Dependency.PathSearch
