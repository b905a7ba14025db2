import FormulaAudit.Expr.Basic

/-!
The nodes of an expression in pre-order, each with its depth. A list of subtrees still to be
visited takes the place of recursion, so that deep nesting needs no deep call stack.
-/

namespace FormulaAudit.Expr

mutual

def size : Expr → Nat
  | leaf _ => 1
  | binary _ l r => 1 + (l.size + r.size)
  | call _ args => 1 + sizeAll args

def sizeAll : List Expr → Nat
  | [] => 0
  | e :: es => e.size + sizeAll es

end

theorem sizeAll_append (es fs : List Expr) : sizeAll (es ++ fs) = sizeAll es + sizeAll fs := by
  induction es with
  | nil => simp [sizeAll]
  | cons e es ih => simp [sizeAll, ih]; omega

theorem size_eq (e : Expr) : e.size = 1 + sizeAll e.children := by
  cases e <;> simp [size, sizeAll, children]

def walkFrom (todo : List (Nat × Expr)) : List (Nat × Expr) :=
  match todo with
  | [] => []
  | (depth, e) :: rest => (depth, e) :: walkFrom (e.children.map (depth + 1, ·) ++ rest)
termination_by sizeAll (todo.map (·.2))
decreasing_by
  simp [sizeAll, sizeAll_append, size_eq e, Function.comp_def]

def walk (e : Expr) : List (Nat × Expr) :=
  walkFrom [(0, e)]

def leafCount (e : Expr) : Nat :=
  e.walk.countP fun p => p.2.isLeaf

/-- What one node at a depth adds to the complexity, in half units: a call counts one unit, and a
half more for each level above it; an operator counts a half. -/
def weight (depth : Nat) : Expr → Nat
  | call _ _ => 2 + depth
  | binary _ _ _ => 1
  | leaf _ => 0

def totalWeight : List (Nat × Expr) → Nat
  | [] => 0
  | (depth, e) :: rest => weight depth e + totalWeight rest

def halfUnits (e : Expr) : Nat :=
  totalWeight e.walk

end FormulaAudit.Expr
