import FormulaAudit.Proofs.Expr.Preorder
import Mathlib.Algebra.BigOperators.Ring.List
import Mathlib.Algebra.Ring.Nat

/-!
The walk over an expression ends, and the weights that it adds up are a sum over subtrees. A call weighs
more the deeper it stands, so a subtree that moves down by one level gains a half for each call in it.
-/

namespace FormulaAudit.Expr

section Visits

inductive Visits : List (Nat × Expr) → List (Nat × Expr) → Prop
  | done : Visits [] []
  | next {depth : Nat} {e : Expr} {rest visited : List (Nat × Expr)} :
      Visits (e.children.map (depth + 1, ·) ++ rest) visited →
      Visits ((depth, e) :: rest) ((depth, e) :: visited)

variable {todo visited : List (Nat × Expr)}

lemma visits_walkFrom (todo : List (Nat × Expr)) : Visits todo (walkFrom todo) := by
  induction todo using walkFrom.induct with
  | case1 =>
    rw [walkFrom]
    exact .done
  | case2 depth e rest ih =>
    rw [walkFrom]
    exact .next ih

lemma Visits.eq_walkFrom (h : Visits todo visited) : visited = walkFrom todo := by
  induction h with
  | done => rw [walkFrom]
  | next _ ih => rw [walkFrom, ih]

lemma visits_iff : Visits todo visited ↔ visited = todo.flatMap fun p => preorder p.1 p.2 := by
  rw [← walkFrom_eq_preorder]
  constructor
  · exact Visits.eq_walkFrom
  · rintro rfl
    exact visits_walkFrom todo

lemma length_walkFrom (todo : List (Nat × Expr)) :
    (walkFrom todo).length = sizeAll (todo.map (·.2)) := by
  induction todo using walkFrom.induct with
  | case1 => simp [walkFrom, sizeAll]
  | case2 depth e rest ih =>
    simp only [List.map_append, List.map_map, Function.comp_def, List.map_id', sizeAll_append] at ih
    rw [walkFrom, List.length_cons, ih, List.map_cons, sizeAll, size_eq e]
    omega

lemma length_walk (e : Expr) : e.walk.length = e.size := by
  simp [walk, length_walkFrom, sizeAll]

end Visits

section Calls

def isCall : Expr → Bool
  | call _ _ => true
  | _ => false

def callCount (e : Expr) : Nat :=
  e.nodes.countP isCall

lemma callCount_eq (e : Expr) :
    e.callCount = (if e.isCall then 1 else 0) + (e.children.map callCount).sum := by
  have hcomp : List.countP isCall ∘ nodes = callCount := rfl
  rw [callCount, nodes_eq, List.countP_cons, List.countP_flatMap, hcomp, Nat.add_comm]

end Calls

section Weight

mutual

def weightedSum (depth : Nat) : Expr → Nat
  | leaf _ => 0
  | binary _ l r => 1 + (weightedSum (depth + 1) l + weightedSum (depth + 1) r)
  | call _ args => 2 + depth + weightedSumAll (depth + 1) args

def weightedSumAll (depth : Nat) : List Expr → Nat
  | [] => 0
  | e :: es => weightedSum depth e + weightedSumAll depth es

end

lemma weightedSumAll_eq_sum (depth : Nat) (es : List Expr) :
    weightedSumAll depth es = (es.map (weightedSum depth)).sum := by
  induction es with
  | nil => rfl
  | cons e es ih => rw [weightedSumAll, ih, List.map_cons, List.sum_cons]

lemma weightedSum_eq (depth : Nat) (e : Expr) :
    weightedSum depth e = weight depth e + (e.children.map (weightedSum (depth + 1))).sum := by
  cases e <;> simp [weightedSum, weight, children, weightedSumAll_eq_sum]

lemma totalWeight_append (visits visits' : List (Nat × Expr)) :
    totalWeight (visits ++ visits') = totalWeight visits + totalWeight visits' := by
  induction visits with
  | nil => simp [totalWeight]
  | cons p visits ih =>
    obtain ⟨depth, e⟩ := p
    rw [List.cons_append, totalWeight, totalWeight, ih, Nat.add_assoc]

lemma totalWeight_flatMap (f : Expr → List (Nat × Expr)) (es : List Expr) :
    totalWeight (es.flatMap f) = (es.map fun e => totalWeight (f e)).sum := by
  induction es with
  | nil => rfl
  | cons e es ih => rw [List.flatMap_cons, totalWeight_append, ih, List.map_cons, List.sum_cons]

lemma totalWeight_preorder (depth : Nat) (e : Expr) :
    totalWeight (preorder depth e) = weightedSum depth e := by
  induction e using children_induction generalizing depth with
  | step e ih =>
    have hchildren : (e.children.map fun c => totalWeight (preorder (depth + 1) c)) =
        e.children.map (weightedSum (depth + 1)) :=
      List.map_congr_left fun c hc => ih c hc (depth + 1)
    rw [preorder_eq, totalWeight, totalWeight_flatMap, hchildren, weightedSum_eq]

lemma halfUnits_eq_weightedSum (e : Expr) : e.halfUnits = weightedSum 0 e := by
  rw [halfUnits, walk_eq_preorder, totalWeight_preorder]

lemma weight_add (depth levels : Nat) (e : Expr) :
    weight (depth + levels) e = weight depth e + levels * if e.isCall then 1 else 0 := by
  cases e <;> simp [weight, isCall, Nat.add_assoc]

lemma weightedSum_add (depth levels : Nat) (e : Expr) :
    weightedSum (depth + levels) e = weightedSum depth e + levels * e.callCount := by
  induction e using children_induction generalizing depth with
  | step e ih =>
    -- the children move down with their parent, from one level below it
    have hchildren : e.children.map (weightedSum (depth + levels + 1)) =
        e.children.map fun c => weightedSum (depth + 1) c + levels * c.callCount := by
      refine List.map_congr_left fun c hc => ?_
      rw [Nat.add_right_comm]
      exact ih c hc (depth + 1)
    rw [weightedSum_eq, weightedSum_eq depth, callCount_eq, hchildren, List.sum_map_add,
      List.sum_map_mul_left, weight_add, Nat.mul_add]
    omega

lemma weightedSum_one (e : Expr) : weightedSum 1 e = e.halfUnits + e.callCount := by
  have hshift := weightedSum_add 0 1 e
  rwa [Nat.zero_add, Nat.one_mul, ← halfUnits_eq_weightedSum] at hshift

end Weight

theorem walk_and_halfUnits_eq :
    (∀ todo visited, Visits todo visited ↔ visited = todo.flatMap fun p => preorder p.1 p.2) ∧
    (∀ e : Expr, Visits [(0, e)] e.walk ∧ e.walk = preorder 0 e ∧ e.walk.length = e.size) ∧
    (∀ e : Expr, e.halfUnits = weightedSum 0 e) ∧
    (∀ depth levels e, weightedSum (depth + levels) e = weightedSum depth e + levels * callCount e) ∧
    (∀ t, (leaf t).halfUnits = 0) ∧
    (∀ t l r, (binary t l r).halfUnits =
      1 + (l.halfUnits + r.halfUnits) + (l.callCount + r.callCount)) ∧
    ∀ t args, (call t args).halfUnits = 2 + (args.map halfUnits).sum + (args.map callCount).sum := by
  refine ⟨fun todo visited => visits_iff, fun e => ⟨visits_walkFrom _, walk_eq_preorder e, length_walk e⟩,
    halfUnits_eq_weightedSum, weightedSum_add, fun t => ?_, fun t l r => ?_, fun t args => ?_⟩
  · exact halfUnits_eq_weightedSum _
  · rw [halfUnits_eq_weightedSum, weightedSum, weightedSum_one, weightedSum_one]
    omega
  · have hone : weightedSum 1 = fun e => e.halfUnits + e.callCount := funext weightedSum_one
    rw [halfUnits_eq_weightedSum, weightedSum, weightedSumAll_eq_sum, hone, List.sum_map_add]
    omega

end FormulaAudit.Expr
