import FormulaAudit.Expr.Walk
import FormulaAudit.Proofs.Expr.WellFormed
import Mathlib.Data.List.Basic

/-! The walk over an expression visits its nodes in pre-order. -/

namespace FormulaAudit.Expr

mutual

def preorder (depth : Nat) : Expr → List (Nat × Expr)
  | leaf t => [(depth, leaf t)]
  | binary t l r => (depth, binary t l r) :: (preorder (depth + 1) l ++ preorder (depth + 1) r)
  | call t args => (depth, call t args) :: preorderAll (depth + 1) args

def preorderAll (depth : Nat) : List Expr → List (Nat × Expr)
  | [] => []
  | e :: es => preorder depth e ++ preorderAll depth es

end

lemma preorderAll_eq_flatMap (depth : Nat) (es : List Expr) :
    preorderAll depth es = es.flatMap (preorder depth) := by
  induction es with
  | nil => rfl
  | cons e es ih => simp [preorderAll, ih]

lemma preorder_eq (depth : Nat) (e : Expr) :
    preorder depth e = (depth, e) :: e.children.flatMap (preorder (depth + 1)) := by
  cases e <;> simp [preorder, children, preorderAll_eq_flatMap]

lemma walkFrom_eq_preorder (todo : List (Nat × Expr)) :
    walkFrom todo = todo.flatMap fun p => preorder p.1 p.2 := by
  induction todo using walkFrom.induct with
  | case1 => simp [walkFrom]
  | case2 depth e rest ih =>
    rw [walkFrom, ih, List.flatMap_cons, preorder_eq]
    simp [List.flatMap_map]

lemma walk_eq_preorder (e : Expr) : e.walk = preorder 0 e := by
  simp [walk, walkFrom_eq_preorder]

lemma size_le_sizeAll {e : Expr} {es : List Expr} (h : e ∈ es) : e.size ≤ sizeAll es := by
  induction es with
  | nil => simp at h
  | cons c es ih =>
    rw [sizeAll]
    rcases List.mem_cons.mp h with rfl | h
    · omega
    · have := ih h
      omega

@[elab_as_elim]
lemma children_induction {motive : Expr → Prop}
    (step : ∀ e, (∀ c ∈ e.children, motive c) → motive e) (e : Expr) : motive e :=
  step e fun c _ => children_induction step c
termination_by e.size
decreasing_by
  rename_i hc
  have := size_le_sizeAll hc
  rw [size_eq e]
  omega

section Collect

variable {β : Type} (f : Expr → Option β)

def collect (e : Expr) : List β :=
  e.walk.filterMap fun p => f p.2

lemma filterMap_preorder (e : Expr) (d d' : Nat) :
    (preorder d e).filterMap (fun p => f p.2) = (preorder d' e).filterMap fun p => f p.2 := by
  induction e using children_induction generalizing d d' with
  | step e ih =>
    have hc : (e.children.flatMap (preorder (d + 1))).filterMap (fun p => f p.2) =
        (e.children.flatMap (preorder (d' + 1))).filterMap fun p => f p.2 := by
      simp only [List.filterMap_flatMap]
      exact List.flatMap_congr fun c hc => ih c hc (d + 1) (d' + 1)
    rw [preorder_eq d, preorder_eq d', List.filterMap_cons, List.filterMap_cons, hc]

lemma collect_eq (e : Expr) : e.collect f = (f e).toList ++ e.children.flatMap (collect f) := by
  have hc : (fun c => (preorder (0 + 1) c).filterMap fun p => f p.2) = collect f := by
    funext c
    rw [collect, walk_eq_preorder]
    exact filterMap_preorder f c (0 + 1) 0
  rw [collect, walk_eq_preorder, preorder_eq, List.filterMap_cons, List.filterMap_flatMap, hc]
  cases f e <;> rfl

end Collect

def nodes (e : Expr) : List Expr :=
  e.walk.map (·.2)

lemma collect_eq_filterMap {β : Type} (f : Expr → Option β) (e : Expr) :
    e.collect f = e.nodes.filterMap f := by
  rw [nodes, List.filterMap_map]
  rfl

lemma nodes_eq (e : Expr) : e.nodes = e :: e.children.flatMap nodes := by
  have hnodes : nodes = collect some := by
    funext e
    rw [collect_eq_filterMap, List.filterMap_some]
  rw [hnodes, collect_eq]
  rfl

lemma mem_nodes_iff {e n : Expr} : n ∈ e.nodes ↔ n = e ∨ ∃ c ∈ e.children, n ∈ c.nodes := by
  rw [nodes_eq, List.mem_cons, List.mem_flatMap]

def tokens (e : Expr) : List Token :=
  e.nodes.map token

lemma tokens_eq (e : Expr) : e.tokens = e.token :: e.children.flatMap tokens := by
  rw [tokens, nodes_eq, List.map_cons, List.map_flatMap]
  rfl

@[simp] lemma tokens_leaf (t : Token) : tokens (.leaf t) = [t] :=
  tokens_eq _

@[simp] lemma tokens_binary (op : Token) (l r : Expr) :
    tokens (.binary op l r) = op :: (l.tokens ++ r.tokens) := by
  rw [tokens_eq]
  simp [token, children]

@[simp] lemma tokens_call (f : Token) (args : List Expr) :
    tokens (.call f args) = f :: args.flatMap tokens :=
  tokens_eq _

lemma WellFormed.of_mem_children {e c : Expr} (h : e.WellFormed) (hc : c ∈ e.children) :
    c.WellFormed := by
  cases h with
  | leaf => simp [children] at hc
  | binary _ hl hr =>
    simp only [children, List.mem_cons, List.not_mem_nil, or_false] at hc
    rcases hc with rfl | rfl
    · exact hl
    · exact hr
  | call _ _ hargs => exact hargs c hc

lemma WellFormed.of_mem_nodes {e : Expr} (h : e.WellFormed) : ∀ n ∈ e.nodes, n.WellFormed := by
  induction e using children_induction with
  | step e ih =>
    intro n hn
    rcases mem_nodes_iff.mp hn with rfl | ⟨c, hc, hn⟩
    · exact h
    · exact ih c hc (h.of_mem_children hc) n hn

lemma WellFormed.of_mem_walk {e : Expr} (h : e.WellFormed) {depth : Nat} {n : Expr}
    (hn : (depth, n) ∈ e.walk) : n.WellFormed :=
  h.of_mem_nodes n (List.mem_map_of_mem (f := Prod.snd) hn)

end FormulaAudit.Expr
