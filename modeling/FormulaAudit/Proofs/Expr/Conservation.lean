import FormulaAudit.Proofs.Expr.Grammar
import FormulaAudit.Proofs.Expr.Preorder

/-!
Building an expression loses no token and makes none up, whatever list of tokens is accepted. The
leaves even keep their order: operators and calls only ever join operands that lie next to each other
on the stack.
-/

namespace FormulaAudit

namespace Token

variable {t : Token}

def MakesNode (t : Token) : Prop :=
  ¬ t.IsSymbol "(" ∧ ¬ t.IsSymbol ")" ∧ ¬ t.IsSymbol ","
  deriving Decidable

lemma IsOperand.makesNode (h : t.IsOperand) : t.MakesNode :=
  ⟨h.not_isSymbol _, h.not_isSymbol _, h.not_isSymbol _⟩

lemma IsInfix.makesNode (h : t.IsInfix) : t.MakesNode :=
  ⟨fun hs => h.2.1 hs.2, fun hs => h.2.2.1 hs.2, fun hs => h.2.2.2 hs.2⟩

lemma makesNode_of_function (h : t.kind = .function) : t.MakesNode :=
  ⟨not_isSymbol_of_function h _, not_isSymbol_of_function h _, not_isSymbol_of_function h _⟩

lemma IsSymbol.not_makesNode {symbol : String} (h : t.IsSymbol symbol)
    (hs : symbol = "(" ∨ symbol = ")" ∨ symbol = ",") : ¬ t.MakesNode := by
  rintro ⟨h₁, h₂, h₃⟩
  rcases hs with rfl | rfl | rfl
  · exact h₁ h
  · exact h₂ h
  · exact h₃ h

lemma filter_makesNode {p : Token → Bool} (hp : ∀ t, p t = true → t.MakesNode) (ts : List Token) :
    (ts.filter (·.MakesNode)).filter p = ts.filter p := by
  rw [List.filter_filter]
  refine List.filter_congr fun t _ => ?_
  by_cases h : p t = true
  · simp [h, hp t h]
  · simp [h]

end Token

namespace Expr

def leafToken? : Expr → Option Token
  | .leaf t => some t
  | _ => none

def operatorToken? : Expr → Option Token
  | .binary op _ _ => some op
  | _ => none

def functionToken? : Expr → Option Token
  | .call f _ => some f
  | _ => none

def leafTokens (e : Expr) : List Token :=
  e.collect leafToken?

def operatorTokens (e : Expr) : List Token :=
  e.collect operatorToken?

def functionTokens (e : Expr) : List Token :=
  e.collect functionToken?

@[simp] lemma leafTokens_leaf (t : Token) : leafTokens (.leaf t) = [t] := by
  simp [leafTokens, collect_eq, leafToken?, children]

@[simp] lemma leafTokens_binary (op : Token) (l r : Expr) :
    leafTokens (.binary op l r) = l.leafTokens ++ r.leafTokens := by
  rw [leafTokens, collect_eq]
  simp [leafToken?, children, leafTokens]

@[simp] lemma leafTokens_call (f : Token) (args : List Expr) :
    leafTokens (.call f args) = args.flatMap leafTokens := by
  rw [leafTokens, collect_eq]
  rfl

lemma leafCount_eq (e : Expr) : e.leafCount = e.leafTokens.length := by
  rw [leafTokens, collect, List.length_filterMap_eq_countP, leafCount]
  congr 1
  funext p
  cases p.2 <;> rfl

section OfKind

variable {e : Expr}

lemma WellFormed.collect_eq_filter {f : Expr → Option Token} {p : Token → Bool}
    (hf : ∀ n : Expr, n.WellFormed → f n = if p n.token then some n.token else none)
    (he : e.WellFormed) : e.collect f = e.tokens.filter p := by
  rw [collect_eq_filterMap, tokens, ← List.filterMap_eq_filter, List.filterMap_map]
  refine List.filterMap_congr fun n hn => ?_
  rw [hf n (he.of_mem_nodes n hn)]
  rfl

lemma WellFormed.operatorTokens_eq (he : e.WellFormed) :
    e.operatorTokens = e.tokens.filter (·.IsInfix) := by
  refine he.collect_eq_filter fun n hn => ?_
  cases hn with
  | leaf ht =>
    have hi : ¬ Token.IsInfix _ := fun hi => ht.1 hi.1
    simp [operatorToken?, token, hi]
  | binary hop _ _ => simp [operatorToken?, token, hop]
  | @call f _ hf _ _ =>
    have hi : ¬ f.IsInfix := fun hi => by simp [hi.1] at hf
    simp [operatorToken?, token, hi]

lemma WellFormed.functionTokens_eq (he : e.WellFormed) :
    e.functionTokens = e.tokens.filter (·.kind = .function) := by
  refine he.collect_eq_filter fun n hn => ?_
  cases hn with
  | leaf ht => simp [functionToken?, token, ht.2]
  | binary hop _ _ => simp [functionToken?, token, hop.1]
  | call hf _ _ => simp [functionToken?, token, hf]

end OfKind

namespace Builder

variable {b b' : Builder} {t : Token} {ts : List Token}

def heldToken? : Pending → Option Token
  | .operator t => some t
  | .function t => some t
  | .paren _ _ _ => none

def held (b : Builder) : List Token :=
  b.operands.flatMap tokens ++ b.pending.filterMap heldToken?

lemma Applies.held_perm (h : Applies b b') : b'.held.Perm b.held := by
  cases h with
  | join _ =>
    refine List.perm_iff_count.mpr fun op => ?_
    simp only [held, List.flatMap_cons, tokens_binary, List.filterMap_cons, heldToken?,
      List.count_append, List.count_cons]
    omega

lemma Reduces.held_perm (h : Reduces b b') : b'.held.Perm b.held := by
  induction h with
  | refl => exact .refl _
  | tail _ hstep ih => exact hstep.held_perm.trans ih

lemma held_closeCall (f paren : Token) (operands : List Expr) (n base arg : Nat)
    (pending : List Pending) (calls calls' : List Nat) :
    (held ⟨.call f (operands.take n).reverse :: operands.drop n, pending, calls'⟩).Perm
      (held ⟨operands, .paren paren base arg :: .function f :: pending, calls⟩) := by
  have hrev : ((operands.take n).reverse.flatMap tokens).Perm ((operands.take n).flatMap tokens) :=
    (List.reverse_perm _).flatMap_right _
  refine List.perm_iff_count.mpr fun x => ?_
  have hcount := hrev.count_eq x
  have hsplit : (operands.flatMap tokens).count x =
      ((operands.take n).flatMap tokens).count x + ((operands.drop n).flatMap tokens).count x := by
    rw [← List.count_append, ← List.flatMap_append, List.take_append_drop]
  simp only [held, List.flatMap_cons, tokens_call, List.filterMap_cons, heldToken?, List.cons_append,
    List.count_append, List.count_cons]
  omega

lemma Pushes.held_perm (h : Pushes b t b') : b'.held.Perm (b.held ++ [t].filter (·.MakesNode)) := by
  have hkept (hn : ¬ t.MakesNode) (hp : b'.held.Perm b.held) :
      b'.held.Perm (b.held ++ [t].filter (·.MakesNode)) := by
    simpa [hn] using hp
  have hadded (hn : t.MakesNode) (hp : b'.held.Perm (t :: b.held)) :
      b'.held.Perm (b.held ++ [t].filter (·.MakesNode)) := by
    simpa [hn] using hp.trans (List.perm_append_singleton t b.held).symm
  cases h with
  | operand ht => exact hadded ht.makesNode (by simp [held, pushOperand])
  | function ht => exact hadded (Token.makesNode_of_function ht) List.perm_middle
  | operator ht hr _ =>
    exact hadded ht.makesNode (List.perm_middle.trans (hr.held_perm.cons t))
  | openParen ht => exact hkept (ht.not_makesNode (by simp)) (.refl _)
  | comma ht hr => exact hkept (ht.not_makesNode (by simp)) hr.held_perm
  | strayComma ht hr _ _ => exact hkept (ht.not_makesNode (by simp)) hr.held_perm
  | closeGroup ht hr _ => exact hkept (ht.not_makesNode (by simp)) hr.held_perm
  | closeCall ht hr _ _ =>
    exact hkept (ht.not_makesNode (by simp)) ((held_closeCall ..).trans hr.held_perm)

lemma Runs.held_perm (h : Runs b ts b') : b'.held.Perm (b.held ++ ts.filter (·.MakesNode)) := by
  induction h with
  | nil => simp
  | @cons b b' b'' t ts hp _ ih =>
    have hstep := hp.held_perm.append_right (ts.filter (·.MakesNode))
    rw [List.append_assoc, ← List.filter_append] at hstep
    exact ih.trans hstep

lemma tokens_of_ofTokens {e : Expr} (h : ofTokens ts = .ok e) :
    e.tokens.Perm (ts.filter (·.MakesNode)) := by
  obtain ⟨b, calls, hruns, hr⟩ := ofTokens_eq_ok h
  simpa [held] using hr.held_perm.trans hruns.held_perm

lemma operatorTokens_of_ofTokens {e : Expr} (h : ofTokens ts = .ok e) :
    e.operatorTokens.Perm (ts.filter (·.IsInfix)) := by
  have hperm := (tokens_of_ofTokens h).filter (·.IsInfix)
  rw [Token.filter_makesNode fun t ht => Token.IsInfix.makesNode (of_decide_eq_true ht)] at hperm
  rwa [(wellFormed_of_ofTokens h).operatorTokens_eq]

lemma functionTokens_of_ofTokens {e : Expr} (h : ofTokens ts = .ok e) :
    e.functionTokens.Perm (ts.filter (·.kind = .function)) := by
  have hperm := (tokens_of_ofTokens h).filter (·.kind = .function)
  rw [Token.filter_makesNode fun t ht => Token.makesNode_of_function (of_decide_eq_true ht)] at hperm
  rwa [(wellFormed_of_ofTokens h).functionTokens_eq]

def leaves (b : Builder) : List Token :=
  b.operands.reverse.flatMap leafTokens

lemma Applies.leaves_eq (h : Applies b b') : b'.leaves = b.leaves := by
  cases h with
  | join _ => simp [leaves]

lemma Reduces.leaves_eq (h : Reduces b b') : b'.leaves = b.leaves := by
  induction h with
  | refl => rfl
  | tail _ hstep ih => exact hstep.leaves_eq.trans ih

lemma leaves_closeCall (f : Token) (operands : List Expr) (n : Nat) (pending pending' : List Pending)
    (calls calls' : List Nat) :
    leaves ⟨.call f (operands.take n).reverse :: operands.drop n, pending, calls⟩ =
      leaves ⟨operands, pending', calls'⟩ := by
  have hsplit : operands.reverse = (operands.drop n).reverse ++ (operands.take n).reverse := by
    rw [← List.reverse_append, List.take_append_drop]
  simp only [leaves, hsplit, List.reverse_cons, List.flatMap_append, List.flatMap_singleton,
    leafTokens_call]

lemma Pushes.leaves_eq (h : Pushes b t b') : b'.leaves = b.leaves ++ [t].filter (·.IsOperand) := by
  have hkept (hn : ¬ t.IsOperand) (hp : b'.leaves = b.leaves) :
      b'.leaves = b.leaves ++ [t].filter (·.IsOperand) := by
    simpa [hn] using hp
  have hoperator (hk : t.kind = .operator) : ¬ t.IsOperand := fun ho => ho.1 hk
  cases h with
  | operand ht => simp [leaves, pushOperand, ht]
  | function ht => exact hkept (fun ho => ho.2 ht) rfl
  | openParen ht => exact hkept (hoperator ht.1) rfl
  | operator ht hr _ => exact hkept (hoperator ht.1) hr.leaves_eq
  | comma ht hr => exact hkept (hoperator ht.1) hr.leaves_eq
  | strayComma ht hr _ _ => exact hkept (hoperator ht.1) hr.leaves_eq
  | closeGroup ht hr _ => exact hkept (hoperator ht.1) hr.leaves_eq
  | closeCall ht hr _ _ =>
    exact hkept (hoperator ht.1) ((leaves_closeCall ..).trans hr.leaves_eq)

lemma Runs.leaves_eq (h : Runs b ts b') : b'.leaves = b.leaves ++ ts.filter (·.IsOperand) := by
  induction h with
  | nil => simp
  | @cons b b' b'' t ts hp _ ih =>
    rw [ih, hp.leaves_eq, List.append_assoc, ← List.filter_append]
    rfl

lemma leafTokens_of_ofTokens {e : Expr} (h : ofTokens ts = .ok e) :
    e.leafTokens = ts.filter (·.IsOperand) := by
  obtain ⟨b, calls, hruns, hr⟩ := ofTokens_eq_ok h
  simpa [leaves] using hr.leaves_eq.trans hruns.leaves_eq

end Builder

theorem ofTokens_conserves {ts : List Token} {e : Expr} (h : ofTokens ts = .ok e) :
    e.leafTokens = ts.filter (·.IsOperand) ∧ e.leafCount = ts.countP (·.IsOperand) ∧
      e.operatorTokens.Perm (ts.filter (·.IsInfix)) ∧
      e.functionTokens.Perm (ts.filter (·.kind = .function)) ∧
      ∀ f args, .call f args ∈ e.nodes → (Function.arityOf f.value).Admits args.length := by
  have hleaves := Builder.leafTokens_of_ofTokens h
  refine ⟨hleaves, ?_, Builder.operatorTokens_of_ofTokens h, Builder.functionTokens_of_ofTokens h, ?_⟩
  · rw [leafCount_eq, hleaves, List.countP_eq_length_filter]
  · intro f args hn
    cases (Builder.wellFormed_of_ofTokens h).of_mem_nodes _ hn with
    | call _ harity _ => exact harity

theorem ofTokens_conserves_unscanned :
    let sum : Token := ⟨.function, "SUM", 7, 3⟩
    let cell : Token := ⟨.cellRef, "A1", 0, 0⟩
    let two : Token := ⟨.number, "2", 0, 9⟩
    let unknown : Token := ⟨.operator, "??", 5, 2⟩
    let plus : Token := ⟨.operator, "+", 0, 1⟩
    let ts := [sum, cell, ⟨.operator, "(", 9, 9⟩, two, unknown, two, ⟨.operator, ")", 4, 4⟩, plus]
    let inner := Expr.binary unknown (.leaf two) (.leaf two)
    let e := Expr.binary plus (.leaf cell) (.call sum [inner])
    ofTokens ts = .ok e ∧ e.leafTokens = [cell, two, two] ∧ e.leafCount = 3 ∧
      e.operatorTokens.Perm [unknown, plus] ∧ e.functionTokens.Perm [sum] ∧
      (Function.arityOf sum.value).Admits [inner].length := by
  intro sum cell two unknown plus ts inner e
  have h : ofTokens ts = .ok e := by
    dsimp only [ts, e, inner, sum, cell, two, unknown, plus]
    with_unfolding_all rfl
  obtain ⟨hleaves, hcount, hoperators, hfunctions, harity⟩ := ofTokens_conserves h
  refine ⟨h, hleaves, hcount, hoperators, hfunctions, harity sum [inner] ?_⟩
  have hcall : Expr.call sum [inner] ∈ e.children := by simp [e, children]
  exact mem_nodes_iff.mpr (.inr ⟨_, hcall, mem_nodes_iff.mpr (.inl rfl)⟩)

end Expr

end FormulaAudit
