import FormulaAudit.Expr.Builder
import FormulaAudit.Proofs.Expr.Preorder
import FormulaAudit.Proofs.Token.LetterCase

/-!
Expressions with other token values. The builder reads a value only to tell operators and functions
apart, so it commutes with every change of values that keeps these apart.
-/

namespace FormulaAudit

namespace Formula.Error

def mapNames (f : String → String) : Error → Error
  | empty => empty
  | unmatchedParentheses position => unmatchedParentheses position
  | missingOperand operator position => missingOperand (f operator) position
  | tooFewArguments function least actual => tooFewArguments (f function) least actual
  | tooManyArguments function most actual => tooManyArguments (f function) most actual
  | missingOperator function => missingOperator (f function)
  | invalidStructure operands => invalidStructure operands

end Formula.Error

namespace Expr

open Formula (Error)

mutual

def mapValues (f : String → String) : Expr → Expr
  | leaf t => leaf (t.mapValue f)
  | binary op l r => binary (op.mapValue f) (l.mapValues f) (r.mapValues f)
  | call function args => call (function.mapValue f) (mapValuesAll f args)

def mapValuesAll (f : String → String) : List Expr → List Expr
  | [] => []
  | e :: es => e.mapValues f :: mapValuesAll f es

end

section Walk

variable (f : String → String)

lemma mapValuesAll_eq_map (es : List Expr) : mapValuesAll f es = es.map (mapValues f) := by
  induction es with
  | nil => rfl
  | cons e es ih => rw [mapValuesAll, List.map_cons, ih]

lemma children_mapValues (e : Expr) : (e.mapValues f).children = e.children.map (mapValues f) := by
  cases e with
  | leaf t => rfl
  | binary op l r => rfl
  | call function args => exact mapValuesAll_eq_map f args

lemma walkFrom_mapValues (todo : List (Nat × Expr)) :
    walkFrom (todo.map (Prod.map id (mapValues f))) = (walkFrom todo).map (Prod.map id (mapValues f)) := by
  induction todo using walkFrom.induct with
  | case1 => simp [walkFrom]
  | case2 depth e rest ih =>
    rw [walkFrom, List.map_cons, List.map_cons, ← ih, Prod.map_apply, walkFrom, children_mapValues]
    simp [Function.comp_def]

lemma walk_mapValues (e : Expr) : (e.mapValues f).walk = e.walk.map (Prod.map id (mapValues f)) :=
  walkFrom_mapValues f [(0, e)]

lemma totalWeight_mapValues (visits : List (Nat × Expr)) :
    totalWeight (visits.map (Prod.map id (mapValues f))) = totalWeight visits := by
  induction visits with
  | nil => rfl
  | cons visit visits ih =>
    obtain ⟨depth, e⟩ := visit
    rw [List.map_cons, Prod.map_apply, totalWeight, totalWeight, ih]
    cases e <;> rfl

lemma halfUnits_mapValues (e : Expr) : (e.mapValues f).halfUnits = e.halfUnits := by
  rw [halfUnits, walk_mapValues, totalWeight_mapValues, halfUnits]

end Walk

structure Neutral (f : String → String) : Prop where
  opening (v : String) : f v = "(" ↔ v = "("
  closing (v : String) : f v = ")" ↔ v = ")"
  comma (v : String) : f v = "," ↔ v = ","
  precedence (v : String) : precedence (f v) = precedence v
  arity (v : String) : Function.arityOf (f v) = Function.arityOf v

def Pending.mapValues (f : String → String) : Pending → Pending
  | operator t => operator (t.mapValue f)
  | paren t operandBase argBase => paren (t.mapValue f) operandBase argBase
  | function t => function (t.mapValue f)

def mapResult {α β : Type} (f : String → String) (g : α → β) : Except Error α → Except Error β
  | .ok a => .ok (g a)
  | .error e => .error (e.mapNames f)

lemma mapResult_bind {α β γ δ : Type} {f : String → String} {g : α → β} {h : γ → δ} {k : α → Except Error γ}
    {l : β → Except Error δ} (hkl : ∀ a, l (g a) = mapResult f h (k a)) (r : Except Error α) :
    (mapResult f g r >>= l) = mapResult f h (r >>= k) := by
  cases r with
  | error e => rfl
  | ok a => exact hkl a

namespace Builder

def mapValues (f : String → String) (b : Builder) : Builder :=
  ⟨b.operands.map (Expr.mapValues f), b.pending.map (Pending.mapValues f), b.calls⟩

section Steps

variable {f : String → String}

lemma floor_mapValues (pending : List Pending) :
    floor (pending.map (Pending.mapValues f)) = floor pending := by
  induction pending with
  | nil => rfl
  | cons p pending ih =>
    cases p with
    | operator t => exact ih
    | paren t operandBase argBase => rfl
    | function t => exact ih

lemma apply_mapValues (b : Builder) (op : Token) :
    (b.mapValues f).apply (op.mapValue f) = mapResult f (mapValues f) (b.apply op) := by
  obtain ⟨operands, pending, calls⟩ := b
  match operands with
  | [] | [_] => rfl
  | right :: left :: rest =>
    simp only [apply, mapValues, List.map_cons, List.length_cons, List.length_map, floor_mapValues]
    split <;> rfl

lemma countComma_mapValues (pending : List Pending) (calls : List Nat) :
    countComma (pending.map (Pending.mapValues f)) calls = countComma pending calls := by
  match pending with
  | [] | .operator _ :: _ | .paren _ _ _ :: _ => rfl
  | .function _ :: _ => cases calls <;> rfl

variable (hf : Neutral f)
include hf

lemma reduce_mapValues (strength : Nat) (operands : List Expr) (calls : List Nat) (pending : List Pending) :
    reduce strength (operands.map (Expr.mapValues f)) calls (pending.map (Pending.mapValues f)) =
      mapResult f (mapValues f) (reduce strength operands calls pending) := by
  induction pending generalizing operands with
  | nil => rfl
  | cons p pending ih =>
    cases p with
    | operator op =>
      have happly := apply_mapValues (f := f) ⟨operands, pending, calls⟩ op
      rw [List.map_cons, Pending.mapValues, reduce, reduce, Token.value_mapValue, hf.precedence]
      split
      · rw [mapValues] at happly
        rw [happly]
        cases apply ⟨operands, pending, calls⟩ op with
        | error e => rfl
        | ok b => exact ih b.operands
      · rfl
    | paren t operandBase argBase => rfl
    | function t => rfl

lemma reduceTo_mapValues (strength : Nat) (b : Builder) :
    (b.mapValues f).reduceTo strength = mapResult f (mapValues f) (b.reduceTo strength) :=
  reduce_mapValues hf strength b.operands b.calls b.pending

lemma pushOperator_mapValues (b : Builder) (t : Token) :
    (b.mapValues f).pushOperator (t.mapValue f) = mapResult f (mapValues f) (b.pushOperator t) := by
  rw [pushOperator, pushOperator, Token.value_mapValue, hf.precedence, reduceTo_mapValues hf]
  refine mapResult_bind (fun b => ?_) _
  rfl

lemma separate_mapValues (b : Builder) :
    (b.mapValues f).separate = mapResult f (mapValues f) b.separate := by
  rw [separate, separate, reduceTo_mapValues hf]
  refine mapResult_bind (fun b => ?_) _
  obtain ⟨operands, pending, calls⟩ := b
  match pending with
  | .paren t base argBase :: rest =>
    simp only [mapValues, List.map_cons, Pending.mapValues, List.length_map, countComma_mapValues]
    rfl
  | [] | .operator _ :: _ | .function _ :: _ => rfl

lemma finishCall_mapValues (operands : List Expr) (function : Token) (base commas : Nat) :
    finishCall (operands.map (Expr.mapValues f)) (function.mapValue f) base commas =
      mapResult f (List.map (Expr.mapValues f)) (finishCall operands function base commas) := by
  -- The checks read only the arity and the number of operands; the call itself is renamed last.
  simp only [finishCall, Token.value_mapValue, hf.arity, List.length_map]
  split
  · rfl
  split
  · rfl
  have hcall : Expr.call (function.mapValue f)
      ((operands.map (Expr.mapValues f)).take (operands.length - base)).reverse =
        (Expr.call function (operands.take (operands.length - base)).reverse).mapValues f := by
    rw [Expr.mapValues, mapValuesAll_eq_map, List.map_reverse, List.map_take]
  rw [hcall, ← List.map_drop]
  split
  · rfl
  split <;> rfl

lemma closeParen_mapValues (b : Builder) (t : Token) :
    (b.mapValues f).closeParen (t.mapValue f) = mapResult f (mapValues f) (b.closeParen t) := by
  rw [closeParen, closeParen, reduceTo_mapValues hf]
  refine mapResult_bind (fun b => ?_) _
  obtain ⟨operands, pending, calls⟩ := b
  match pending with
  | .paren _ base _ :: .function g :: rest =>
    have hcall := finishCall_mapValues hf operands g base (calls.headD 0)
    simp only [mapValues, List.map_cons, Pending.mapValues, hcall]
    refine mapResult_bind (fun operands => ?_) _
    rfl
  | [.paren _ _ _] | .paren _ _ _ :: .operator _ :: _ | .paren _ _ _ :: .paren _ _ _ :: _ => rfl
  | [] | .operator _ :: _ | .function _ :: _ => rfl

lemma push_mapValues (b : Builder) (t : Token) :
    (b.mapValues f).push (t.mapValue f) = mapResult f (mapValues f) (b.push t) := by
  cases hkind : t.kind with
  | operator =>
    simp only [push, Token.kind_mapValue, Token.value_mapValue, hkind, hf.opening, hf.closing, hf.comma]
    split
    · simp only [openParen, mapValues, List.length_map]
      rfl
    split
    · exact closeParen_mapValues hf b t
    split
    · exact separate_mapValues hf b
    · exact pushOperator_mapValues hf b t
  | _ =>
    simp only [push, Token.kind_mapValue, hkind]
    rfl

lemma foldlM_push_mapValues (ts : List Token) (b : Builder) :
    (ts.map (Token.mapValue f)).foldlM push (b.mapValues f) =
      mapResult f (mapValues f) (ts.foldlM push b) := by
  induction ts generalizing b with
  | nil => rfl
  | cons t ts ih =>
    rw [List.map_cons, List.foldlM_cons, List.foldlM_cons, push_mapValues hf]
    exact mapResult_bind ih (b.push t)

lemma finish_mapValues (b : Builder) :
    (b.mapValues f).finish = mapResult f (Expr.mapValues f) b.finish := by
  have hopen : (b.mapValues f).pending.reverse.findSome? openPosition =
      b.pending.reverse.findSome? openPosition := by
    rw [mapValues, ← List.map_reverse, List.findSome?_map]
    congr 1
    funext p
    cases p <;> rfl
  rw [finish, finish, hopen, reduceTo_mapValues hf]
  cases b.pending.reverse.findSome? openPosition with
  | some position => rfl
  | none =>
    refine mapResult_bind (g := mapValues f) (fun b => ?_) (b.reduceTo 0)
    obtain ⟨operands, pending, calls⟩ := b
    match operands with
    | [] | [_] => rfl
    | _ :: _ :: _ =>
      simp only [mapValues, List.map_cons, List.length_cons, List.length_map]
      rfl

end Steps

end Builder

lemma ofTokens_mapValue {f : String → String} (hf : Neutral f) (ts : List Token) :
    ofTokens (ts.map (Token.mapValue f)) = mapResult f (mapValues f) (ofTokens ts) := by
  rw [ofTokens, ofTokens, List.isEmpty_map]
  split
  · rfl
  · have hrun := Builder.foldlM_push_mapValues hf ts {}
    change (_ >>= _) = mapResult f (mapValues f) (_ >>= _)
    rw [← mapResult_bind (Builder.finish_mapValues hf), ← hrun]
    rfl

end Expr

end FormulaAudit
