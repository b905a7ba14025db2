import FormulaAudit.Expr.Basic
import FormulaAudit.Function.Catalogue
import Mathlib.Tactic.Common

/-! Expressions whose nodes carry tokens of their own kind and whose calls have the arguments they
take. -/

namespace FormulaAudit

namespace Token

def IsOperand (t : Token) : Prop :=
  t.kind ≠ .operator ∧ t.kind ≠ .function

def IsSymbol (t : Token) (symbol : String) : Prop :=
  t.kind = .operator ∧ t.value = symbol

def IsInfix (t : Token) : Prop :=
  t.kind = .operator ∧ t.value ≠ "(" ∧ t.value ≠ ")" ∧ t.value ≠ ","

lemma class_cases (t : Token) :
    t.IsOperand ∨ t.kind = .function ∨ t.IsSymbol "(" ∨ t.IsSymbol ")" ∨ t.IsSymbol "," ∨ t.IsInfix := by
  by_cases ho : t.kind = .operator
  · by_cases h₁ : t.value = "("
    · exact Or.inr (Or.inr (Or.inl ⟨ho, h₁⟩))
    · by_cases h₂ : t.value = ")"
      · exact Or.inr (Or.inr (Or.inr (Or.inl ⟨ho, h₂⟩)))
      · by_cases h₃ : t.value = ","
        · exact Or.inr (Or.inr (Or.inr (Or.inr (Or.inl ⟨ho, h₃⟩))))
        · exact Or.inr (Or.inr (Or.inr (Or.inr (Or.inr ⟨ho, h₁, h₂, h₃⟩))))
  · by_cases hf : t.kind = .function
    · exact Or.inr (Or.inl hf)
    · exact Or.inl ⟨ho, hf⟩

end Token

def Arity.Admits (a : Arity) (n : Nat) : Prop :=
  a.least ≤ n ∧ ∀ most, a.most = some most → n ≤ most

namespace Expr

inductive WellFormed : Expr → Prop
  | leaf {t : Token} : t.IsOperand → WellFormed (.leaf t)
  | binary {op : Token} {l r : Expr} : op.IsInfix → WellFormed l → WellFormed r →
      WellFormed (.binary op l r)
  | call {f : Token} {args : List Expr} : f.kind = .function →
      (Function.arityOf f.value).Admits args.length → (∀ a ∈ args, WellFormed a) →
      WellFormed (.call f args)

end Expr

end FormulaAudit
