import FormulaAudit.Proofs.Expr.Acceptance
import FormulaAudit.Proofs.Expr.Conservation
import FormulaAudit.Proofs.Formula.References

/-!
The shape of the formulas that are accepted: which of them the infix grammar derives, and what is
kept of the others.
-/

namespace FormulaAudit

namespace Formula

/-- The expression of an accepted formula is derived from its tokens by the infix grammar if and only
if each token is well placed. Whatever the places of the tokens, the expression is well-formed, has
the operands and functions of the formula in source order, and has each of its operators once. -/
theorem derives_iff_of_parse {s : String} {e : Expr} (h : parse s = .ok e) :
    (e.Derives (tokens s) ↔ Token.WellPlaced (tokens s)) ∧ e.WellFormed ∧
      e.operandTokens = (tokens s).filter (·.kind ≠ .operator) ∧
      e.operatorTokens.Perm ((tokens s).filter (·.IsInfix)) := by
  have hok := ofTokens_of_parse h
  refine ⟨?_, wellFormed_of_parse h, operandTokens_of_parse h, ?_⟩
  · apply Expr.Builder.derives_iff_wellPlaced _ hok
    exact Token.called_scanFrom 0 (body s)
  · exact Expr.Builder.operatorTokens_of_ofTokens hok

theorem derives_iff_of_parse_nested :
    ∃ e, parse "=SUM(A1,(B1-2)*NOW(),B2:C3)&'x'" = .ok e ∧
      e.Derives (tokens "=SUM(A1,(B1-2)*NOW(),B2:C3)&'x'") ∧ e.operatorTokens.length = 3 := by
  obtain ⟨e, h⟩ : ∃ e, parse "=SUM(A1,(B1-2)*NOW(),B2:C3)&'x'" = .ok e :=
    exists_parse_eq_ok (by decide +kernel)
  obtain ⟨hiff, -, -, hperm⟩ := derives_iff_of_parse h
  exact ⟨e, h, hiff.mpr (by decide +kernel), hperm.length_eq.trans (by decide +kernel)⟩

lemma exists_parse_of_not_wellPlaced {s : String} (hok : (parse s).toOption.isSome = true)
    (hplaced : ¬ Token.WellPlaced (tokens s)) : ∃ e, parse s = .ok e ∧ ¬ e.Derives (tokens s) := by
  obtain ⟨e, h⟩ := exists_parse_eq_ok hok
  exact ⟨e, h, fun hd => hplaced hd.wellPlaced⟩

/-- An operator behind its operands, an empty argument, an empty group and a comma outside of a call
are all accepted. -/
theorem exists_parse_not_derives :
    (∃ e, parse "A1 B1 +" = .ok e ∧ ¬ e.Derives (tokens "A1 B1 +")) ∧
    (∃ e, parse "SUM(A1,,B1)" = .ok e ∧ ¬ e.Derives (tokens "SUM(A1,,B1)")) ∧
    (∃ e, parse "()A1" = .ok e ∧ ¬ e.Derives (tokens "()A1")) ∧
    ∃ e, parse "A1," = .ok e ∧ ¬ e.Derives (tokens "A1,") := by
  refine ⟨?_, ?_, ?_, ?_⟩ <;>
    exact exists_parse_of_not_wellPlaced (by decide +kernel) (by decide +kernel)

end Formula

end FormulaAudit
