import FormulaAudit.Formula.Analysis
import FormulaAudit.Proofs.Expr.SourceOrder

/-! The references and calls found in a formula are those of its tokens, in source order. -/

namespace FormulaAudit

def Token.values (kind : Token.Kind) (ts : List Token) : List String :=
  (ts.filter (·.kind = kind)).map (·.value)

lemma Token.values_eq_filterMap (kind : Token.Kind) (ts : List Token) :
    values kind ts = ts.filterMap fun t => if t.kind = kind then some t.value else none := by
  simp only [values, ← List.filterMap_eq_map, List.filterMap_filter, decide_eq_true_eq]
  rfl

lemma Token.values_filter_ne_operator {kind : Token.Kind} (h : kind ≠ .operator) (ts : List Token) :
    values kind (ts.filter (·.kind ≠ .operator)) = values kind ts := by
  rw [values, List.filter_filter, values]
  congr 1
  refine List.filter_congr fun t _ => ?_
  by_cases ht : t.kind = kind
  · simp [ht, h]
  · simp [ht]

namespace Expr

lemma filterMap_operandTokens {β : Type} (g : Token → Option β) (e : Expr) :
    e.operandTokens.filterMap g = e.walk.filterMap fun p => p.2.operandToken?.bind g := by
  rw [operandTokens, collect, List.filterMap_filterMap]

lemma leafValues_eq_values {kind : Token.Kind} (hk : kind ≠ .function) {e : Expr}
    (he : e.WellFormed) : e.leafValues kind = Token.values kind e.operandTokens := by
  rw [Token.values_eq_filterMap, filterMap_operandTokens, leafValues]
  refine List.filterMap_congr ?_
  rintro ⟨depth, n⟩ hn
  cases he.of_mem_walk hn with
  | leaf | binary => rfl
  | call hf => simp [operandToken?, token, hf, Ne.symm hk]

lemma volatileFunctions_eq {e : Expr} (he : e.WellFormed) :
    e.volatileFunctions =
      ((Token.values .function e.operandTokens).filter Function.isVolatileName).map Text.upper := by
  rw [Token.values_eq_filterMap, List.filter_filterMap, List.map_filterMap, filterMap_operandTokens,
    volatileFunctions]
  refine List.filterMap_congr ?_
  rintro ⟨depth, n⟩ hn
  cases he.of_mem_walk hn with
  | leaf ht => simp [operandToken?, token, ht.2]
  | binary => rfl
  | @call f args hf =>
    by_cases hv : Function.isVolatileName f.value <;> simp [operandToken?, token, hf, hv, Option.filter]

end Expr

namespace Formula

lemma ofTokens_of_parse {s : String} {e : Expr} (h : parse s = .ok e) :
    Expr.ofTokens (tokens s) = .ok e := by
  unfold parse at h
  split at h
  · simp at h
  · exact h

lemma exists_parse_eq_ok {s : String} (h : (parse s).toOption.isSome = true) : ∃ e, parse s = .ok e := by
  cases hp : parse s with
  | error => simp [hp, Except.toOption] at h
  | ok e => exact ⟨e, rfl⟩

lemma wellFormed_of_parse {s : String} {e : Expr} (h : parse s = .ok e) : e.WellFormed :=
  Expr.Builder.wellFormed_of_ofTokens (ofTokens_of_parse h)

lemma operandTokens_of_parse {s : String} {e : Expr} (h : parse s = .ok e) :
    e.operandTokens = (tokens s).filter (·.kind ≠ .operator) :=
  Expr.Builder.operandTokens_of_ofTokens (Token.called_scanFrom 0 _) (ofTokens_of_parse h)

lemma leafValues_of_parse {s : String} {e : Expr} (h : parse s = .ok e) {kind : Token.Kind}
    (ho : kind ≠ .operator) (hf : kind ≠ .function) :
    e.leafValues kind = Token.values kind (tokens s) := by
  rw [Expr.leafValues_eq_values hf (wellFormed_of_parse h), operandTokens_of_parse h,
    Token.values_filter_ne_operator ho]

lemma references_subset (s : String) :
    (analyze s).dependencies ⊆ Token.values .cellRef (tokens s) ∧
      (analyze s).usedRanges ⊆ Token.values .rangeRef (tokens s) := by
  unfold analyze
  cases h : parse s with
  | error e =>
    have hnil : (rejection (isBalanced s) e).dependencies = [] ∧
        (rejection (isBalanced s) e).usedRanges = [] := by
      cases e <;> exact ⟨rfl, rfl⟩
    simp [hnil]
  | ok e =>
    have hrefs : e.dependencies ⊆ Token.values .cellRef (tokens s) ∧
        e.usedRanges ⊆ Token.values .rangeRef (tokens s) := by
      rw [Expr.dependencies, Expr.usedRanges, leafValues_of_parse h (by simp) (by simp),
        leafValues_of_parse h (by simp) (by simp)]
      exact ⟨fun r hr => List.mem_eraseDups.mp hr, fun r hr => List.mem_eraseDups.mp hr⟩
    dsimp only
    split <;> exact hrefs

lemma isNameChar_of_mem_values {s r : String} {kind : Token.Kind} (hk : Lexeme.IsNameKind kind)
    (h : r ∈ Token.values kind (tokens s)) : ∀ c ∈ r.toList, Lexeme.isNameChar c = true := by
  obtain ⟨t, ht, rfl⟩ := List.mem_map.mp h
  obtain ⟨ht, hkind⟩ := List.mem_filter.mp ht
  exact Token.isNameChar_of_mem_scanFrom ht (of_decide_eq_true hkind ▸ hk)

theorem analyze_of_parse {s : String} {e : Expr} (h : parse s = .ok e) :
    e.walk.filterMap (fun p => p.2.operandToken?) = (tokens s).filter (·.kind ≠ .operator) ∧
    e.analyze.dependencies = (Token.values .cellRef (tokens s)).eraseDups ∧
    e.analyze.usedRanges = (Token.values .rangeRef (tokens s)).eraseDups ∧
    e.analyze.volatileFunctions =
      ((Token.values .function (tokens s)).filter Function.isVolatileName).map Text.upper ∧
    e.analyze.repeatedReferences =
      ((Token.values .cellRef (tokens s)).eraseDups.filter
        fun r => 2 ≤ (Token.values .cellRef (tokens s)).count r).map
          fun r => ⟨r, (Token.values .cellRef (tokens s)).count r⟩ := by
  have hcells : e.leafValues .cellRef = Token.values .cellRef (tokens s) :=
    leafValues_of_parse h (by simp) (by simp)
  refine ⟨operandTokens_of_parse h, congrArg List.eraseDups hcells, ?_, ?_, ?_⟩
  · exact congrArg List.eraseDups (leafValues_of_parse h (by simp) (by simp))
  · refine (Expr.volatileFunctions_eq (wellFormed_of_parse h)).trans ?_
    rw [operandTokens_of_parse h, Token.values_filter_ne_operator (by simp)]
  · show e.repeatedReferences = _
    rw [Expr.repeatedReferences, hcells, ← List.filterMap_eq_map, List.filterMap_filter]
    refine List.filterMap_congr fun r _ => ?_
    simp [Nat.succ_le_iff]

theorem analyze_of_parse_lenient :
    ∃ e, parse "=SUM(A1,,(B2:C3))*(NOW()-$A$1) / A1" = .ok e ∧
      e.analyze.dependencies = ["A1", "$A$1"] ∧ e.analyze.usedRanges = ["B2:C3"] ∧
      e.analyze.volatileFunctions = ["NOW"] ∧ e.analyze.repeatedReferences = [⟨"A1", 2⟩] := by
  have hok : ((parse "=SUM(A1,,(B2:C3))*(NOW()-$A$1) / A1").toOption).isSome = true := by
    decide +kernel
  cases h : parse "=SUM(A1,,(B2:C3))*(NOW()-$A$1) / A1" with
  | error => simp [h, Except.toOption] at hok
  | ok e =>
    obtain ⟨-, hdep, hran, hvol, hrep⟩ := analyze_of_parse h
    refine ⟨e, rfl, hdep.trans ?_, hran.trans ?_, hvol.trans ?_, hrep.trans ?_⟩ <;> decide +kernel

end Formula

end FormulaAudit
