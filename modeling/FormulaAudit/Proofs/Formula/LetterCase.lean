import FormulaAudit.Proofs.Dependency.Formulas
import FormulaAudit.Proofs.Expr.Renaming

/-!
The analysis of a formula does not see the case of ASCII letters: in upper case, a formula has the same
expression or error but for its names, the same measures and the same place in a graph.
-/

namespace FormulaAudit

open Text

namespace Address

lemma key_upper (s : String) : key (upper s) = key s := by
  have hdollar : ((· != '$') ∘ Char.toUpper : Char → Bool) = (· != '$') := funext (toUpper_bne rfl)
  have hidem : Char.toUpper ∘ Char.toUpper = Char.toUpper := funext Char.toUpper_toUpper_eq_toUpper
  rw [key, keyChars, toList_upper, trimChars_map_toUpper, List.filter_map, hdollar, List.map_map, hidem,
    key, keyChars]

lemma endpoints_upper (r : String) : endpoints (upper r) = (endpoints r).map (Prod.map upper upper) := by
  have hcolon : ∀ c, (c.toUpper != ':') = (c != ':') := toUpper_bne rfl
  rw [endpoints, endpointChars, toList_upper, contains_map_toUpper rfl, ← List.map_reverse,
    takeWhile_map_toUpper (p := (· != ':')) hcolon, takeWhile_map_toUpper (p := (· != ':')) hcolon,
    endpoints, endpointChars]
  split
  · simp [upper]
  · rfl

end Address

lemma Dependency.rangeEnds_upper (r : String) : rangeEnds (upper r) = rangeEnds r := by
  rw [rangeEnds, Address.endpoints_upper, rangeEnds]
  cases Address.endpoints r with
  | none => rfl
  | some ends => simp only [Option.map_some, Prod.map, Address.key_upper]

namespace Function

lemma find?_upper (name : String) : find? (upper name) = find? name := by
  rw [find?, upper_upper, find?]

lemma isVolatileName_upper (name : String) : isVolatileName (upper name) = isVolatileName name := by
  rw [isVolatileName, find?_upper, isVolatileName]

end Function

namespace Expr

open Address (key_upper)
open Dependency (readsOf mem_readsOf rangeEnds_upper)

lemma neutral_upper : Neutral upper where
  opening _ := upper_eq_iff rfl
  closing _ := upper_eq_iff rfl
  comma _ := upper_eq_iff rfl
  precedence v := by
    have hsymbol (w : String) (hw : w.toList.all (!·.isAlpha) = true) : upper v = w ↔ v = w :=
      upper_eq_iff hw
    simp only [Expr.precedence, hsymbol ":" rfl, hsymbol "^" rfl, hsymbol "*" rfl, hsymbol "/" rfl,
      hsymbol "+" rfl, hsymbol "-" rfl, hsymbol "&" rfl]
  arity v := by rw [Function.arityOf, Function.find?_upper, Function.arityOf]

lemma leafValues_mapValues (f : String → String) (kind : Token.Kind) (e : Expr) :
    (e.mapValues f).leafValues kind = (e.leafValues kind).map f := by
  rw [leafValues, walk_mapValues, List.filterMap_map, leafValues, List.map_filterMap]
  refine List.filterMap_congr ?_
  rintro ⟨depth, n⟩ -
  cases n with
  | leaf t => by_cases ht : t.kind = kind <;> simp [mapValues, Token.mapValue, ht]
  | binary op l r => rfl
  | call function args => rfl

lemma volatileFunctions_upper (e : Expr) : (e.mapValues upper).volatileFunctions = e.volatileFunctions := by
  rw [volatileFunctions, walk_mapValues, List.filterMap_map, volatileFunctions]
  refine List.filterMap_congr ?_
  rintro ⟨depth, n⟩ -
  cases n with
  | leaf t => rfl
  | binary op l r => rfl
  | call function args =>
    simp [mapValues, Token.value_mapValue, Function.isVolatileName_upper, upper_upper]

lemma mem_readsOf_upper {e : Expr} {w : String} :
    w ∈ readsOf (e.mapValues upper).analyze ↔ w ∈ readsOf e.analyze := by
  simp [mem_readsOf, leafValues_mapValues, key_upper, rangeEnds_upper]

end Expr

namespace Formula

open Dependency (Graph readsOf readsOf_of_ok readsOf_of_error map_fst_addRow)
open Dependency.Graph (mem_reads_addFormula)

variable (s : String)

lemma body_upper : body (upper s) = (body s).map Char.toUpper := by
  rw [body, toList_upper, trimChars_map_toUpper, body]
  cases trimChars s.toList with
  | nil => rfl
  | cons c cs =>
    by_cases hc : c = '='
    · subst hc
      rfl
    · have hupper : c.toUpper ≠ '=' := mt (toUpper_eq_iff rfl).mp hc
      simp [hc, hupper]

lemma tokens_upper : tokens (upper s) = (tokens s).map (Token.mapValue upper) := by
  rw [tokens, body_upper, Token.scanFrom_map_toUpper, tokens]

lemma parse_upper : parse (upper s) = Expr.mapResult upper (Expr.mapValues upper) (parse s) := by
  have hblank : isBlank ∘ Char.toUpper = isBlank := funext isBlank_toUpper
  rw [parse, body_upper, List.all_map, hblank, tokens_upper, Expr.ofTokens_mapValue Expr.neutral_upper, parse]
  split <;> rfl

lemma isBalanced_upper : isBalanced (upper s) = isBalanced s := by
  have hcount {d : Char} (hd : d.isAlpha = false) : (upper s).toList.count d = s.toList.count d := by
    rw [toList_upper, List.count, List.countP_map]
    congr 1
    exact funext (toUpper_beq hd)
  rw [isBalanced, hcount rfl, hcount rfl, isBalanced]

lemma measures_upper : (analyze (upper s)).isValid = (analyze s).isValid ∧
    (analyze (upper s)).halfUnits = (analyze s).halfUnits ∧
    (analyze (upper s)).volatileFunctions = (analyze s).volatileFunctions := by
  rw [analyze, parse_upper, isBalanced_upper, analyze]
  cases parse s with
  | error e => cases e <;> exact ⟨rfl, rfl, rfl⟩
  | ok e =>
    have hhalf := Expr.halfUnits_mapValues upper e
    have hvolatile := Expr.volatileFunctions_upper e
    dsimp only [Expr.mapResult]
    split
    · exact ⟨rfl, hhalf, hvolatile⟩
    · exact ⟨rfl, hhalf, hvolatile⟩

lemma mem_readsOf_analyze_upper {w : String} : w ∈ readsOf (analyze (upper s)) ↔ w ∈ readsOf (analyze s) := by
  have hupper := parse_upper s
  cases h : parse s with
  | error e =>
    rw [h] at hupper
    rw [readsOf_of_error hupper, readsOf_of_error h]
  | ok e =>
    rw [h] at hupper
    rw [readsOf_of_ok hupper, readsOf_of_ok h, Expr.mem_readsOf_upper]

theorem analyze_upper (s : String) :
    Token.scan (upper s) = (Token.scan s).map (Token.mapValue upper) ∧
    tokens (upper s) = (tokens s).map (Token.mapValue upper) ∧
    (∀ e, parse s = .ok e → parse (upper s) = .ok (e.mapValues upper)) ∧
    (∀ e, parse s = .error e → parse (upper s) = .error (e.mapNames upper)) ∧
    (analyze (upper s)).isValid = (analyze s).isValid ∧
    (analyze (upper s)).halfUnits = (analyze s).halfUnits ∧
    (analyze (upper s)).volatileFunctions = (analyze s).volatileFunctions ∧
    ∀ (g : Graph) (cell : String),
      (g.addFormula cell (analyze (upper s))).cells = (g.addFormula cell (analyze s)).cells ∧
      ∀ k w, w ∈ (g.addFormula cell (analyze (upper s))).reads k ↔
        w ∈ (g.addFormula cell (analyze s)).reads k := by
  obtain ⟨hvalid, hhalf, hvolatile⟩ := measures_upper s
  refine ⟨Token.scan_upper s, tokens_upper s, ?_, ?_, hvalid, hhalf, hvolatile, ?_⟩
  · intro e h
    rw [parse_upper, h]
    rfl
  · intro e h
    rw [parse_upper, h]
    rfl
  · intro g cell
    constructor
    · simp only [Graph.cells, Graph.addFormula, map_fst_addRow]
    · intro k w
      rw [mem_reads_addFormula, mem_reads_addFormula, mem_readsOf_analyze_upper]

theorem analyze_upper_call :
    (∃ e, parse "=sum($b$2:c3,1e5)&rand()" = .ok e ∧
      parse "=SUM($B$2:C3,1E5)&RAND()" = .ok (e.mapValues upper)) ∧
    parse "=left(a1,2,3)" = .error (.tooManyArguments "left" 2 3) ∧
    parse "=LEFT(A1,2,3)" = .error (.tooManyArguments "LEFT" 2 3) := by
  have htokens : tokens "=left(a1,2,3)" = [⟨.function, "left", 0, 4⟩, ⟨.operator, "(", 4, 5⟩,
      ⟨.cellRef, "a1", 5, 7⟩, ⟨.operator, ",", 7, 8⟩, ⟨.number, "2", 8, 9⟩, ⟨.operator, ",", 9, 10⟩,
      ⟨.number, "3", 10, 11⟩, ⟨.operator, ")", 11, 12⟩] := by decide +kernel
  have herror : parse "=left(a1,2,3)" = .error (.tooManyArguments "left" 2 3) := by
    rw [parse, if_neg (by decide +kernel), htokens]
    with_unfolding_all rfl
  obtain ⟨e, hok⟩ := exists_parse_eq_ok (s := "=sum($b$2:c3,1e5)&rand()") (by decide +kernel)
  obtain ⟨-, -, hparse, -⟩ := analyze_upper "=sum($b$2:c3,1e5)&rand()"
  obtain ⟨-, -, -, hreject, -⟩ := analyze_upper "=left(a1,2,3)"
  exact ⟨⟨e, hok, hparse e hok⟩, herror, hreject _ herror⟩

end Formula

end FormulaAudit
