import FormulaAudit.Proofs.Formula.Balance
import FormulaAudit.Proofs.Lint.Rules

/-!
When a formula is invalid, and the reason that is reported for it. Its expression and the count of its
parentheses decide on the validity. Repeated references are remarks only, but they stand in the same list
and come before the one on parentheses.
-/

namespace FormulaAudit

lemma head?_append {a : String} {c : Char} (h : a.toList.head? = some c) (b : String) :
    (a ++ b).toList.head? = some c := by
  rw [String.toList_append, List.head?_append, h]
  rfl

lemma RepeatedReference.message_ne_unmatched (r : RepeatedReference) :
    r.message ≠ "Unmatched parentheses" := by
  intro h
  have hhead := congrArg (fun s : String => s.toList.head?) h
  simp [message] at hhead

namespace Formula

namespace Error

def initial : Error → Char
  | .empty => 'E'
  | .unmatchedParentheses _ => 'U'
  | .missingOperand _ _ => 'O'
  | .tooFewArguments _ _ _ | .tooManyArguments _ _ _ => 'F'
  | .missingOperator _ => 'M'
  | .invalidStructure _ => 'I'

lemma head?_message (e : Error) : e.message.toList.head? = some e.initial := by
  have hempty : "Empty formula".toList.head? = some 'E' := by simp
  have hunmatched : "Unmatched parentheses".toList.head? = some 'U' := by simp
  have hoperand : "Operator '".toList.head? = some 'O' := by simp
  have hfunction : "Function ".toList.head? = some 'F' := by simp
  have hoperator : "Missing operator or ',' between arguments of ".toList.head? = some 'M' := by simp
  have hstructure : "Invalid formula structure: expected a single expression, found ".toList.head? =
    some 'I' := by simp
  -- a message is a text with more texts appended, one after the other
  cases e with
  | empty => exact hempty
  | unmatchedParentheses => exact hunmatched
  | missingOperand =>
    exact head?_append (head?_append (head?_append (head?_append hoperand _) _) _) _
  | tooFewArguments | tooManyArguments =>
    exact head?_append (head?_append (head?_append (head?_append (head?_append hfunction _) _) _) _) _
  | missingOperator => exact head?_append hoperator _
  | invalidStructure => exact head?_append hstructure _

lemma message_ne_unmatched {e : Error} (h : ∀ position, e ≠ .unmatchedParentheses position) :
    e.message ≠ "Unmatched parentheses" := by
  intro heq
  have hhead := e.head?_message
  rw [heq] at hhead
  cases e with
  | unmatchedParentheses position => exact h position rfl
  | _ => simp [initial] at hhead

end Error

end Formula

lemma Remark.message_ne_unknown (r : Remark) : r.message ≠ "unknown error" := by
  intro h
  have hhead := congrArg (fun s : String => s.toList.head?) h
  cases r with
  | rejected e =>
    rw [show Remark.message (.rejected e) = e.message from rfl, e.head?_message] at hhead
    cases e <;> simp [Formula.Error.initial] at hhead
  | unmatchedParentheses => simp [Remark.message] at hhead
  | repeated r => simp [Remark.message, RepeatedReference.message] at hhead

namespace Formula

variable {s : String}

lemma rejection_of_ne {e : Error} (h : ∀ position, e ≠ .unmatchedParentheses position)
    (balanced : Bool) :
    rejection balanced e = { errors := .rejected e :: if balanced then [] else [.unmatchedParentheses] } := by
  cases e with
  | unmatchedParentheses position => exact absurd rfl (h position)
  | _ => rfl

lemma exists_rejection (balanced : Bool) (e : Error) : ∃ more,
    rejection balanced e = ⟨false, .rejected e :: more, 0, [], [], [], []⟩ ∧
      (balanced = false →
        ((Remark.rejected e :: more).map Remark.message).count "Unmatched parentheses" = 1) := by
  by_cases h : ∃ position, e = .unmatchedParentheses position
  · obtain ⟨position, rfl⟩ := h
    exact ⟨[], rfl, fun _ => List.count_singleton_self⟩
  · have hne := not_exists.mp h
    refine ⟨_, rejection_of_ne hne balanced, ?_⟩
    rintro rfl
    have hself : Remark.unmatchedParentheses.message = "Unmatched parentheses" := rfl
    have hother : Remark.message (.rejected e) ≠ "Unmatched parentheses" := Error.message_ne_unmatched hne
    simp [hself, hother]

lemma count_remarks (e : Expr) :
    ((e.repeatedReferences.map Remark.repeated ++ [Remark.unmatchedParentheses]).map Remark.message).count
      "Unmatched parentheses" = 1 := by
  have hrepeated : ((e.repeatedReferences.map Remark.repeated).map Remark.message).count
      "Unmatched parentheses" = 0 := by
    rw [List.count_eq_zero, List.map_map, List.mem_map]
    rintro ⟨r, -, hr⟩
    exact r.message_ne_unmatched hr
  rw [List.map_append, List.count_append, hrepeated, Nat.zero_add]
  exact List.count_singleton_self

lemma analyze_of_error {e : Error} (h : parse s = .error e) : analyze s = rejection (isBalanced s) e := by
  rw [analyze, h]

lemma isValid_of_ok {e : Expr} (h : parse s = .ok e) : (analyze s).isValid = isBalanced s := by
  rw [analyze, h]
  dsimp only
  cases isBalanced s <;> rfl

lemma errors_of_ok {e : Expr} (h : parse s = .ok e) (hb : isBalanced s = false) :
    (analyze s).errors = e.repeatedReferences.map .repeated ++ [.unmatchedParentheses] := by
  rw [analyze, h]
  simp [hb, Expr.analyze]

lemma errors_ne_nil (h : (analyze s).isValid = false) : (analyze s).errors ≠ [] := by
  cases hp : parse s with
  | error e =>
    obtain ⟨more, heq, -⟩ := exists_rejection (isBalanced s) e
    simp [analyze_of_error hp, heq]
  | ok e =>
    rw [isValid_of_ok hp] at h
    simp [errors_of_ok hp h]

end Formula

namespace Lint

open Formula (parse analyze tokens)

variable {o : Options} {s reason : String} {p : Place}

lemma message_invalidIssue_eq (a : Analysis) (p : Place) : (invalidIssue a p).message =
    "Invalid formula: " ++ (a.errors.head?.map Remark.message).getD "unknown error" := by
  unfold invalidIssue
  cases a.errors <;> rfl

lemma reports_invalid_iff : (∃ i ∈ formulaIssues o s p, i.message = "Invalid formula: " ++ reason) ↔
    (analyze s).isValid = false ∧
      reason = ((analyze s).errors.head?.map Remark.message).getD "unknown error" := by
  have hmessage := message_invalidIssue_eq (analyze s) p
  rw [formulaIssues, analyzedIssues]
  constructor
  · rintro ⟨i, hi, hm⟩
    have hinvalid := Issue.saysInvalid_of_message hm
    rcases List.mem_append.mp hi with hi | hi
    · split at hi
      · simp [(isAdvice_of_mem_structuralIssues hi).not_saysInvalid] at hinvalid
      · next hv =>
        obtain rfl := List.mem_singleton.mp hi
        rw [hmessage, String.append_right_inj] at hm
        exact ⟨Bool.eq_false_iff.mpr hv, hm.symm⟩
    · simp [not_saysInvalid_of_mem_divisionIssues hi] at hinvalid
  · rintro ⟨hv, rfl⟩
    exact ⟨invalidIssue (analyze s) p, by simp [hv], hmessage⟩

theorem validity_of_analyze (s : String) :
    (∀ e, parse s = .ok e → ((analyze s).isValid = true ↔
      Token.literalCount '(' (tokens s) = Token.literalCount ')' (tokens s))) ∧
    (∀ e, parse s = .error e → analyze s = ⟨false, (analyze s).errors, 0, [], [], [], []⟩) ∧
    (s.toList.count '(' ≠ s.toList.count ')' → (analyze s).isValid = false ∧
      ((analyze s).errors.map Remark.message).count "Unmatched parentheses" = 1) ∧
    ((analyze s).isValid = false → (analyze s).errors ≠ []) ∧
    ∀ o p, ∀ i ∈ formulaIssues o s p, i.message ≠ "Invalid formula: unknown error" := by
  refine ⟨fun e h => ?_, fun e h => ?_, fun hcount => ?_, Formula.errors_ne_nil, fun o p i hi hm => ?_⟩
  · rw [Formula.isValid_of_ok h, Formula.isBalanced_of_parse h]
  · obtain ⟨more, heq, -⟩ := Formula.exists_rejection (Formula.isBalanced s) e
    rw [Formula.analyze_of_error h, heq]
  · have hb : Formula.isBalanced s = false := Formula.isBalanced_eq_false_iff.mpr hcount
    cases h : parse s with
    | error e =>
      obtain ⟨more, heq, hone⟩ := Formula.exists_rejection (Formula.isBalanced s) e
      rw [Formula.analyze_of_error h, heq]
      exact ⟨rfl, hone hb⟩
    | ok e =>
      rw [Formula.isValid_of_ok h, Formula.errors_of_ok h hb]
      exact ⟨hb, Formula.count_remarks e⟩
  · have hsplit : "Invalid formula: unknown error" = "Invalid formula: " ++ "unknown error" := by decide
    rw [hsplit] at hm
    obtain ⟨hv, hreason⟩ := reports_invalid_iff.mp ⟨i, hi, hm⟩
    obtain ⟨r, rest, herrors⟩ := List.exists_cons_of_ne_nil (Formula.errors_ne_nil hv)
    rw [herrors] at hreason
    exact r.message_ne_unknown hreason.symm

theorem validity_of_analyze_literal :
    (∃ e, parse "=A1&'('&A1" = .ok e) ∧ (analyze "=A1&'('&A1").isValid = false ∧
      ((analyze "=A1&'('&A1").errors.map Remark.message).count "Unmatched parentheses" = 1 ∧
      parse "=A1)*NOW()" = .error (.unmatchedParentheses 2) ∧
      analyze "=A1)*NOW()" = ⟨false, (analyze "=A1)*NOW()").errors, 0, [], [], [], []⟩ := by
  obtain ⟨hok, -, hcount, -, -⟩ := validity_of_analyze "=A1&'('&A1"
  obtain ⟨-, herror, -, -, -⟩ := validity_of_analyze "=A1)*NOW()"
  obtain ⟨e, h⟩ : ∃ e, parse "=A1&'('&A1" = .ok e := Formula.exists_parse_eq_ok (by decide +kernel)
  have hts : tokens "=A1)*NOW()" = [⟨.cellRef, "A1", 0, 2⟩, ⟨.operator, ")", 2, 3⟩,
      ⟨.operator, "*", 3, 4⟩, ⟨.function, "NOW", 4, 7⟩, ⟨.operator, "(", 7, 8⟩, ⟨.operator, ")", 8, 9⟩] := by
    decide +kernel
  have hp : parse "=A1)*NOW()" = .error (.unmatchedParentheses 2) := by
    rw [parse, if_neg (by decide +kernel), hts]
    with_unfolding_all rfl
  obtain ⟨hvalid, hone⟩ := hcount (by decide +kernel)
  exact ⟨⟨e, h⟩, hvalid, hone, hp, herror _ hp⟩

/-- The reason that is reported for an invalid formula is the error that it has no expression for. If it
has one, its count of parentheses is wrong, and that is reported unless it repeats a reference: then
the first repetition is given as the reason. -/
theorem reported_reason_iff (o : Options) (s : String) (p : Place) (reason : String) :
    (∃ i ∈ formulaIssues o s p, i.message = "Invalid formula: " ++ reason) ↔
      (∃ e, parse s = .error e ∧ reason = e.message) ∨
      ∃ e, parse s = .ok e ∧ s.toList.count '(' ≠ s.toList.count ')' ∧
        (e.repeatedReferences = [] ∧ reason = "Unmatched parentheses" ∨
          ∃ r rest, e.repeatedReferences = r :: rest ∧ reason = r.message) := by
  rw [reports_invalid_iff]
  cases h : parse s with
  | error e =>
    obtain ⟨more, heq, -⟩ := Formula.exists_rejection (Formula.isBalanced s) e
    rw [Formula.analyze_of_error h, heq]
    simp [Remark.message]
  | ok e =>
    rw [Formula.isValid_of_ok h]
    constructor
    · rintro ⟨hv, rfl⟩
      refine .inr ⟨e, rfl, Formula.isBalanced_eq_false_iff.mp hv, ?_⟩
      rw [Formula.errors_of_ok h hv]
      cases e.repeatedReferences with
      | nil => exact .inl ⟨rfl, rfl⟩
      | cons r rest => exact .inr ⟨r, rest, rfl, rfl⟩
    · rintro (⟨e', he, -⟩ | ⟨e', he, hcount, hreason⟩)
      · simp at he
      · obtain rfl := Except.ok.inj he
        have hv : Formula.isBalanced s = false := Formula.isBalanced_eq_false_iff.mpr hcount
        refine ⟨hv, ?_⟩
        rw [Formula.errors_of_ok h hv]
        rcases hreason with ⟨hnone, rfl⟩ | ⟨r, rest, hrepeated, rfl⟩
        · simp [hnone, Remark.message]
        · simp [hrepeated, Remark.message]

/-- `A1&A1&"("` is invalid for the parenthesis in its literal, but the reason given is its repeated
reference, even where these are not to be reported. -/
theorem repetition_reported_as_reason :
    (∃ e, parse "A1&A1&\"(\"" = .ok e) ∧
      (formulaIssues { reportRepeated := false } "A1&A1&\"(\"" ⟨"S", "B1"⟩).map Issue.message =
        ["Invalid formula: " ++ RepeatedReference.message ⟨"A1", 2⟩] ∧
      RepeatedReference.message ⟨"A1", 2⟩ ≠ "Unmatched parentheses" := by
  refine ⟨Formula.exists_parse_eq_ok (by decide +kernel), by decide +kernel, ?_⟩
  exact RepeatedReference.message_ne_unmatched _

end Lint

end FormulaAudit
