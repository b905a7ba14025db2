import FormulaAudit.Lint.Rules
import Mathlib.Data.List.Basic

/-!
What the rules report on one formula. The issues that the options can silence are advice: none of them
is an error, and none says that a formula is invalid or a cell circular.
-/

namespace FormulaAudit

namespace Issue

def saysInvalid (i : Issue) : Bool :=
  "Invalid formula: ".toList.isPrefixOf i.message.toList

def saysCircular (i : Issue) : Bool :=
  i.message == "Circular reference detected"

structure IsAdvice (i : Issue) : Prop where
  not_isError : i.isError = false
  not_saysInvalid : i.saysInvalid = false
  not_saysCircular : i.saysCircular = false

variable {i : Issue} {x y : Char}

lemma not_saysInvalid_of_take (h : i.message.toList.take 2 = [x, y]) (hx : x ≠ 'I') :
    i.saysInvalid = false := by
  rw [← Bool.not_eq_true, saysInvalid, List.isPrefixOf_iff_prefix]
  rintro ⟨rest, hrest⟩
  rw [← hrest] at h
  simp [Ne.symm hx] at h

lemma saysInvalid_of_message {reason : String} (h : i.message = "Invalid formula: " ++ reason) :
    i.saysInvalid = true := by
  rw [saysInvalid, h, String.toList_append, List.isPrefixOf_iff_prefix]
  exact List.prefix_append _ _

lemma not_saysCircular_of_take (h : i.message.toList.take 2 = [x, y]) (hy : y ≠ 'i') :
    i.saysCircular = false := by
  rw [saysCircular, beq_eq_false_iff_ne]
  intro heq
  rw [heq] at h
  simp [Ne.symm hy] at h

end Issue

namespace Lint

variable {o : Options} {a : Analysis} {p : Place} {formula : String} {i : Issue}

lemma isAdvice_of_mem_structuralIssues (h : i ∈ structuralIssues o a p) : i.IsAdvice := by
  have hadvice {severity : Severity} {message : String} {suggestion : Option String} {x y : Char}
      (hs : severity ≠ .error) (hm : message.toList.take 2 = [x, y]) (hx : x ≠ 'I') (hy : y ≠ 'i') :
      (p.issue severity message suggestion).IsAdvice := by
    refine ⟨?_, Issue.not_saysInvalid_of_take hm hx, Issue.not_saysCircular_of_take hm hy⟩
    simpa [Issue.isError, Place.issue] using hs
  simp only [structuralIssues, List.mem_append] at h
  rcases h with ((h | h) | h) | h
  · rw [complexityIssues] at h
    split at h
    · obtain rfl := List.mem_singleton.mp h
      apply hadvice (x := 'C') (y := 'o') <;> simp
    · simp at h
  · rw [volatileIssues] at h
    split at h
    · obtain rfl := List.mem_singleton.mp h
      apply hadvice (x := 'V') (y := 'o') <;> simp
    · simp at h
  · obtain ⟨range, -, h⟩ := List.mem_filterMap.mp h
    rw [rangeIssue?] at h
    split at h
    · split at h
      · obtain rfl := Option.some.inj h
        apply hadvice (x := 'L') (y := 'a') <;> simp
      · simp at h
    · simp at h
  · rw [repeatedIssues] at h
    split at h
    · obtain ⟨r, -, rfl⟩ := List.mem_map.mp h
      apply hadvice (x := 'R') (y := 'e') <;> simp [RepeatedReference.message]
    · simp at h

def errorIssues (a : Analysis) (formula : String) (p : Place) : List Issue :=
  (if a.isValid then [] else [invalidIssue a p]) ++ divisionIssues formula p

lemma filter_isError_analyzedIssues (o : Options) (a : Analysis) (formula : String) (p : Place) :
    (analyzedIssues o a formula p).filter Issue.isError = errorIssues a formula p := by
  have hadvice : (structuralIssues o a p).filter Issue.isError = [] := by
    simpa using fun i hi => (isAdvice_of_mem_structuralIssues hi).not_isError
  rw [analyzedIssues, errorIssues, List.filter_append, apply_ite (List.filter Issue.isError), hadvice]
  congr 1
  rw [divisionIssues]
  split <;> rfl

lemma length_errorIssues (a : Analysis) (formula : String) (p : Place) :
    (errorIssues a formula p).length =
      (if a.isValid then 0 else 1) + if Formula.mayDivideByZero formula then 1 else 0 := by
  rw [errorIssues, divisionIssues, List.length_append, apply_ite List.length, apply_ite List.length]
  rfl

lemma mem_divisionIssues (h : i ∈ divisionIssues formula p) : i.message = "Possible division by zero" := by
  rw [divisionIssues] at h
  split at h
  · obtain rfl := List.mem_singleton.mp h
    rfl
  · simp at h

lemma not_saysInvalid_of_mem_divisionIssues (h : i ∈ divisionIssues formula p) : i.saysInvalid = false :=
  Issue.not_saysInvalid_of_take (x := 'P') (y := 'o') (by simp [mem_divisionIssues h]) (by decide)

lemma message_invalidIssue (a : Analysis) (p : Place) :
    ∃ reason, (invalidIssue a p).message = "Invalid formula: " ++ reason :=
  ⟨_, rfl⟩

lemma countP_saysInvalid_analyzedIssues (o : Options) (a : Analysis) (formula : String) (p : Place) :
    (analyzedIssues o a formula p).countP Issue.saysInvalid = if a.isValid then 0 else 1 := by
  have hadvice : (structuralIssues o a p).countP Issue.saysInvalid = 0 := by
    simpa [List.countP_eq_zero] using fun i hi => (isAdvice_of_mem_structuralIssues hi).not_saysInvalid
  have hdivision : (divisionIssues formula p).countP Issue.saysInvalid = 0 := by
    simpa [List.countP_eq_zero] using fun i hi => not_saysInvalid_of_mem_divisionIssues hi
  have hinvalid : [invalidIssue a p].countP Issue.saysInvalid = 1 := by
    obtain ⟨reason, hreason⟩ := message_invalidIssue a p
    simp [Issue.saysInvalid_of_message hreason]
  rw [analyzedIssues, List.countP_append, hdivision, apply_ite (List.countP Issue.saysInvalid), hadvice,
    hinvalid]
  rfl

lemma filter_saysCircular_analyzedIssues (o : Options) (a : Analysis) (formula : String) (p : Place) :
    (analyzedIssues o a formula p).filter Issue.saysCircular = [] := by
  rw [List.filter_eq_nil_iff]
  intro i hi
  rw [Bool.not_eq_true]
  rcases List.mem_append.mp hi with hi | hi
  · split at hi
    · exact (isAdvice_of_mem_structuralIssues hi).not_saysCircular
    · obtain rfl := List.mem_singleton.mp hi
      obtain ⟨reason, hreason⟩ := message_invalidIssue a p
      exact Issue.not_saysCircular_of_take (x := 'I') (y := 'n') (by simp [hreason]) (by decide)
  · exact Issue.not_saysCircular_of_take (x := 'P') (y := 'o') (by simp [mem_divisionIssues hi])
      (by decide)

end Lint

end FormulaAudit
