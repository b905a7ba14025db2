import FormulaAudit.Proofs.Lint.Rules
import FormulaAudit.Proofs.Lint.Sheet
import Mathlib.Algebra.BigOperators.Group.List.Basic
import Mathlib.Algebra.GroupWithZero.Nat

/-!
The report on a workbook is the sum of the reports on its sheets, and its counters agree with its issues.
-/

namespace FormulaAudit.Lint

namespace Report

lemma issues_foldl_append (rs : List Report) (r : Report) :
    (rs.foldl append r).issues = r.issues ++ rs.flatMap issues := by
  induction rs generalizing r with
  | nil => simp
  | cons r' rs ih => simp [ih, append]

lemma metadata_foldl_append (rs : List Report) (r : Report) :
    (rs.foldl append r).metadata = (rs.map metadata).foldl Metadata.add r.metadata := by
  induction rs generalizing r with
  | nil => rfl
  | cons r' rs ih => exact ih (r.append r')

lemma counter_foldl_add (f : Metadata → Nat) (hf : ∀ a b, f (a.add b) = f a + f b)
    (ms : List Metadata) (m : Metadata) : f (ms.foldl Metadata.add m) = f m + (ms.map f).sum := by
  induction ms generalizing m with
  | nil => simp
  | cons m' ms ih => simp [ih, hf, Nat.add_assoc]

variable (o : Options) (w : Workbook)

lemma issues_ofWorkbook : (ofWorkbook o w).issues = w.sheets.flatMap (sheetIssues o) := by
  rw [ofWorkbook, issues_foldl_append, List.flatMap_map]
  rfl

lemma metadata_ofWorkbook : (ofWorkbook o w).metadata =
    (w.sheets.map fun s => (ofSheet o s).metadata).foldl Metadata.add {} := by
  rw [ofWorkbook, metadata_foldl_append, List.map_map]
  rfl

lemma counter_ofWorkbook (f : Metadata → Nat) (hf : ∀ a b, f (a.add b) = f a + f b) (hzero : f {} = 0) :
    f (ofWorkbook o w).metadata = (w.sheets.map fun s => f (ofSheet o s).metadata).sum := by
  rw [metadata_ofWorkbook, counter_foldl_add f hf, hzero, Nat.zero_add, List.map_map]
  rfl

end Report

lemma sum_map_ite {α : Type} (q : α → Bool) (l : List α) :
    (l.map fun a => if q a then 1 else 0).sum = l.countP q := by
  induction l with
  | nil => rfl
  | cons a l ih => simp [ih, List.countP_cons, Nat.add_comm]

section Sheet

variable (o : Options) (s : Sheet)

lemma sheetIssues_append :
    sheetIssues o s = s.written.flatMap (fun p => formulaIssues o p.2 ⟨s.name, p.1⟩) ++
      (circularKeys o (entries s)).map (circularIssue s.name (entries s)) := by
  show (entries s).flatMap _ ++ _ = _
  rw [entries_eq, List.flatMap_map]
  rfl

def invalidIn (ps : List (String × String)) : Nat :=
  ps.countP fun p => !(Formula.analyze p.2).isValid

def divisionsIn (ps : List (String × String)) : Nat :=
  ps.countP fun p => Formula.mayDivideByZero p.2

lemma formulaCount_ofSheet : (Report.ofSheet o s).metadata.formulaCount = s.written.length := by
  show (entries s).length = _
  rw [entries_eq, List.length_map]

lemma invalidFormulaCount_ofSheet :
    (Report.ofSheet o s).metadata.invalidFormulaCount = invalidIn s.written := by
  show (entries s).countP _ = _
  rw [entries_eq, List.countP_map]
  rfl

lemma countP_saysInvalid_sheetIssues :
    (sheetIssues o s).countP Issue.saysInvalid = invalidIn s.written := by
  have hcircular : ((circularKeys o (entries s)).map (circularIssue s.name (entries s))).countP
      Issue.saysInvalid = 0 := by
    rw [List.countP_map, List.countP_eq_zero]
    intro k _
    have hvalid : (circularIssue s.name (entries s) k).saysInvalid = false := by
      apply Issue.not_saysInvalid_of_take (x := 'C') (y := 'i') <;> simp [circularIssue, Place.issue]
    simp [hvalid]
  have hformula (p : String × String) : (formulaIssues o p.2 ⟨s.name, p.1⟩).countP Issue.saysInvalid =
      if !(Formula.analyze p.2).isValid then 1 else 0 := by
    rw [formulaIssues, countP_saysInvalid_analyzedIssues]
    cases (Formula.analyze p.2).isValid <;> rfl
  rw [sheetIssues_append, List.countP_append, hcircular, List.countP_flatMap]
  simp only [Function.comp_def, hformula]
  exact sum_map_ite _ _

lemma filter_saysCircular_sheetIssues :
    (sheetIssues o s).filter Issue.saysCircular =
      (circularKeys o (entries s)).map (circularIssue s.name (entries s)) := by
  have hall : ∀ i ∈ (circularKeys o (entries s)).map (circularIssue s.name (entries s)),
      i.saysCircular = true := by
    intro i hi
    obtain ⟨k, -, rfl⟩ := List.mem_map.mp hi
    exact beq_self_eq_true _
  rw [sheetIssues_append, List.filter_append, List.filter_flatMap, List.filter_eq_self.mpr hall]
  simp [formulaIssues, filter_saysCircular_analyzedIssues]

lemma filter_isError_sheetIssues :
    (sheetIssues o s).filter Issue.isError =
      s.written.flatMap (fun p => errorIssues (Formula.analyze p.2) p.2 ⟨s.name, p.1⟩) ++
      (circularKeys o (entries s)).map (circularIssue s.name (entries s)) := by
  have hall : ∀ i ∈ (circularKeys o (entries s)).map (circularIssue s.name (entries s)),
      i.isError = true := by
    intro i hi
    obtain ⟨k, -, rfl⟩ := List.mem_map.mp hi
    rfl
  rw [sheetIssues_append, List.filter_append, List.filter_flatMap, List.filter_eq_self.mpr hall]
  simp only [formulaIssues, filter_isError_analyzedIssues]

lemma countP_isError_sheetIssues :
    (sheetIssues o s).countP Issue.isError =
      invalidIn s.written + (circularKeys o (entries s)).length + divisionsIn s.written := by
  have hformula (p : String × String) :
      (errorIssues (Formula.analyze p.2) p.2 ⟨s.name, p.1⟩).length =
        (if !(Formula.analyze p.2).isValid then 1 else 0) +
          if Formula.mayDivideByZero p.2 then 1 else 0 := by
    rw [length_errorIssues]
    cases (Formula.analyze p.2).isValid <;> rfl
  rw [List.countP_eq_length_filter, filter_isError_sheetIssues, List.length_append, List.length_flatMap,
    List.length_map]
  simp only [hformula, List.sum_map_add, sum_map_ite, invalidIn, divisionsIn]
  omega

end Sheet

namespace Report

variable (o : Options) (w : Workbook)

lemma formulaCount_ofWorkbook :
    (ofWorkbook o w).metadata.formulaCount = (w.sheets.flatMap Sheet.written).length := by
  rw [counter_ofWorkbook o w (·.formulaCount) (fun _ _ => rfl) rfl, List.length_flatMap]
  simp only [formulaCount_ofSheet]

lemma invalidFormulaCount_ofWorkbook :
    (ofWorkbook o w).metadata.invalidFormulaCount = invalidIn (w.sheets.flatMap Sheet.written) := by
  rw [counter_ofWorkbook o w (·.invalidFormulaCount) (fun _ _ => rfl) rfl, invalidIn, List.countP_flatMap]
  simp only [invalidFormulaCount_ofSheet]
  rfl

lemma countP_saysInvalid_ofWorkbook :
    (ofWorkbook o w).issues.countP Issue.saysInvalid = invalidIn (w.sheets.flatMap Sheet.written) := by
  rw [issues_ofWorkbook, invalidIn, List.countP_flatMap, List.countP_flatMap]
  simp only [Function.comp_def, countP_saysInvalid_sheetIssues]
  rfl

lemma filter_saysCircular_ofWorkbook :
    (ofWorkbook o w).issues.filter Issue.saysCircular =
      w.sheets.flatMap fun s => (circularKeys o (entries s)).map (circularIssue s.name (entries s)) := by
  rw [issues_ofWorkbook, List.filter_flatMap]
  simp only [filter_saysCircular_sheetIssues]

lemma circularReferenceCount_ofWorkbook :
    (ofWorkbook o w).metadata.circularReferenceCount =
      (w.sheets.map fun s => (circularKeys o (entries s)).length).sum :=
  counter_ofWorkbook o w (·.circularReferenceCount) (fun _ _ => rfl) rfl

lemma countP_saysCircular_ofWorkbook : (ofWorkbook o w).issues.countP Issue.saysCircular =
    (w.sheets.map fun s => (circularKeys o (entries s)).length).sum := by
  rw [List.countP_eq_length_filter, filter_saysCircular_ofWorkbook, List.length_flatMap]
  simp only [List.length_map]

lemma count_error_ofWorkbook : (ofWorkbook o w).count .error =
    invalidIn (w.sheets.flatMap Sheet.written) +
      (w.sheets.map fun s => (circularKeys o (entries s)).length).sum +
      divisionsIn (w.sheets.flatMap Sheet.written) := by
  have herrors : (ofWorkbook o w).count .error =
      (w.sheets.map fun s => (sheetIssues o s).countP Issue.isError).sum := by
    rw [count, issues_ofWorkbook, List.countP_flatMap]
    rfl
  rw [herrors, invalidIn, divisionsIn, List.countP_flatMap, List.countP_flatMap]
  simp only [countP_isError_sheetIssues, List.sum_map_add]
  rfl

end Report

theorem ofWorkbook_consistent (o : Options) (w : Workbook) :
    let r := Report.ofWorkbook o w
    let written := w.sheets.flatMap Sheet.written
    r.issues = w.sheets.flatMap (sheetIssues o) ∧
    r.metadata.formulaCount = written.length ∧
    r.metadata.invalidFormulaCount = r.issues.countP Issue.saysInvalid ∧
    r.metadata.invalidFormulaCount = written.countP (fun p => !(Formula.analyze p.2).isValid) ∧
    (∀ formula place, (formulaIssues o formula place).countP Issue.saysInvalid =
      if (Formula.analyze formula).isValid then 0 else 1) ∧
    r.metadata.circularReferenceCount = r.issues.countP Issue.saysCircular ∧
    r.count .error = r.metadata.invalidFormulaCount + r.metadata.circularReferenceCount +
      written.countP (fun p => Formula.mayDivideByZero p.2) ∧
    ∃ circular : Sheet → List String,
      (∀ s, (circular s).Pairwise (· < ·)) ∧
      (∀ s k, k ∈ circular s ↔ Relation.TransGen s.Depends k k) ∧
      r.issues.filter Issue.saysCircular =
        w.sheets.flatMap fun s => (circular s).map (circularIssue s.name (entries s)) := by
  intro r written
  have hinvalid := Report.invalidFormulaCount_ofWorkbook o w
  have hcircular := Report.circularReferenceCount_ofWorkbook o w
  refine ⟨Report.issues_ofWorkbook o w, Report.formulaCount_ofWorkbook o w, ?_, hinvalid, ?_, ?_, ?_, ?_⟩
  · rw [hinvalid, Report.countP_saysInvalid_ofWorkbook]
  · exact fun formula place => countP_saysInvalid_analyzedIssues o _ formula place
  · rw [hcircular, Report.countP_saysCircular_ofWorkbook]
  · rw [Report.count_error_ofWorkbook, hinvalid, hcircular]
    rfl
  · exact ⟨fun s => circularKeys o (entries s), pairwise_circularKeys o, fun s k => mem_circularKeys,
      Report.filter_saysCircular_ofWorkbook o w⟩

end FormulaAudit.Lint
