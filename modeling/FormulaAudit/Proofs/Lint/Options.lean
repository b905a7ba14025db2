import FormulaAudit.Command.Run
import FormulaAudit.Proofs.Lint.Report

/-!
The options only filter a report. They change neither its counters nor its errors, and stricter options
leave some of its issues out and add none.
-/

namespace FormulaAudit

namespace Binary64

def Value.lt : Value → Value → Bool
  | .finite a, .finite b => decide (a < b)
  | .infinite true, .finite _ => true
  | .finite _, .infinite false => true
  | .infinite true, .infinite false => true
  | _, _ => false

lemma isBelowHalves_eq (x : Binary64) (halves : Nat) :
    x.isBelowHalves halves = x.value.lt (.finite ((halves <<< 1073 : Nat) : Int)) := by
  rw [isBelowHalves]
  cases x.value with
  | finite units => rfl
  | infinite negative => cases negative <;> rfl
  | nan => rfl

lemma isBelowHalves_of_not_lt {x y : Binary64} {halves : Nat} (hx : x.isNan = false)
    (hle : y.value.lt x.value = false) (h : y.isBelowHalves halves = true) :
    x.isBelowHalves halves = true := by
  rw [isBelowHalves_eq] at h ⊢
  rw [isNan, beq_eq_false_iff_ne] at hx
  generalize ((halves <<< 1073 : Nat) : Int) = c at h ⊢
  cases hy : y.value with
  | nan => simp [hy, Value.lt] at h
  | infinite negative =>
    cases negative with
    | false => simp [hy, Value.lt] at h
    | true =>
      -- only negative infinity is not above negative infinity
      cases hv : x.value with
      | nan => exact absurd hv hx
      | finite units => simp [hy, hv, Value.lt] at hle
      | infinite negative => cases negative <;> simp_all [Value.lt]
  | finite units =>
    cases hv : x.value with
    | nan => exact absurd hv hx
    | finite units' =>
      simp only [hy, hv, Value.lt, decide_eq_true_eq, decide_eq_false_iff_not] at h hle ⊢
      omega
    | infinite negative => cases negative <;> simp_all [Value.lt]

end Binary64

namespace Lint

/-- The options `o'` report no more than `o`. A threshold that is a NaN reports nothing, so only that
of `o` matters. -/
structure Stricter (o o' : Options) : Prop where
  threshold_ne_nan : o.complexityThreshold.isNan = false
  threshold_le : o'.complexityThreshold.value.lt o.complexityThreshold.value = false
  rows_le : o.largeRangeRows ≤ o'.largeRangeRows
  reportRepeated : o'.reportRepeated = true → o.reportRepeated = true
  reportVolatile : o'.reportVolatile = true → o.reportVolatile = true

namespace Stricter

variable {o o' : Options} (h : Stricter o o') (a : Analysis) (p : Place)
include h

lemma complexityIssues_sublist : (complexityIssues o' a p).Sublist (complexityIssues o a p) := by
  rw [complexityIssues]
  split
  · next hbelow =>
    rw [complexityIssues, if_pos (Binary64.isBelowHalves_of_not_lt h.threshold_ne_nan h.threshold_le hbelow)]
  · exact List.nil_sublist _

lemma volatileIssues_sublist : (volatileIssues o' a p).Sublist (volatileIssues o a p) := by
  rw [volatileIssues]
  split
  · next hreport =>
    rw [Bool.and_eq_true] at hreport
    rw [volatileIssues, if_pos (by simp [h.reportVolatile hreport.1, hreport.2])]
  · exact List.nil_sublist _

lemma rangeIssue?_eq_some {range : String} {i : Issue} (hi : rangeIssue? o' p range = some i) :
    rangeIssue? o p range = some i := by
  have hle := h.rows_le
  rw [rangeIssue?] at hi ⊢
  split at hi
  · split at hi
    · rw [if_pos (by omega)]
      exact hi
    · simp at hi
  · simp at hi

lemma rangeIssues_sublist :
    (a.usedRanges.filterMap (rangeIssue? o' p)).Sublist (a.usedRanges.filterMap (rangeIssue? o p)) := by
  rw [List.filterMap_eq_flatMap_toList, List.filterMap_eq_flatMap_toList]
  apply List.Sublist.flatMap_right
  intro range _
  cases hi : rangeIssue? o' p range with
  | none => exact List.nil_sublist _
  | some i => rw [h.rangeIssue?_eq_some p hi]

lemma repeatedIssues_sublist : (repeatedIssues o' a p).Sublist (repeatedIssues o a p) := by
  rw [repeatedIssues]
  split
  · next hreport => rw [repeatedIssues, if_pos (h.reportRepeated hreport)]
  · exact List.nil_sublist _

lemma analyzedIssues_sublist (formula : String) :
    (analyzedIssues o' a formula p).Sublist (analyzedIssues o a formula p) := by
  apply List.Sublist.append_right
  split
  · exact (((h.complexityIssues_sublist a p).append (h.volatileIssues_sublist a p)).append
      (h.rangeIssues_sublist a p)).append (h.repeatedIssues_sublist a p)
  · exact List.Sublist.refl _

end Stricter

lemma circularKeys_eq (o o' : Options) (s : Sheet) :
    circularKeys o' (entries s) = circularKeys o (entries s) := by
  refine (pairwise_circularKeys o' s).eq_of_mem_iff (pairwise_circularKeys o s) fun k => ?_
  rw [mem_circularKeys, mem_circularKeys]

lemma metadata_ofSheet_eq (o o' : Options) (s : Sheet) :
    (Report.ofSheet o' s).metadata = (Report.ofSheet o s).metadata := by
  simp only [Report.ofSheet, circularKeys_eq o o' s]

lemma Stricter.sheetIssues_sublist {o o' : Options} (h : Stricter o o') (s : Sheet) :
    (sheetIssues o' s).Sublist (sheetIssues o s) := by
  rw [sheetIssues_append, sheetIssues_append, circularKeys_eq o o' s]
  apply List.Sublist.append_right
  apply List.Sublist.flatMap_right
  intro p _
  exact h.analyzedIssues_sublist _ _ _

namespace Report

variable (o o' : Options) (w : Workbook)

lemma metadata_ofWorkbook_eq : (ofWorkbook o' w).metadata = (ofWorkbook o w).metadata := by
  simp only [metadata_ofWorkbook, metadata_ofSheet_eq o o']

lemma errors_ofWorkbook_eq : (ofWorkbook o' w).issues.filter Issue.isError =
    (ofWorkbook o w).issues.filter Issue.isError := by
  simp only [issues_ofWorkbook, List.filter_flatMap, filter_isError_sheetIssues, circularKeys_eq o o']

lemma hasErrors_ofWorkbook_eq : (ofWorkbook o' w).hasErrors = (ofWorkbook o w).hasErrors := by
  have hany (r : Report) : r.hasErrors = !(r.issues.filter Issue.isError).isEmpty := by
    rw [Bool.eq_iff_iff]
    simp [hasErrors]
  rw [hany, hany, errors_ofWorkbook_eq o o' w]

end Report

end Lint

namespace Command

open Lint (Options Report)

lemma Check.exit_run {files : Files} {c : Check} {o : Options} (h : loadOptions files c.config = .ok o) :
    (c.run files).exit =
      match readWorkbook files c.input c.sheet with
      | .error _ => 1
      | .ok w => if c.failOnError && (Report.ofWorkbook (c.override o) w).hasErrors then 1 else 0 := by
  have hreport : c.report files =
      (readWorkbook files c.input c.sheet).map (Report.ofWorkbook (c.override o)) := by
    rw [Check.report, h]
    cases readWorkbook files c.input c.sheet <;> rfl
  rw [Check.run, hreport]
  cases readWorkbook files c.input c.sheet <;> rfl

end Command

namespace Lint

theorem options_filter_report :
    (∀ (w : Workbook) (o o' : Options),
      (Report.ofWorkbook o' w).metadata = (Report.ofWorkbook o w).metadata ∧
      (Report.ofWorkbook o' w).issues.filter Issue.isError =
        (Report.ofWorkbook o w).issues.filter Issue.isError ∧
      (Report.ofWorkbook o' w).hasErrors = (Report.ofWorkbook o w).hasErrors ∧
      (Stricter o o' → (Report.ofWorkbook o' w).issues.Sublist (Report.ofWorkbook o w).issues)) ∧
    ∀ (files : Command.Files) (c c' : Command.Check) (o o' : Options),
      Command.loadOptions files c.config = .ok o → Command.loadOptions files c'.config = .ok o' →
      c'.input = c.input → c'.sheet = c.sheet → c'.failOnError = c.failOnError →
      (c'.run files).exit = (c.run files).exit := by
  constructor
  · intro w o o'
    refine ⟨Report.metadata_ofWorkbook_eq o o' w, Report.errors_ofWorkbook_eq o o' w,
      Report.hasErrors_ofWorkbook_eq o o' w, ?_⟩
    intro h
    rw [Report.issues_ofWorkbook, Report.issues_ofWorkbook]
    apply List.Sublist.flatMap_right
    intro s _
    exact h.sheetIssues_sublist s
  · intro files c c' o o' ho ho' hinput hsheet hfail
    rw [Command.Check.exit_run ho, Command.Check.exit_run ho', hinput, hsheet, hfail]
    simp only [Report.hasErrors_ofWorkbook_eq (c.override o) (c'.override o')]

theorem options_filter_report_division :
    let o' : Options :=
      { complexityThreshold := .infinity false, cycleSearch := .components, reportVolatile := false }
    let w : Workbook := ⟨[Sheet.set ⟨"Sheet1", {}⟩ "A1" "=NOW()/0"]⟩
    let files : Command.Files := fun path =>
      if path = "a.csv" then some "cell,formula\nA1,=A1/0\n".toUTF8.toList else none
    let c : Command.Check := ⟨"a.csv", "Sheet1", none, .text, none, none, none, true⟩
    let c' := { c with complexityThreshold := some .nan, search := some .components }
    Stricter {} o' ∧ (Report.ofWorkbook o' w).issues.Sublist (Report.ofWorkbook {} w).issues ∧
      (c.run files).exit = 1 ∧ (c'.run files).exit = 1 := by
  intro o' w files c c'
  have hstricter : Stricter {} o' :=
    ⟨by decide +kernel, by decide +kernel, by decide, by decide, by decide⟩
  have hexit : (c.run files).exit = 1 := by decide +kernel
  refine ⟨hstricter, (options_filter_report.1 w {} o').2.2.2 hstricter, hexit, ?_⟩
  rw [← hexit]
  exact options_filter_report.2 files c c' {} {} rfl rfl rfl rfl rfl

end Lint

end FormulaAudit
