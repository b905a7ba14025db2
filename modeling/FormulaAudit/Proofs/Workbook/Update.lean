import FormulaAudit.Workbook.Basic
import Mathlib.Tactic.Common

/-!
One formula set in a workbook. Several sheets may have one name up to case: the first of them is found, and
only that one changes.
-/

namespace FormulaAudit

open Text (upper sameIgnoringCase_iff)

namespace Sheet

variable {s : Sheet} {name cell formula : String}

lemma isNamed_iff : s.isNamed name = true ↔ upper s.name = upper name :=
  sameIgnoringCase_iff

lemma get?_mk (name cell : String) : get? { name } cell = none := by
  simp [get?]

lemma get?_set (other : String) :
    (s.set cell formula).get? other = if cell = other then some formula else s.get? other := by
  simp [get?, set, Std.TreeMap.getElem?_insert]

lemma size_set : (s.set cell formula).size = s.size + if (s.get? cell).isSome then 0 else 1 := by
  rw [size, set, Std.TreeMap.size_insert, get?, Std.TreeMap.isSome_getElem?_eq_contains, size]
  split <;> rfl

lemma isNamed_congr {other : String} (h : upper name = upper other) : s.isNamed name = s.isNamed other := by
  rw [Bool.eq_iff_iff, isNamed_iff, isNamed_iff, h]

structure Updates (s s' : Sheet) (cell formula : String) : Prop where
  name_eq : s'.name = s.name
  get?_cell : s'.get? cell = some formula
  get?_other : ∀ other, other ≠ cell → s'.get? other = s.get? other

lemma updates_set (s : Sheet) (cell formula : String) : s.Updates (s.set cell formula) cell formula where
  name_eq := rfl
  get?_cell := by rw [get?_set, if_pos rfl]
  get?_other other hne := by rw [get?_set, if_neg hne.symm]

end Sheet

namespace Workbook

def formula? (w : Workbook) (name cell : String) : Option String :=
  (w.sheet? name).bind (·.get? cell)

section Sheets

variable {name other : String} {g : Sheet → Sheet} {sheets before after : List Sheet} {s : Sheet}

lemma modifySheet_of_forall (h : ∀ t ∈ sheets, t.isNamed name = false) :
    modifySheet name g sheets = sheets ++ [g { name }] := by
  induction sheets with
  | nil => rfl
  | cons t rest ih =>
    rw [List.forall_mem_cons] at h
    rw [modifySheet, h.1, ih h.2]
    rfl

lemma modifySheet_append (h : ∀ t ∈ before, t.isNamed name = false) (hs : s.isNamed name = true) :
    modifySheet name g (before ++ s :: after) = before ++ g s :: after := by
  induction before with
  | nil => simp [modifySheet, hs]
  | cons t rest ih =>
    rw [List.forall_mem_cons] at h
    rw [List.cons_append, modifySheet, h.1, ih h.2]
    rfl

lemma find?_of_forall (h : ∀ t ∈ sheets, t.isNamed name = false) : sheets.find? (·.isNamed name) = none := by
  rw [List.find?_eq_none]
  simpa using h

lemma find?_append (h : ∀ t ∈ before, t.isNamed name = false) (hs : s.isNamed name = true) :
    (before ++ s :: after).find? (·.isNamed name) = some s := by
  rw [List.find?_append, find?_of_forall h, List.find?_cons, hs]
  rfl

lemma find?_append_other (hs : s.isNamed other = false) :
    (before ++ s :: after).find? (·.isNamed other) = (before ++ after).find? (·.isNamed other) := by
  rw [List.find?_append, List.find?_cons, hs, List.find?_append]

lemma countFormulas_append (sheets sheets' : List Sheet) :
    countFormulas (sheets ++ sheets') = countFormulas sheets + countFormulas sheets' := by
  induction sheets with
  | nil => simp [countFormulas]
  | cons s rest ih => rw [List.cons_append, countFormulas, countFormulas, ih, Nat.add_assoc]

end Sheets

section Set

variable (w : Workbook) (name cell formula : String)

lemma set_cases :
    (∃ before s after, w.sheets = before ++ s :: after ∧ (∀ t ∈ before, t.isNamed name = false) ∧
      s.isNamed name = true ∧ (w.set name cell formula).sheets = before ++ s.set cell formula :: after) ∨
    (∀ t ∈ w.sheets, t.isNamed name = false) ∧
      (w.set name cell formula).sheets = w.sheets ++ [Sheet.set { name } cell formula] := by
  cases hfind : w.sheets.find? (·.isNamed name) with
  | none =>
    have hnone : ∀ t ∈ w.sheets, t.isNamed name = false := by simpa using List.find?_eq_none.mp hfind
    exact .inr ⟨hnone, modifySheet_of_forall hnone⟩
  | some s =>
    obtain ⟨hs, before, after, happend, hbefore⟩ := List.find?_eq_some_iff_append.mp hfind
    have hnone : ∀ t ∈ before, t.isNamed name = false := by simpa using hbefore
    refine .inl ⟨before, s, after, happend, hnone, hs, ?_⟩
    rw [set, happend, modifySheet_append hnone hs]

lemma names_set : (w.set name cell formula).sheets.map (·.name) =
    if w.sheets.any (·.isNamed name) then w.sheets.map (·.name) else w.sheets.map (·.name) ++ [name] := by
  obtain ⟨before, s, after, hsheets, -, hs, hset⟩ | ⟨hnone, hset⟩ := set_cases w name cell formula
  · rw [hset, hsheets]
    simp [hs, Sheet.set]
  · have hany : w.sheets.any (·.isNamed name) = false := List.any_eq_false.mpr (by simpa using hnone)
    rw [hset, hany]
    simp [Sheet.set]

lemma formula?_set_self (cell' : String) : (w.set name cell formula).formula? name cell' =
    if cell = cell' then some formula else w.formula? name cell' := by
  obtain ⟨before, s, after, hsheets, hnone, hs, hset⟩ | ⟨hnone, hset⟩ := set_cases w name cell formula
  · have hs' : (s.set cell formula).isNamed name = true := hs
    rw [formula?, formula?, sheet?, sheet?, hset, hsheets, find?_append hnone hs, find?_append hnone hs']
    exact Sheet.get?_set cell'
  · have hnew : (Sheet.set { name } cell formula).isNamed name = true := Sheet.isNamed_iff.mpr rfl
    rw [formula?, formula?, sheet?, sheet?, hset, find?_append hnone hnew, find?_of_forall hnone]
    exact (Sheet.get?_set cell').trans (by rw [Sheet.get?_mk]; rfl)

lemma formula?_set_other {other : String} (hne : upper name ≠ upper other) (cell' : String) :
    (w.set name cell formula).formula? other cell' = w.formula? other cell' := by
  have hother {s : Sheet} (hs : s.isNamed name = true) : s.isNamed other = false := by
    rw [Bool.eq_false_iff]
    exact fun h => hne ((Sheet.isNamed_iff.mp hs).symm.trans (Sheet.isNamed_iff.mp h))
  obtain ⟨before, s, after, hsheets, -, hs, hset⟩ | ⟨-, hset⟩ := set_cases w name cell formula
  · have hs' : (s.set cell formula).isNamed other = false := hother hs
    rw [formula?, formula?, sheet?, sheet?, hset, hsheets, find?_append_other hs', find?_append_other (hother hs)]
  · have hnew : (Sheet.set { name } cell formula).isNamed other = false := hother (Sheet.isNamed_iff.mpr rfl)
    rw [formula?, formula?, sheet?, sheet?, hset, find?_append_other hnew, List.append_nil]

lemma formula?_congr {other : String} (h : upper name = upper other) :
    w.formula? name cell = w.formula? other cell := by
  have hnamed : (fun s : Sheet => s.isNamed name) = fun s => s.isNamed other :=
    funext fun s => Sheet.isNamed_congr h
  rw [formula?, formula?, sheet?, sheet?, hnamed]

lemma formula?_set (other cell' : String) : (w.set name cell formula).formula? other cell' =
    if upper name = upper other ∧ cell = cell' then some formula else w.formula? other cell' := by
  by_cases hsame : upper name = upper other
  · rw [← formula?_congr _ _ _ hsame, ← formula?_congr _ _ _ hsame, formula?_set_self]
    simp [hsame]
  · rw [formula?_set_other w name cell formula hsame]
    simp [hsame]

lemma formulaCount_set : (w.set name cell formula).formulaCount =
    w.formulaCount + if (w.formula? name cell).isSome then 0 else 1 := by
  obtain ⟨before, s, after, hsheets, hnone, hs, hset⟩ | ⟨hnone, hset⟩ := set_cases w name cell formula
  · rw [formulaCount, formulaCount, formula?, sheet?, hset, hsheets, find?_append hnone hs, Option.bind_some,
      countFormulas_append, countFormulas_append, countFormulas, countFormulas, Sheet.size_set]
    omega
  · have hsize : (Sheet.set { name } cell formula).size = 1 := by
      rw [Sheet.size_set, Sheet.get?_mk]
      rfl
    rw [formulaCount, formulaCount, formula?, sheet?, hset, find?_of_forall hnone, countFormulas_append,
      countFormulas, countFormulas, hsize]
    rfl

end Set

end Workbook

end FormulaAudit
