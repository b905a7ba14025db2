import FormulaAudit.Dependency.Cycles
import Mathlib.Data.List.Nodup
import Mathlib.Data.List.Forall2

/-! The rows of a graph: one for each key, whose reads are the union of all that was recorded. -/

namespace FormulaAudit.Dependency

open Address (key)

lemma mem_union {old new : List String} {w : String} : w ∈ union old new ↔ w ∈ old ∨ w ∈ new := by
  induction new generalizing old with
  | nil => simp [union]
  | cons k new ih =>
    have hstep : union old (k :: new) = union (old.insert k) new := rfl
    rw [hstep, ih, List.mem_insert_iff, List.mem_cons]
    tauto

lemma lookup_cons (j : String) (old : List String) (rows : List (String × List String)) (k : String) :
    ((j, old) :: rows).lookup k = if k = j then some old else rows.lookup k := by
  rw [List.lookup_cons]
  by_cases h : k = j
  · simp [h]
  · simp [beq_false_of_ne h, h]

lemma lookup_addRow (cell : String) (reads : List String) (rows : List (String × List String))
    (k : String) : (addRow cell reads rows).lookup k =
      if k = cell then some (union ((rows.lookup k).getD []) reads) else rows.lookup k := by
  induction rows with
  | nil =>
    rw [addRow, lookup_cons]
    rfl
  | cons row rows ih =>
    obtain ⟨j, old⟩ := row
    rw [addRow, lookup_cons]
    by_cases hj : j = cell
    · subst hj
      rw [if_pos rfl, lookup_cons]
      by_cases hk : k = j <;> simp [hk]
    · rw [if_neg hj, lookup_cons]
      by_cases hk : k = j
      · simp [hk, hj]
      · simpa [hk] using ih

lemma lookup_eq_some_iff {rows : List (String × List String)} {k : String} {ws : List String}
    (h : (rows.map (·.1)).Nodup) : rows.lookup k = some ws ↔ (k, ws) ∈ rows := by
  induction rows with
  | nil => simp
  | cons row rows ih =>
    obtain ⟨j, old⟩ := row
    rw [List.map_cons, List.nodup_cons] at h
    rw [lookup_cons]
    by_cases hk : k = j
    · subst hk
      have hnot : (k, ws) ∉ rows := fun hmem => h.1 (List.mem_map.mpr ⟨(k, ws), hmem, rfl⟩)
      simp [hnot, eq_comm]
    · simp [hk, ih h.2]

namespace Graph

inductive Reached : Graph → Prop
  | empty : Reached ∅
  | addFormula {g : Graph} (cell : String) (a : Analysis) : Reached g → Reached (g.addFormula cell a)
  | addDependency {g : Graph} (cell dependency : String) :
      Reached g → Reached (g.addDependency cell dependency)

def addFormulas (g : Graph) (formulas : List (String × String)) : Graph :=
  formulas.foldl (fun g p => g.addFormula p.1 (Formula.analyze p.2)) g

lemma Reached.addFormulas {g : Graph} (h : Reached g) (formulas : List (String × String)) :
    Reached (g.addFormulas formulas) := by
  induction formulas generalizing g with
  | nil => exact h
  | cons p ps ih => exact ih (h.addFormula p.1 (Formula.analyze p.2))

lemma reached_ofFormulas (formulas : List (String × String)) : Reached (ofFormulas formulas) :=
  Reached.empty.addFormulas formulas

variable {g g' : Graph} {k w : String}

lemma mem_reads_addFormula {cell : String} {a : Analysis} :
    w ∈ (g.addFormula cell a).reads k ↔ w ∈ g.reads k ∨ key cell = k ∧ w ∈ readsOf a := by
  rw [reads, addFormula, lookup_addRow]
  by_cases hk : k = key cell
  · simp [hk, mem_union, reads]
  · simp [hk, Ne.symm hk, reads]

lemma mem_reads_addFormulas {formulas : List (String × String)} :
    w ∈ (g.addFormulas formulas).reads k ↔
      w ∈ g.reads k ∨ ∃ p ∈ formulas, key p.1 = k ∧ w ∈ readsOf (Formula.analyze p.2) := by
  induction formulas generalizing g with
  | nil => simp [addFormulas]
  | cons p ps ih =>
    have hstep : g.addFormulas (p :: ps) =
        (g.addFormula p.1 (Formula.analyze p.2)).addFormulas ps := rfl
    rw [hstep, ih, mem_reads_addFormula, List.exists_mem_cons_iff, or_assoc]

lemma mem_reads_ofFormulas {formulas : List (String × String)} :
    w ∈ (ofFormulas formulas).reads k ↔
      ∃ p ∈ formulas, key p.1 = k ∧ w ∈ readsOf (Formula.analyze p.2) := by
  have hempty : w ∉ (∅ : Graph).reads k := List.not_mem_nil
  exact (mem_reads_addFormulas (g := ∅)).trans (or_iff_right hempty)

lemma mem_reads : w ∈ g.reads k ↔ ∃ row ∈ g.rows, row.1 = k ∧ w ∈ row.2 := by
  rw [reads]
  constructor
  · intro hw
    cases hl : g.rows.lookup k with
    | none => simp [hl] at hw
    | some ws =>
      rw [hl, Option.getD_some] at hw
      exact ⟨(k, ws), (lookup_eq_some_iff g.nodup).mp hl, rfl, hw⟩
  · rintro ⟨⟨j, ws⟩, hrow, rfl, hw⟩
    rw [(lookup_eq_some_iff g.nodup).mpr hrow]
    exact hw

lemma indexedReads_index (g : Graph) : indexedReads g.index = g.reads := by
  funext k
  rw [indexedReads, index, reads]
  have hdistinct : g.rows.Pairwise fun a b => (a.1 == b.1) = false := by
    refine (List.pairwise_map.mp g.nodup).imp fun hne => ?_
    simpa using hne
  cases hl : g.rows.lookup k with
  | none =>
    refine Std.HashMap.getD_ofList_of_contains_eq_false ?_
    rw [Bool.eq_false_iff, Ne, List.contains_iff_mem]
    intro hk
    obtain ⟨⟨j, ws⟩, hrow, rfl⟩ := List.mem_map.mp hk
    simp [(lookup_eq_some_iff g.nodup).mpr hrow] at hl
  | some ws =>
    exact Std.HashMap.getD_ofList_of_mem (beq_self_eq_true k) hdistinct
      ((lookup_eq_some_iff g.nodup).mp hl)

lemma mem_readers : k ∈ g.readers ↔ g.reads k ≠ [] := by
  constructor
  · intro hk
    obtain ⟨⟨j, ws⟩, hrow, rfl⟩ := List.mem_map.mp hk
    obtain ⟨hrow, hne⟩ := List.mem_filter.mp hrow
    rw [reads, (lookup_eq_some_iff g.nodup).mpr hrow]
    simpa using hne
  · intro hne
    obtain ⟨w, hw⟩ := List.exists_mem_of_ne_nil _ hne
    obtain ⟨row, hrow, rfl, hmem⟩ := mem_reads.mp hw
    have hrow' : !row.2.isEmpty := by simpa using List.ne_nil_of_mem hmem
    exact List.mem_map.mpr ⟨row, List.mem_filter.mpr ⟨hrow, hrow'⟩, rfl⟩

lemma nodup_readers (g : Graph) : g.readers.Nodup :=
  g.nodup.sublist (List.filter_sublist.map _)

def Reorders (g g' : Graph) : Prop :=
  ∃ rows, g.rows.Perm rows ∧ List.Forall₂ (fun r r' => r.1 = r'.1 ∧ r.2.Perm r'.2) rows g'.rows

lemma Reorders.cells_perm (h : Reorders g g') : g.cells.Perm g'.cells := by
  obtain ⟨rows, hperm, hrows⟩ := h
  have hcells : rows.map (·.1) = g'.cells := by
    rw [← List.forall₂_eq_eq_eq, cells, List.forall₂_map_left_iff, List.forall₂_map_right_iff]
    exact hrows.imp fun _ _ hr => hr.1
  exact hcells ▸ hperm.map _

lemma Reorders.mem_reads_iff (h : Reorders g g') : w ∈ g'.reads k ↔ w ∈ g.reads k := by
  rw [mem_reads, mem_reads]
  obtain ⟨rows, hperm, hrows⟩ := h
  simp only [hperm.mem_iff]
  clear hperm
  generalize g'.rows = rows' at hrows
  induction hrows with
  | nil => rfl
  | cons hrow _ ih => simp only [List.exists_mem_cons_iff, hrow.1, hrow.2.mem_iff, ih]

end Graph

end FormulaAudit.Dependency
