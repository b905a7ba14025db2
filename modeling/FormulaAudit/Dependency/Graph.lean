import FormulaAudit.Address.Key
import FormulaAudit.Address.Range
import FormulaAudit.Formula.Analysis

/-! Which cells the formulas of a sheet read. -/

namespace FormulaAudit.Dependency

open Address (key endpoints)

def rangeEnds (range : String) : List String :=
  match endpoints range with
  | none => []
  | some (first, last) => [key first, key last].filter (· != "")

/-- The cells that a formula reads: its references, and of its ranges the two ends only. -/
def readsOf (a : Analysis) : List String :=
  a.dependencies.map key ++ a.usedRanges.flatMap rangeEnds

def union (old new : List String) : List String :=
  new.foldl (fun reads k => reads.insert k) old

def addRow (cell : String) (reads : List String) :
    List (String × List String) → List (String × List String)
  | [] => [(cell, union [] reads)]
  | (k, old) :: rows =>
    if k = cell then (k, union old reads) :: rows else (k, old) :: addRow cell reads rows

theorem map_fst_addRow (cell : String) (reads : List String) (rows : List (String × List String)) :
    (addRow cell reads rows).map (·.1) =
      if cell ∈ rows.map (·.1) then rows.map (·.1) else rows.map (·.1) ++ [cell] := by
  induction rows with
  | nil => rfl
  | cons row rows ih =>
    obtain ⟨j, old⟩ := row
    rw [addRow]
    by_cases hj : j = cell
    · simp [hj]
    · rw [if_neg hj, List.map_cons, ih]
      by_cases hmem : cell ∈ rows.map (·.1) <;> simp [hmem, Ne.symm hj]

theorem nodup_addRow {cell : String} {reads : List String} {rows : List (String × List String)}
    (h : (rows.map (·.1)).Nodup) : ((addRow cell reads rows).map (·.1)).Nodup := by
  rw [map_fst_addRow]
  split
  · exact h
  · next hmem =>
    refine List.nodup_append.mpr ⟨h, by simp, ?_⟩
    intro a ha b hb hab
    obtain rfl := List.mem_singleton.mp hb
    exact hmem (hab ▸ ha)

/-- A row holds the key of a formula's cell and the keys of the cells that it reads. -/
structure Graph where
  rows : List (String × List String)
  nodup : (rows.map (·.1)).Nodup
  deriving DecidableEq, Repr

namespace Graph

instance : EmptyCollection Graph := ⟨⟨[], List.nodup_nil⟩⟩

def cells (g : Graph) : List String :=
  g.rows.map (·.1)

def reads (g : Graph) (k : String) : List String :=
  (g.rows.lookup k).getD []

def precedents (g : Graph) (cell : String) : List String :=
  g.reads (key cell)

def addFormula (g : Graph) (cell : String) (a : Analysis) : Graph :=
  ⟨addRow (key cell) (readsOf a) g.rows, nodup_addRow g.nodup⟩

def addDependency (g : Graph) (cell dependency : String) : Graph :=
  ⟨addRow (key cell) [key dependency] g.rows, nodup_addRow g.nodup⟩

def ofFormulas (formulas : List (String × String)) : Graph :=
  formulas.foldl (fun g p => g.addFormula p.1 (Formula.analyze p.2)) ∅

end Graph

end FormulaAudit.Dependency
