import FormulaAudit.Lint.Report
import FormulaAudit.Proofs.Dependency.Circular

/-!
The issues of a sheet: those of its formulas in text order of their cells, then its circular
references, each at the first cell that is written with its address.
-/

namespace FormulaAudit

open Address (key)
open Dependency (readsOf OnCycle)

namespace Sheet

def written (s : Sheet) : List (String × String) :=
  s.toList.filter fun p => Text.trim p.2 ≠ ""

lemma mem_written {s : Sheet} {p : String × String} :
    p ∈ s.written ↔ s.get? p.1 = some p.2 ∧ Text.trim p.2 ≠ "" := by
  rw [written, List.mem_filter, toList, get?, ← Std.TreeMap.mem_toList_iff_getElem?_eq_some]
  simp

lemma pairwise_written (s : Sheet) : s.written.Pairwise fun p q => p.1 < q.1 := by
  have hordered : s.toList.Pairwise fun p q => compare p.1 q.1 = .lt :=
    Std.TreeMap.ordered_keys_toList
  exact (hordered.imp compare_lt_iff_lt.mp).filter _

def Depends (s : Sheet) (a b : String) : Prop :=
  ∃ p ∈ s.written, key p.1 = a ∧ b ∈ readsOf (Formula.analyze p.2)

structure IsFirstCell (s : Sheet) (k cell : String) : Prop where
  key_eq : key cell = k
  mem : cell ∈ s.written.map (·.1)
  le : ∀ p ∈ s.written, key p.1 = k → cell ≤ p.1

end Sheet

namespace Lint

lemma entries_eq (s : Sheet) : entries s = s.written.map Entry.ofPair := by
  have hfilter : (s.toList.filter fun p => !Text.allBlank p.2) = s.written := by
    refine List.filter_congr fun p _ => ?_
    rw [Bool.eq_iff_iff]
    simp [← Text.allBlank_iff]
  rw [entries, hfilter]

lemma graphOf_ofPair (ps : List (String × String)) :
    graphOf (ps.map Entry.ofPair) = .ofFormulas ps := by
  rw [graphOf, List.foldl_map]
  rfl

lemma mem_circularKeys {o : Options} {s : Sheet} {k : String} :
    k ∈ circularKeys o (entries s) ↔ Relation.TransGen s.Depends k k := by
  have hadjacent : Dependency.Adjacent (Dependency.Graph.ofFormulas s.written).reads = s.Depends := by
    funext a b
    exact propext Dependency.Graph.mem_reads_ofFormulas
  rw [circularKeys, entries_eq, graphOf_ofPair, Dependency.Graph.mem_circular
    (Dependency.Graph.canonical_ofFormulas _),
    OnCycle, hadjacent]

lemma pairwise_circularKeys (o : Options) (s : Sheet) :
    (circularKeys o (entries s)).Pairwise (· < ·) := by
  rw [circularKeys, entries_eq, graphOf_ofPair]
  exact Dependency.Graph.pairwise_circular _ _

lemma isFirstCell_writtenCell {s : Sheet} {k : String} (h : ∃ p ∈ s.written, key p.1 = k) :
    s.IsFirstCell k (writtenCell (entries s) k) := by
  have hsorted := s.pairwise_written
  rw [entries_eq, writtenCell, List.find?_map]
  cases hf : s.written.find? ((fun e => key e.cell == k) ∘ Entry.ofPair) with
  | none =>
    obtain ⟨p, hp, hk⟩ := h
    exact absurd (beq_iff_eq.mpr hk) (List.find?_eq_none.mp hf p hp)
  | some p =>
    obtain ⟨hk, before, after, happend, hbefore⟩ := List.find?_eq_some_iff_append.mp hf
    refine ⟨beq_iff_eq.mp hk, ?_, fun q hq hkq => ?_⟩
    · exact List.mem_map.mpr ⟨p, List.mem_of_find?_eq_some hf, rfl⟩
    · -- cells before it have other addresses, and cells after it come later in text order
      rw [happend] at hq hsorted
      rcases List.mem_append.mp hq with hq | hq
      · have hne := hbefore q hq
        simp [Entry.ofPair, hkq] at hne
      · rcases List.mem_cons.mp hq with rfl | hq
        · exact le_refl _
        · have hafter := (List.pairwise_append.mp hsorted).2.1
          exact le_of_lt ((List.pairwise_cons.mp hafter).1 q hq)

theorem sheetIssues_eq (o : Options) (s : Sheet) :
    (s.written.Pairwise fun p q => p.1 < q.1) ∧
    (∀ p, p ∈ s.written ↔ s.get? p.1 = some p.2 ∧ Text.trim p.2 ≠ "") ∧
    ∃ circular : List (String × String),
      sheetIssues o s = s.written.flatMap (fun p => formulaIssues o p.2 ⟨s.name, p.1⟩) ++
        circular.map (fun r => ⟨.formula, .error, s.name, r.2, "Circular reference detected",
          some "Break the dependency cycle"⟩) ∧
      (circular.map (·.1)).Pairwise (· < ·) ∧
      (∀ k, k ∈ circular.map (·.1) ↔ Relation.TransGen s.Depends k k) ∧
      ∀ r ∈ circular, s.IsFirstCell r.1 r.2 := by
  have hkeys : ((circularKeys o (entries s)).map fun k => (k, writtenCell (entries s) k)).map (·.1) =
      circularKeys o (entries s) := by
    rw [List.map_map]
    exact List.map_id _
  refine ⟨s.pairwise_written, fun p => Sheet.mem_written,
    (circularKeys o (entries s)).map fun k => (k, writtenCell (entries s) k), ?_, ?_, ?_, ?_⟩
  · rw [List.map_map]
    show (entries s).flatMap _ ++ _ = _
    rw [entries_eq, List.flatMap_map]
    rfl
  · rw [hkeys]
    exact pairwise_circularKeys o s
  · intro k
    rw [hkeys]
    exact mem_circularKeys
  · intro r hr
    obtain ⟨k, hk, rfl⟩ := List.mem_map.mp hr
    obtain ⟨b, ⟨p, hp, hkey, -⟩, -⟩ := Relation.TransGen.head'_iff.mp (mem_circularKeys.mp hk)
    exact isFirstCell_writtenCell ⟨p, hp, hkey⟩

end Lint

end FormulaAudit
