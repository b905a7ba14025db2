import FormulaAudit.Proofs.Dependency.Circular
import Mathlib.Algebra.GroupWithZero.Nat
import Mathlib.Algebra.Order.BigOperators.Group.List

/-!
The budget of the search by paths. A larger one keeps every answer, and for each graph there is one
from which the search always answers: the paths that it keeps apart do not repeat a cell, so there are
only so many of them.
-/

namespace FormulaAudit.Dependency

namespace PathSearch

variable {α : Type} [BEq α] [LawfulBEq α] {edges : α → List α} {start : α}

lemma search_mono {budget budget' : Nat} (todo : List (α × List α)) (hle : budget ≤ budget') {b : Bool}
    (h : search edges start budget todo = some b) : search edges start budget' todo = some b := by
  induction budget using Nat.strongRecOn generalizing budget' todo with
  | ind budget ih =>
    match todo, budget with
    | [], _ => simpa using h
    | _ :: _, 0 => simp at h
    | (v, path) :: todo, budget + 1 =>
      obtain ⟨left, rfl⟩ : ∃ left, budget' = left + 1 := ⟨budget' - 1, by omega⟩
      rw [search_succ] at h ⊢
      split at h
      · next hs => rwa [if_pos hs]
      · next hs =>
        rw [if_neg hs]
        apply ih _ (by omega) _ (by omega) h

/-- Units that suffice to follow all that comes after a path which can grow by `room` vertices, where
no path is longer than `limit` and no vertex has more than `degree` edges. -/
def work (degree limit : Nat) : (room : Nat) → Nat
  | 0 => 1
  | room + 1 => 1 + degree * (limit + work degree limit room)

def pendingWork (degree limit : Nat) (todo : List (α × List α)) : Nat :=
  (todo.map fun p => work degree limit (limit - p.2.length)).sum

lemma work_pos (degree limit room : Nat) : 0 < work degree limit room := by
  cases room <;> simp only [work] <;> omega

omit [LawfulBEq α] in
lemma pendingWork_branches (degree limit : Nat) (path targets : List α) (todo : List (α × List α)) :
    pendingWork degree limit (branches edges path targets ++ todo) =
      (fresh edges path targets).length * work degree limit (limit - (path.length + 1)) +
        pendingWork degree limit todo := by
  have hconst : ∀ vs : List α, ((vs.map fun v => (v, v :: path)).map
      fun p => work degree limit (limit - p.2.length)).sum =
        vs.length * work degree limit (limit - (path.length + 1)) := by
    intro vs
    simp [Function.comp_def]
  simp only [pendingWork, branches, List.map_append, List.sum_append, List.map_reverse,
    List.sum_reverse, hconst]

section Bounded

variable (vertices : List α) {degree : Nat}
variable (hvertices : ∀ v, edges v ≠ [] → v ∈ vertices) (hdegree : ∀ v, (edges v).length ≤ degree)

include hvertices in
lemma simple_of_mem_fresh {path targets : List α} {v : α} (hnodup : path.Nodup)
    (hsub : path ⊆ vertices) (hv : v ∈ fresh edges path targets) :
    (v :: path).Nodup ∧ v :: path ⊆ vertices := by
  obtain ⟨-, hnew, hne⟩ := mem_fresh.mp hv
  exact ⟨List.nodup_cons.mpr ⟨hnew, hnodup⟩, List.cons_subset.mpr ⟨hvertices v hne, hsub⟩⟩

include hvertices hdegree in
lemma step_work {path : List α} (v : α) (hnodup : path.Nodup) (hsub : path ⊆ vertices) :
    1 + (fresh edges path (edges v)).length * path.length +
        (fresh edges path (edges v)).length *
          work degree vertices.length (vertices.length - (path.length + 1)) ≤
      work degree vertices.length (vertices.length - path.length) := by
  -- a path that holds all vertices has no fresh targets, so there is room for one more otherwise
  rcases List.eq_nil_or_concat (fresh edges path (edges v)) with hnil | ⟨_, w, hw⟩
  · have hpos := work_pos degree vertices.length (vertices.length - path.length)
    simp only [hnil, List.length_nil, Nat.zero_mul]
    omega
  · have hmem : w ∈ fresh edges path (edges v) := by simp [hw]
    obtain ⟨hnodup', hsub'⟩ := simple_of_mem_fresh vertices hvertices hnodup hsub hmem
    have hlength : path.length + 1 ≤ vertices.length :=
      (List.subperm_of_subset hnodup' hsub').length_le
    have hfresh : (fresh edges path (edges v)).length ≤ degree :=
      (List.length_filter_le _ _).trans (hdegree v)
    have hroom : vertices.length - path.length = vertices.length - (path.length + 1) + 1 := by omega
    rw [hroom, work, Nat.add_assoc, ← Nat.mul_add]
    apply Nat.add_le_add_left
    apply Nat.mul_le_mul hfresh
    omega

include hvertices hdegree in
lemma search_isSome (budget : Nat) (todo : List (α × List α))
    (hsimple : ∀ p ∈ todo, p.2.Nodup ∧ p.2 ⊆ vertices)
    (hbudget : pendingWork degree vertices.length todo ≤ budget) :
    ∃ b, search edges start budget todo = some b := by
  induction budget using Nat.strongRecOn generalizing todo with
  | ind budget ih =>
    match todo with
    | [] => exact ⟨false, search_nil ..⟩
    | (v, path) :: todo =>
      obtain ⟨hnodup, hsub⟩ : path.Nodup ∧ path ⊆ vertices := hsimple (v, path) (by simp)
      have hstep := step_work vertices hvertices hdegree v hnodup hsub
      have hpending : pendingWork degree vertices.length ((v, path) :: todo) =
          work degree vertices.length (vertices.length - path.length) +
            pendingWork degree vertices.length todo := rfl
      obtain ⟨left, rfl⟩ : ∃ left, budget = left + 1 := ⟨budget - 1, by omega⟩
      rw [search_succ]
      split
      · exact ⟨true, rfl⟩
      · apply ih _ (by omega)
        · intro p hp
          rcases List.mem_append.mp hp with hp | hp
          · obtain ⟨w, hw, rfl⟩ := mem_branches.mp hp
            exact simple_of_mem_fresh vertices hvertices hnodup hsub hw
          · exact hsimple p (by simp [hp])
        · rw [pendingWork_branches]
          omega

end Bounded

end PathSearch

namespace Graph

variable {g g' : Graph}

def edgeCount (g : Graph) : Nat :=
  (g.rows.map (·.2.length)).sum

lemma length_reads_le (g : Graph) (k : String) : (g.reads k).length ≤ g.edgeCount := by
  rw [reads]
  cases hl : g.rows.lookup k with
  | none => simp
  | some ws =>
    have hmem : ws.length ∈ g.rows.map (·.2.length) :=
      List.mem_map.mpr ⟨(k, ws), (lookup_eq_some_iff g.nodup).mp hl, rfl⟩
    exact List.le_sum_of_mem hmem

lemma mem_cells_of_reads {k : String} (h : g.reads k ≠ []) : k ∈ g.cells := by
  obtain ⟨w, hw⟩ := List.exists_mem_of_ne_nil _ h
  obtain ⟨row, hrow, rfl, -⟩ := mem_reads.mp hw
  exact List.mem_map_of_mem hrow

lemma Reorders.edgeCount_eq (h : Reorders g g') : g'.edgeCount = g.edgeCount := by
  obtain ⟨rows, hperm, hrows⟩ := h
  have hlengths : rows.map (·.2.length) = g'.rows.map (·.2.length) := by
    rw [← List.forall₂_eq_eq_eq, List.forall₂_map_left_iff, List.forall₂_map_right_iff]
    exact hrows.imp fun _ _ hr => hr.2.length_eq
  rw [edgeCount, edgeCount, ← hlengths, (hperm.map _).sum_nat]

def enoughBudget (g : Graph) : Nat :=
  PathSearch.work g.edgeCount (g.cells.length + 1) g.cells.length

lemma Reorders.enoughBudget_eq (h : Reorders g g') : g'.enoughBudget = g.enoughBudget := by
  rw [enoughBudget, enoughBudget, h.edgeCount_eq, h.cells_perm.length_eq]

lemma reachesItself_isSome (g : Graph) (start : String) {budget : Nat}
    (hbudget : g.enoughBudget ≤ budget) :
    ∃ b, PathSearch.reachesItself g.reads start budget = some b := by
  refine PathSearch.search_isSome (start :: g.cells) ?_ g.length_reads_le budget _ ?_ ?_
  · intro v hv
    exact List.mem_cons_of_mem _ (mem_cells_of_reads hv)
  · simp
  · simpa [PathSearch.pendingWork, enoughBudget] using hbudget

theorem reachesItself_budget (g : Graph) :
    (∀ g', Reorders g g' → ∀ start budget b,
      PathSearch.reachesItself (indexedReads g'.index) start budget = some b →
        (b = true ↔ OnCycle g.reads start) ∧
        ∀ budget', budget ≤ budget' →
          PathSearch.reachesItself (indexedReads g'.index) start budget' = some b) ∧
    ∃ enough, ∀ g', Reorders g g' → ∀ start budget, enough ≤ budget →
      ∃ b, PathSearch.reachesItself (indexedReads g'.index) start budget = some b := by
  constructor
  · intro g' hg' start budget b h
    rw [indexedReads_index] at h ⊢
    refine ⟨(PathSearch.reachesItself_eq_some h).trans hg'.onCycle_iff, ?_⟩
    intro budget' hle
    exact PathSearch.search_mono _ hle h
  · refine ⟨g.enoughBudget, ?_⟩
    intro g' hg' start budget hbudget
    rw [indexedReads_index]
    apply reachesItself_isSome
    rwa [hg'.enoughBudget_eq]

theorem reachesItself_budget_tail :
    let g : Graph := ⟨[(" A1", ["b1"]), ("A1", ["b1"]), ("b1", ["A1", "c1"])], by decide⟩
    let g' : Graph := ⟨[("b1", ["c1", "A1"]), ("A1", ["b1"]), (" A1", ["b1"])], by decide⟩
    Reorders g g' ∧
      PathSearch.reachesItself (indexedReads g'.index) " A1" 6 = some false ∧
      ¬ OnCycle g.reads " A1" ∧
      PathSearch.reachesItself (indexedReads g'.index) " A1" 100000 = some false := by
  intro g g'
  have hreorders : Reorders g g' := ⟨g.rows.reverse, (List.reverse_perm _).symm,
    .cons ⟨rfl, .swap ..⟩ (.cons ⟨rfl, .refl _⟩ (.cons ⟨rfl, .refl _⟩ .nil))⟩
  have hanswer : PathSearch.reachesItself (indexedReads g'.index) " A1" 6 = some false := by
    have h1 : g'.reads " A1" = ["b1"] := by decide
    have h2 : g'.reads "A1" = ["b1"] := by decide
    have h3 : g'.reads "b1" = ["c1", "A1"] := by decide
    have h4 : g'.reads "c1" = [] := by decide
    rw [indexedReads_index]
    simp [PathSearch.reachesItself, PathSearch.search_succ, PathSearch.branches, PathSearch.fresh,
      h1, h2, h3, h4]
  obtain ⟨hcycle, hlarger⟩ := (reachesItself_budget g).1 g' hreorders " A1" 6 false hanswer
  refine ⟨hreorders, hanswer, ?_, hlarger 100000 (by decide)⟩
  simpa using hcycle

end Graph

end FormulaAudit.Dependency
