import FormulaAudit.Proofs.Dependency.Components

/-!
The depth-first pass with no bound on its depth, and the components of a graph that is given by
adjacency lists. The bound of the pass, one visit for each vertex, is never met.
-/

namespace FormulaAudit.Dependency

namespace Components

open State

variable {α : Type} [BEq α] [Hashable α]

def endVisit (s : State α) (v : α) (r : Nat × State α) : Nat × State α :=
  if r.1 < s.count then r else (s.count, r.2.close v)

/-- The scan of `targets` from a number and a state ends, with visits as deep as they need to be. -/
inductive Scans (edges : α → List α) : List α → Nat → State α → Nat × State α → Prop
  | nil {low s} : Scans edges [] low s (low, s)
  | active {t ts low n s r} : s.Active t n → Scans edges ts (min low n) s r →
      Scans edges (t :: ts) low s r
  | settled {t ts low s r} : s.Settled t → Scans edges ts low s r → Scans edges (t :: ts) low s r
  | visit {t ts low s r r'} : ¬ s.Marked t → Scans edges (edges t) s.count (s.enter t) r' →
      Scans edges ts (min low (endVisit s t r').1) (endVisit s t r').2 r →
      Scans edges (t :: ts) low s r

lemma visit_succ (edges : α → List α) (depth : Nat) (v : α) (s : State α) :
    visit edges (depth + 1) v s =
      endVisit s v (scan (visit edges depth) (edges v) s.count (s.enter v)) :=
  rfl

variable {vertices : List α} {edges : α → List α} {path : List α} {s : State α} {low : Nat}

lemma scans_scan {visit : α → State α → Nat × State α}
    (hvisit : ∀ v s, Invariant vertices edges path s → ¬ s.Marked v → v ∈ vertices →
      (∀ u ∈ path, Reaches edges u v) → Visited vertices edges path v s (visit v s))
    (hends : ∀ v s, Invariant vertices edges path s → ¬ s.Marked v → v ∈ vertices →
      (∀ u ∈ path, Reaches edges u v) →
      ∃ r, Scans edges (edges v) s.count (s.enter v) r ∧ visit v s = endVisit s v r)
    (targets : List α) (h : Invariant vertices edges path s)
    (hmem : ∀ t ∈ targets, t ∈ vertices) (hpath : ∀ t ∈ targets, ∀ u ∈ path, Reaches edges u t) :
    Scans edges targets low s (scan visit targets low s) := by
  induction targets generalizing low s with
  | nil => exact .nil
  | cons t ts ih =>
    have hmem' : ∀ t ∈ ts, t ∈ vertices := fun t ht => hmem t (by simp [ht])
    have hpath' : ∀ t ∈ ts, ∀ u ∈ path, Reaches edges u t := fun t ht => hpath t (by simp [ht])
    rw [scan]
    split
    case h_1 n hn => exact .active hn (ih h hmem' hpath')
    case h_2 hset => exact .settled hset (ih h hmem' hpath')
    case h_3 hnone =>
      have ht : ¬ s.Marked t := by simp [Marked, hnone]
      have hv := hvisit t s h ht (hmem t (by simp)) (hpath t (by simp))
      obtain ⟨r, hr, hend⟩ := hends t s h ht (hmem t (by simp)) (hpath t (by simp))
      apply Scans.visit ht hr
      rw [← hend]
      exact ih hv.invariant hmem' hpath'

variable [LawfulBEq α] [LawfulHashable α]

lemma scans_visit (hclosed : ∀ v ∈ vertices, ∀ w ∈ edges v, w ∈ vertices) (depth : Nat) (v : α)
    (s : State α) (h : Invariant vertices edges path s) (hdepth : vertices.length ≤ path.length + depth)
    (hv : ¬ s.Marked v) (hmem : v ∈ vertices) (hpath : ∀ u ∈ path, Reaches edges u v) :
    ∃ r, Scans edges (edges v) s.count (s.enter v) r ∧ visit edges depth v s = endVisit s v r := by
  induction depth generalizing path v s with
  | zero =>
    -- the path would hold every vertex, but `v` has not been reached
    have := h.path_length_lt hv hmem
    omega
  | succ depth ih =>
    refine ⟨_, ?_, visit_succ edges depth v s⟩
    have hlength : vertices.length ≤ (v :: path).length + depth := by
      rw [List.length_cons]
      omega
    refine scans_scan ?_ ?_ (edges v) (h.enter hv hmem hpath) (hclosed v hmem) ?_
    · exact fun w s' hs' => visit_spec hclosed depth w s' hs' hlength
    · exact fun w s' hs' => ih w s' hs' hlength
    · intro w hw u hu
      rcases List.mem_cons.mp hu with rfl | hu
      · exact .single hw
      · exact (hpath u hu).trans (.single hw)

lemma scans_foldl_visitAll (hclosed : ∀ v ∈ vertices, ∀ w ∈ edges v, w ∈ vertices) (vs : List α)
    (h : Invariant vertices edges [] s) (hmem : ∀ v ∈ vs, v ∈ vertices) (low : Nat) :
    ∃ low', Scans edges vs low s (low', vs.foldl (visitAll edges vertices.length) s) := by
  induction vs generalizing low s with
  | nil => exact ⟨low, .nil⟩
  | cons v vs ih =>
    have hi := (visitAll_spec hclosed h (hmem v (by simp))).1
    have hnext := fun low => ih hi (fun w hw => hmem w (by simp [hw])) low
    rw [List.foldl_cons]
    by_cases hv : s.Marked v
    · have hskip : visitAll edges vertices.length s v = s := by
        rw [visitAll, if_pos]
        simpa [Marked] using hv
      rw [hskip] at hnext ⊢
      rcases marked_iff.mp hv with hset | ⟨n, hn⟩
      · exact (hnext low).imp fun _ => .settled hset
      · exact (hnext (min low n)).imp fun _ => .active hn
    · obtain ⟨r, hr, hend⟩ := scans_visit hclosed vertices.length v s h (by simp) hv
        (hmem v (by simp)) (by simp)
      have hvisit : visitAll edges vertices.length s v = (endVisit s v r).2 := by
        rw [visitAll, if_neg, hend]
        simpa [Marked] using hv
      rw [hvisit] at hnext ⊢
      exact (hnext (min low (endVisit s v r).1)).imp fun _ => .visit hv hr

end Components

structure AdjacencyLists where
  lists : List (List Nat)
  lt_length : ∀ ws ∈ lists, ∀ w ∈ ws, w < lists.length

namespace AdjacencyLists

def vertices (A : AdjacencyLists) : List Nat :=
  List.range A.lists.length

def targets (A : AdjacencyLists) (v : Nat) : List Nat :=
  A.lists.getD v []

lemma targets_subset (A : AdjacencyLists) :
    ∀ v ∈ A.vertices, ∀ w ∈ A.targets v, w ∈ A.vertices := by
  intro v hv w hw
  rw [vertices, List.mem_range] at hv ⊢
  rw [targets, List.getD_eq_getElem?_getD, List.getElem?_eq_getElem hv] at hw
  exact A.lt_length _ (List.getElem_mem hv) w hw

theorem components_partition (A : AdjacencyLists) :
    let Cs := components A.vertices A.targets
    (∃ low s, Components.Scans A.targets A.vertices 0 {} (low, s) ∧ Cs = s.components.reverse) ∧
    Cs.flatten.Perm (List.range A.lists.length) ∧
    (∀ C ∈ Cs, C ≠ []) ∧
    (∀ v < A.lists.length, ∀ w,
      (∃ C ∈ Cs, v ∈ C ∧ w ∈ C) ↔ Reaches A.targets v w ∧ Reaches A.targets w v) ∧
    ∀ (i j : Nat) C D, Cs[i]? = some C → Cs[j]? = some D → i ≠ j →
      (∃ v ∈ C, ∃ w ∈ D, Reaches A.targets v w) → j < i := by
  intro Cs
  have hspec : IsDecomposition A.vertices A.targets Cs := components_spec A.targets_subset
  refine ⟨?_, ?_, ?_, ?_, ?_⟩
  · obtain ⟨low, hscans⟩ := Components.scans_foldl_visitAll A.targets_subset A.vertices
      (.empty _ _) (fun _ hv => hv) 0
    exact ⟨low, _, hscans, rfl⟩
  · exact (List.perm_ext_iff_of_nodup hspec.nodup List.nodup_range).mpr hspec.mem_iff
  · exact fun C hC => (hspec.isComponent C hC).ne_nil
  · intro v hv w
    constructor
    · rintro ⟨C, hC, hvC, hwC⟩
      exact ((hspec.isComponent C hC).mem_iff v hvC w).mp hwC
    · intro hreach
      obtain ⟨C, hC, hvC⟩ := List.mem_flatten.mp ((hspec.mem_iff v).mpr (List.mem_range.mpr hv))
      exact ⟨C, hC, hvC, ((hspec.isComponent C hC).mem_iff v hvC w).mpr hreach⟩
  · rintro i j C D hi hj hne ⟨v, hv, w, hw, hreach⟩
    obtain ⟨hi', rfl⟩ := List.getElem?_eq_some_iff.mp hi
    obtain ⟨hj', rfl⟩ := List.getElem?_eq_some_iff.mp hj
    by_contra hle
    exact List.pairwise_iff_getElem.mp hspec.ordered i j hi' hj' (by omega) v hv w hw hreach

theorem components_partition_triangle :
    let A : AdjacencyLists := ⟨[[1, 1], [2], [0], [3, 0]], by decide⟩
    let Cs := components A.vertices A.targets
    Cs.flatten.Perm [0, 1, 2, 3] ∧ (∃ C ∈ Cs, 0 ∈ C ∧ 2 ∈ C) ∧ (¬ ∃ C ∈ Cs, 0 ∈ C ∧ 3 ∈ C) ∧
      ∃ i j : Nat, ∃ C D, Cs[i]? = some C ∧ Cs[j]? = some D ∧ 3 ∈ C ∧ 0 ∈ D ∧ j < i := by
  intro A Cs
  obtain ⟨-, hperm, -, hsame, hafter⟩ := components_partition A
  have htriangle : ∃ C ∈ Cs, 0 ∈ C ∧ 2 ∈ C := by
    apply (hsame 0 (by decide) 2).mpr
    exact ⟨.head (v := 1) (by decide) (.single (by decide)), .single (by decide)⟩
  have hapart : ¬ ∃ C ∈ Cs, 0 ∈ C ∧ 3 ∈ C := by
    intro hthree
    -- nothing leads out of the triangle
    have hclosed : ∀ v, v < 3 → ∀ w ∈ A.targets v, w < 3 := by decide
    have hlt : 3 < 3 :=
      Reaches.closed (P := (· < 3)) hclosed (by decide) ((hsame 0 (by decide) 3).mp hthree).1
    omega
  have hplace : ∀ v < 4, ∃ i : Nat, ∃ C, Cs[i]? = some C ∧ v ∈ C := by
    intro v hv
    obtain ⟨C, hC, hvC⟩ := List.mem_flatten.mp (hperm.mem_iff.mpr (List.mem_range.mpr hv))
    obtain ⟨i, hi⟩ := List.mem_iff_getElem?.mp hC
    exact ⟨i, C, hi, hvC⟩
  obtain ⟨i, C, hi, h3⟩ := hplace 3 (by decide)
  obtain ⟨j, D, hj, h0⟩ := hplace 0 (by decide)
  have hne : i ≠ j := by
    rintro rfl
    obtain rfl := Option.some.inj (hi.symm.trans hj)
    exact hapart ⟨C, List.mem_of_getElem? hi, h0, h3⟩
  refine ⟨hperm, htriangle, hapart, i, j, C, D, hi, hj, h3, h0, ?_⟩
  exact hafter i j C D hi hj hne ⟨3, h3, 0, h0, .single (by decide)⟩

end AdjacencyLists

end FormulaAudit.Dependency
