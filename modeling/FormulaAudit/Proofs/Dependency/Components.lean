import FormulaAudit.Proofs.Dependency.Invariant

/-!
The depth-first pass finds the strongly connected components: every vertex in exactly one, two
vertices in the same one if and only if they reach each other, and each component after all others
that it reaches.
-/

namespace FormulaAudit.Dependency

namespace Components

open State

variable {α : Type} [BEq α] [Hashable α]

structure Extends (s s' : State α) : Prop where
  count_le : s.count ≤ s'.count
  active : ∀ v n, s.Active v n → s'.Active v n
  settled : ∀ v, s.Settled v → s'.Settled v
  old_or_new : ∀ v n, s'.Active v n → s.Active v n ∨ ¬ s.Marked v ∧ s.count ≤ n

namespace Extends

variable {s s' s'' : State α} {v : α}

lemma refl (s : State α) : Extends s s :=
  ⟨Nat.le_refl _, fun _ _ h => h, fun _ h => h, fun _ _ h => Or.inl h⟩

lemma marked (h : Extends s s') (hv : s.Marked v) : s'.Marked v := by
  rcases marked_iff.mp hv with hset | ⟨n, hn⟩
  · exact (h.settled v hset).marked
  · exact (h.active v n hn).marked

lemma trans (h : Extends s s') (h' : Extends s' s'') : Extends s s'' where
  count_le := Nat.le_trans h.count_le h'.count_le
  active v n hn := h'.active v n (h.active v n hn)
  settled v hv := h'.settled v (h.settled v hv)
  old_or_new v n hn := by
    rcases h'.old_or_new v n hn with hn | ⟨hv, hc⟩
    · exact h.old_or_new v n hn
    · exact Or.inr ⟨fun hm => hv (h.marked hm), Nat.le_trans h.count_le hc⟩

lemma active_of_lt {n : Nat} (h : Extends s s') (hn : s'.Active v n) (hlt : n < s.count) :
    s.Active v n := by
  rcases h.old_or_new v n hn with hn | ⟨-, hc⟩
  · exact hn
  · exact absurd hlt (Nat.not_lt.mpr hc)

variable [LawfulBEq α] [LawfulHashable α]

lemma enter (s : State α) (hv : ¬ s.Marked v) : Extends s (s.enter v) where
  count_le := Nat.le_succ _
  active w n hn := (active_enter hv).mpr (Or.inr hn)
  settled w hw := (settled_enter hv).mpr hw
  old_or_new w n hn := by
    rcases (active_enter hv).mp hn with ⟨rfl, rfl⟩ | hn
    · exact Or.inr ⟨hv, Nat.le_refl _⟩
    · exact Or.inl hn

end Extends

/-- The state after a visit under the invariant. No edge from a vertex entered since leads to an
open vertex with a number below `low`. -/
structure Outcome (vertices : List α) (edges : α → List α) (path : List α) (s : State α) (low : Nat)
    (s' : State α) : Prop where
  invariant : Invariant vertices edges path s'
  extends_state : Extends s s'
  low_le : ∀ x n, ¬ s.Marked x → s'.Active x n → ∀ w ∈ edges x, ∀ m, s'.Active w m → low ≤ m

/-- The least number `low` that a visit of `v` gives is that of a vertex it reaches, or new. -/
structure Visited (vertices : List α) (edges : α → List α) (path : List α) (v : α) (s : State α)
    (r : Nat × State α) : Prop extends Outcome vertices edges path s r.1 r.2 where
  marked : r.2.Marked v
  le_count : r.1 ≤ s.count
  reached : r.1 < s.count → ∃ w, s.Active w r.1 ∧ Reaches edges v w

structure Scanned (vertices : List α) (edges : α → List α) (path targets : List α) (low : Nat)
    (s : State α) (r : Nat × State α) : Prop extends Outcome vertices edges path s r.1 r.2 where
  marked : ∀ t ∈ targets, r.2.Marked t
  le_low : r.1 ≤ low
  le_targets : ∀ t ∈ targets, ∀ n, r.2.Active t n → r.1 ≤ n
  reached : r.1 < low → ∃ t ∈ targets, ∃ w, r.2.Active w r.1 ∧ Reaches edges t w

variable {vertices : List α} {edges : α → List α} {path : List α} {s s' : State α} {low number : Nat}

lemma Outcome.trans {s'' : State α} (h : Outcome vertices edges path s number s')
    (h' : Outcome vertices edges path s' low s'') (hnumber : low ≤ number) (hcount : low ≤ s.count) :
    Outcome vertices edges path s low s'' where
  invariant := h'.invariant
  extends_state := h.extends_state.trans h'.extends_state
  low_le x n hx hn w hw m hm := by
    rcases h'.extends_state.old_or_new x n hn with hn' | ⟨hx', -⟩
    · rcases h'.extends_state.old_or_new w m hm with hm' | ⟨-, hc⟩
      · exact Nat.le_trans hnumber (h.low_le x n hx hn' w hw m hm')
      · exact Nat.le_trans hcount (Nat.le_trans h.extends_state.count_le hc)
    · exact h'.low_le x n hx' hn w hw m hm

namespace Scanned

variable {t : α} {ts : List α} {n : Nat} {r : Nat × State α}

lemma nil (h : Invariant vertices edges path s) : Scanned vertices edges path [] low s (low, s) where
  invariant := h
  extends_state := .refl s
  low_le x n hx hn := absurd hn.marked hx
  marked := by simp
  le_low := Nat.le_refl _
  le_targets := by simp
  reached hlt := absurd hlt (Nat.lt_irrefl _)

lemma cons_active (ht : s.Active t n) (h : Scanned vertices edges path ts (min low n) s r) :
    Scanned vertices edges path (t :: ts) low s r where
  toOutcome := h.toOutcome
  marked u hu := by
    rcases List.mem_cons.mp hu with rfl | hu
    · exact (h.extends_state.active u n ht).marked
    · exact h.marked u hu
  le_low := Nat.le_trans h.le_low (Nat.min_le_left _ _)
  le_targets u hu m hm := by
    rcases List.mem_cons.mp hu with rfl | hu
    · have hn := (h.extends_state.active u n ht).unique hm
      exact hn ▸ Nat.le_trans h.le_low (Nat.min_le_right _ _)
    · exact h.le_targets u hu m hm
  reached hlt := by
    by_cases hlt' : r.1 < min low n
    · obtain ⟨u, hu, w, hw, hr⟩ := h.reached hlt'
      exact ⟨u, by simp [hu], w, hw, hr⟩
    · have hn : r.1 = n := by have := h.le_low; omega
      exact ⟨t, by simp, t, hn ▸ h.extends_state.active t n ht, .refl t⟩

lemma cons_settled (ht : s.Settled t) (h : Scanned vertices edges path ts low s r) :
    Scanned vertices edges path (t :: ts) low s r where
  toOutcome := h.toOutcome
  marked u hu := by
    rcases List.mem_cons.mp hu with rfl | hu
    · exact (h.extends_state.settled u ht).marked
    · exact h.marked u hu
  le_low := h.le_low
  le_targets u hu m hm := by
    rcases List.mem_cons.mp hu with rfl | hu
    · exact absurd (h.extends_state.settled u ht) hm.not_settled
    · exact h.le_targets u hu m hm
  reached hlt := by
    obtain ⟨u, hu, w, hw, hr⟩ := h.reached hlt
    exact ⟨u, by simp [hu], w, hw, hr⟩

lemma cons_visited {r' : Nat × State α} (hlow : low ≤ s.count) (ht : ¬ s.Marked t)
    (hv : Visited vertices edges path t s r')
    (h : Scanned vertices edges path ts (min low r'.1) r'.2 r) :
    Scanned vertices edges path (t :: ts) low s r where
  toOutcome := by
    have hle := h.le_low
    exact hv.toOutcome.trans h.toOutcome (by omega) (by omega)
  marked u hu := by
    rcases List.mem_cons.mp hu with rfl | hu
    · exact h.extends_state.marked hv.marked
    · exact h.marked u hu
  le_low := Nat.le_trans h.le_low (Nat.min_le_left _ _)
  le_targets u hu m hm := by
    rcases List.mem_cons.mp hu with rfl | hu
    · -- the number of a vertex entered by the scan is new
      rcases (hv.extends_state.trans h.extends_state).old_or_new u m hm with hm | ⟨-, hc⟩
      · exact absurd hm.marked ht
      · have := h.le_low
        omega
    · exact h.le_targets u hu m hm
  reached hlt := by
    by_cases hlt' : r.1 < min low r'.1
    · obtain ⟨u, hu, w, hw, hr⟩ := h.reached hlt'
      exact ⟨u, by simp [hu], w, hw, hr⟩
    · have heq : r.1 = r'.1 := by have := h.le_low; omega
      obtain ⟨w, hw, hr⟩ := hv.reached (by omega)
      exact ⟨t, by simp, w,
        heq ▸ h.extends_state.active w _ (hv.extends_state.active w _ hw), hr⟩

end Scanned

lemma scan_spec {visit : α → State α → Nat × State α}
    (hvisit : ∀ v s, Invariant vertices edges path s → ¬ s.Marked v → v ∈ vertices →
      (∀ u ∈ path, Reaches edges u v) → Visited vertices edges path v s (visit v s))
    (targets : List α) (h : Invariant vertices edges path s) (hlow : low ≤ s.count)
    (hmem : ∀ t ∈ targets, t ∈ vertices) (hpath : ∀ t ∈ targets, ∀ u ∈ path, Reaches edges u t) :
    Scanned vertices edges path targets low s (scan visit targets low s) := by
  induction targets generalizing low s with
  | nil => exact .nil h
  | cons t ts ih =>
    have hmem' : ∀ t ∈ ts, t ∈ vertices := fun t ht => hmem t (by simp [ht])
    have hpath' : ∀ t ∈ ts, ∀ u ∈ path, Reaches edges u t := fun t ht => hpath t (by simp [ht])
    rw [scan]
    split
    case h_1 n hn => exact .cons_active hn (ih h (by omega) hmem' hpath')
    case h_2 hset => exact .cons_settled hset (ih h hlow hmem' hpath')
    case h_3 hnone =>
      have ht : ¬ s.Marked t := by simp [Marked, hnone]
      have hv := hvisit t s h ht (hmem t (by simp)) (hpath t (by simp))
      have hcount := hv.extends_state.count_le
      exact .cons_visited hlow ht hv (ih hv.invariant (by omega) hmem' hpath')

variable [LawfulBEq α] [LawfulHashable α]

namespace Visited

variable {v : α} {r : Nat × State α}

lemma active_self (hv : ¬ s.Marked v)
    (h : Scanned vertices edges (v :: path) (edges v) s.count (s.enter v) r) : r.2.Active v s.count :=
  h.extends_state.active v _ ((active_enter hv).mpr (Or.inl ⟨rfl, rfl⟩))

lemma of_lt (hv : ¬ s.Marked v)
    (h : Scanned vertices edges (v :: path) (edges v) s.count (s.enter v) r) (hlt : r.1 < s.count) :
    Visited vertices edges path v s r := by
  obtain ⟨t, ht, w, hw, hr⟩ := h.reached hlt
  have hvw : Reaches edges v w := .head ht hr
  have hself := active_self hv h
  have hext := (Extends.enter s hv).trans h.extends_state
  constructor
  case marked => exact hself.marked
  case le_count => exact Nat.le_of_lt hlt
  case reached => exact fun _ => ⟨w, hext.active_of_lt hw hlt, hvw⟩
  refine ⟨h.invariant.leave hself h.marked hw hlt hvw, hext, ?_⟩
  intro x n hx hn y hy m hm
  by_cases hxv : x = v
  · exact h.le_targets y (hxv ▸ hy) m hm
  · have hx' : ¬ (s.enter v).Marked x := by simp [marked_enter hv, hxv, hx]
    exact h.low_le x n hx' hn y hy m hm

lemma of_not_lt (h : Invariant vertices edges path s) (hv : ¬ s.Marked v)
    (hsc : Scanned vertices edges (v :: path) (edges v) s.count (s.enter v) r)
    (hlt : ¬ r.1 < s.count) : Visited vertices edges path v s (s.count, r.2.close v) := by
  have hself := active_self hv hsc
  have hext := (Extends.enter s hv).trans hsc.extends_state
  obtain ⟨upper, lower, hs, hu⟩ := hsc.invariant.exists_split hself
  have hpath : ∀ u ∈ path, ∃ m < s.count, r.2.Active u m := by
    intro u hu
    obtain ⟨m, hm⟩ := h.path_active u hu
    exact ⟨m, h.lt_count u m hm, hext.active u m hm⟩
  have hlow : ∀ x n, r.2.Active x n → s.count ≤ n → ∀ w ∈ edges x, ∀ m, r.2.Active w m →
      s.count ≤ m := by
    intro x n hn hle w hw m hm
    refine Nat.le_trans (Nat.not_lt.mp hlt) ?_
    by_cases hxv : x = v
    · exact hsc.le_targets w (hxv ▸ hw) m hm
    · refine hsc.low_le x n ?_ hn w hw m hm
      rw [marked_enter hv]
      rintro (hx | hx)
      · exact hxv hx
      · rcases hext.old_or_new x n hn with hn' | ⟨hx', -⟩
        · exact absurd (h.lt_count x n hn') (Nat.not_lt.mpr hle)
        · exact hx' hx
  -- the vertices that stay open are those that were open before
  have hold : ∀ x n, (r.2.close v).Active x n → s.Active x n := by
    intro x n hn
    obtain ⟨hx, hn⟩ := (active_close hs hu).mp hn
    rw [hsc.invariant.mem_upper_iff hs hself hn, Nat.not_le] at hx
    exact hext.active_of_lt hn hx
  constructor
  case marked => exact ((settled_close hs hu).mpr (Or.inl (by simp))).marked
  case le_count => exact Nat.le_refl _
  case reached => exact fun hlt => absurd hlt (Nat.lt_irrefl _)
  refine ⟨hsc.invariant.close hself hs hpath hsc.marked hlow hu, ?_, ?_⟩
  · refine ⟨hext.count_le, ?_, ?_, fun x n hn => Or.inl (hold x n hn)⟩
    · intro x n hn
      refine (active_close hs hu).mpr ⟨?_, hext.active x n hn⟩
      rw [hsc.invariant.mem_upper_iff hs hself (hext.active x n hn), Nat.not_le]
      exact h.lt_count x n hn
    · exact fun x hx => (settled_close hs hu).mpr (Or.inr (hext.settled x hx))
  · exact fun x n hx hn => absurd (hold x n hn).marked hx

end Visited

lemma visit_spec (hclosed : ∀ v ∈ vertices, ∀ w ∈ edges v, w ∈ vertices) (depth : Nat) (v : α)
    (s : State α) (h : Invariant vertices edges path s) (hdepth : vertices.length ≤ path.length + depth)
    (hv : ¬ s.Marked v) (hmem : v ∈ vertices) (hpath : ∀ u ∈ path, Reaches edges u v) :
    Visited vertices edges path v s (visit edges depth v s) := by
  induction depth generalizing path v s with
  | zero =>
    -- a path that holds all vertices leaves none to visit
    have := h.path_length_lt hv hmem
    omega
  | succ depth ih =>
    have hsc : Scanned vertices edges (v :: path) (edges v) s.count (s.enter v)
        (scan (visit edges depth) (edges v) s.count (s.enter v)) := by
      refine scan_spec ?_ (edges v) (h.enter hv hmem hpath) (Nat.le_succ _) (hclosed v hmem) ?_
      · intro w s' hs' hw hmem' hpath'
        exact ih w s' hs' (by simp; omega) hw hmem' hpath'
      · intro w hw u hu
        rcases List.mem_cons.mp hu with rfl | hu
        · exact .single hw
        · exact (hpath u hu).trans (.single hw)
    simp only [visit]
    split
    · rename_i hlt
      -- an older vertex is reached, so the component stays open
      exact .of_lt hv hsc hlt
    · rename_i hlt
      exact .of_not_lt h hv hsc hlt

lemma visitAll_spec (hclosed : ∀ v ∈ vertices, ∀ w ∈ edges v, w ∈ vertices) {v : α}
    (h : Invariant vertices edges [] s) (hmem : v ∈ vertices) :
    Invariant vertices edges [] (visitAll edges vertices.length s v) ∧
      Extends s (visitAll edges vertices.length s v) ∧ (visitAll edges vertices.length s v).Marked v := by
  rw [visitAll]
  split
  · rename_i hm
    refine ⟨h, .refl s, ?_⟩
    simpa [Marked] using hm
  · rename_i hm
    have hv : ¬ s.Marked v := by simpa [Marked] using hm
    have hvisit := visit_spec hclosed vertices.length v s h (by simp) hv hmem (by simp)
    exact ⟨hvisit.invariant, hvisit.extends_state, hvisit.marked⟩

lemma foldl_visitAll_spec (hclosed : ∀ v ∈ vertices, ∀ w ∈ edges v, w ∈ vertices) (vs : List α)
    (h : Invariant vertices edges [] s) (hmem : ∀ v ∈ vs, v ∈ vertices) :
    Invariant vertices edges [] (vs.foldl (visitAll edges vertices.length) s) ∧
      Extends s (vs.foldl (visitAll edges vertices.length) s) ∧
      ∀ v ∈ vs, (vs.foldl (visitAll edges vertices.length) s).Marked v := by
  induction vs generalizing s with
  | nil => exact ⟨h, .refl s, by simp⟩
  | cons v vs ih =>
    obtain ⟨hi, he, hm⟩ := visitAll_spec hclosed h (hmem v (by simp))
    obtain ⟨hi', he', hm'⟩ := ih hi (fun w hw => hmem w (by simp [hw]))
    refine ⟨hi', he.trans he', ?_⟩
    intro w hw
    rcases List.mem_cons.mp hw with rfl | hw
    · exact he'.marked hm
    · exact hm' w hw

end Components

structure IsDecomposition {α : Type} (vertices : List α) (edges : α → List α) (Cs : List (List α)) :
    Prop where
  mem_iff : ∀ v, v ∈ Cs.flatten ↔ v ∈ vertices
  nodup : Cs.flatten.Nodup
  isComponent : ∀ C ∈ Cs, IsComponent edges C
  ordered : Cs.Pairwise fun C D => ∀ v ∈ C, ∀ w ∈ D, ¬ Reaches edges v w

lemma components_spec {α : Type} [BEq α] [Hashable α] [LawfulBEq α] [LawfulHashable α]
    {vertices : List α} {edges : α → List α}
    (hclosed : ∀ v ∈ vertices, ∀ w ∈ edges v, w ∈ vertices) :
    IsDecomposition vertices edges (components vertices edges) := by
  obtain ⟨hi, -, hm⟩ := Components.foldl_visitAll_spec hclosed vertices (.empty vertices edges)
    (fun _ hv => hv)
  rw [components]
  generalize vertices.foldl (Components.visitAll edges vertices.length) {} = s at hi hm
  have hset : ∀ v, s.Settled v ↔ v ∈ vertices := by
    intro v
    constructor
    · exact fun hv => hi.known v hv.marked
    · intro hv
      refine (Components.State.marked_iff.mp (hm v hv)).resolve_right ?_
      -- an open vertex would have to reach one whose visit has not ended
      rintro ⟨n, hn⟩
      obtain ⟨u, hu, -⟩ := hi.reaches_path v n hn
      simp at hu
  constructor
  case mem_iff =>
    intro v
    rw [← hset v, hi.settled_iff]
    simp
  case nodup => exact ((List.reverse_perm s.components).flatten).nodup_iff.mpr hi.nodup
  case isComponent => exact fun C hC => hi.isComponent C (List.mem_reverse.mp hC)
  case ordered => exact List.pairwise_reverse.mpr (hi.ordered.imp fun h w hw v hv => h v hv w hw)

end FormulaAudit.Dependency
