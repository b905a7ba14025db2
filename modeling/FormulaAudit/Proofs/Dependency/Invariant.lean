import FormulaAudit.Proofs.Dependency.Marks
import FormulaAudit.Proofs.Dependency.Reachability
import Mathlib.Data.List.Nodup
import Mathlib.Data.List.Perm.Subperm

/-! What holds in the depth-first pass between two visits. -/

namespace FormulaAudit.Dependency

structure IsComponent {α : Type} (edges : α → List α) (C : List α) : Prop where
  ne_nil : C ≠ []
  mem_iff : ∀ v ∈ C, ∀ w, w ∈ C ↔ Reaches edges v w ∧ Reaches edges w v

namespace Components

variable {α : Type} [BEq α] [Hashable α]

open State

structure Numbered (s : State α) : Prop where
  mem_stack : ∀ v, v ∈ s.stack ↔ ∃ n, s.Active v n
  lt_count : ∀ v n, s.Active v n → n < s.count
  descending : s.stack.Pairwise fun v w => ∀ m n, s.Active v m → s.Active w n → n < m

namespace Numbered

variable {s : State α} {v w : α} {m n : Nat} {upper lower : List α}

lemma stack_nodup (h : Numbered s) : s.stack.Nodup := by
  refine List.Pairwise.imp_of_mem ?_ h.descending
  rintro v w hv - hlt rfl
  obtain ⟨n, hn⟩ := (h.mem_stack v).mp hv
  exact Nat.lt_irrefl n (hlt n n hn hn)

lemma exists_split (h : Numbered s) (hv : s.Active v n) :
    ∃ upper lower, s.stack = upper ++ v :: lower ∧ v ∉ upper := by
  obtain ⟨upper, lower, hs⟩ := List.append_of_mem ((h.mem_stack v).mpr ⟨n, hv⟩)
  have hnd := h.stack_nodup
  rw [hs, List.nodup_middle, List.nodup_cons] at hnd
  exact ⟨upper, lower, hs, fun hu => hnd.1 (List.mem_append_left _ hu)⟩

lemma mem_upper_iff (h : Numbered s) (hs : s.stack = upper ++ v :: lower) (hv : s.Active v m)
    (hw : s.Active w n) : w ∈ upper ++ [v] ↔ m ≤ n := by
  have hmem : w ∈ upper ++ v :: lower := hs ▸ (h.mem_stack w).mpr ⟨n, hw⟩
  have hd := h.descending
  rw [hs, List.pairwise_append] at hd
  obtain ⟨-, hd, hcross⟩ := hd
  constructor
  · intro hu
    rcases List.mem_append.mp hu with hu | hu
    · exact Nat.le_of_lt (hcross w hu v (by simp) n m hw hv)
    · obtain rfl := List.mem_singleton.mp hu
      exact Nat.le_of_eq (hv.unique hw)
  · intro hmn
    by_contra hu
    have hl : w ∈ lower := by
      simp only [List.mem_append, List.mem_cons, List.not_mem_nil, or_false, not_or] at hmem hu
      exact (hmem.resolve_left hu.1).resolve_left hu.2
    exact Nat.not_lt.mpr hmn ((List.pairwise_cons.mp hd).1 w hl m n hv hw)

variable [LawfulBEq α] [LawfulHashable α]

lemma enter (h : Numbered s) (hv : ¬ s.Marked v) : Numbered (s.enter v) where
  mem_stack w := by
    simp only [active_enter hv, exists_or, exists_and_left, ← h.mem_stack]
    simp [State.enter]
  lt_count w n hn := by
    rcases (active_enter hv).mp hn with ⟨-, rfl⟩ | hn
    · exact Nat.lt_succ_self _
    · exact Nat.lt_succ_of_lt (h.lt_count w n hn)
  descending := by
    have hne : ∀ w ∈ s.stack, w ≠ v := by
      rintro w hw rfl
      obtain ⟨n, hn⟩ := (h.mem_stack w).mp hw
      exact hv hn.marked
    refine List.pairwise_cons.mpr ⟨?_, ?_⟩
    · intro w hw m n hm hn
      rcases (active_enter hv).mp hm with ⟨-, rfl⟩ | hm
      · exact h.lt_count w n (((active_enter hv).mp hn).resolve_left (fun hc => hne w hw hc.1))
      · exact absurd hm.marked hv
    · refine List.Pairwise.imp_of_mem ?_ h.descending
      intro u w hu hw hlt m n hm hn
      exact hlt m n (((active_enter hv).mp hm).resolve_left (fun hc => hne u hu hc.1))
        (((active_enter hv).mp hn).resolve_left (fun hc => hne w hw hc.1))

lemma close (h : Numbered s) (hs : s.stack = upper ++ v :: lower) (hv : v ∉ upper) :
    Numbered (s.close v) where
  mem_stack w := by
    have hnd := h.stack_nodup
    rw [hs, List.append_cons] at hnd
    have hdisj := (List.nodup_append.mp hnd).2.2
    simp only [active_close hs hv, stack_close hs hv, exists_and_left, ← h.mem_stack, hs]
    constructor
    · intro hw
      exact ⟨fun hu => hdisj w hu w hw rfl, by simp [hw]⟩
    · rintro ⟨hu, hw⟩
      rw [List.append_cons] at hw
      exact (List.mem_append.mp hw).resolve_left hu
  lt_count w n hn := h.lt_count w n ((active_close hs hv).mp hn).2
  descending := by
    rw [stack_close hs hv]
    have hsub : List.Sublist lower s.stack := by
      rw [hs, List.append_cons]
      exact List.sublist_append_right _ _
    refine (h.descending.sublist hsub).imp ?_
    intro u w hlt m n hm hn
    exact hlt m n ((active_close hs hv).mp hm).2 ((active_close hs hv).mp hn).2

end Numbered

structure Completed (edges : α → List α) (s : State α) : Prop where
  settled_iff : ∀ v, s.Settled v ↔ v ∈ s.components.flatten
  closed : ∀ v, s.Settled v → ∀ w ∈ edges v, s.Settled w
  isComponent : ∀ C ∈ s.components, IsComponent edges C
  nodup : s.components.flatten.Nodup
  ordered : s.components.Pairwise fun C D => ∀ v ∈ C, ∀ w ∈ D, ¬ Reaches edges w v

namespace Completed

variable {edges : α → List α} {s : State α} {v w : α} {upper lower : List α}

lemma settled_of_reaches (h : Completed edges s) (hv : s.Settled v) (hr : Reaches edges v w) :
    s.Settled w :=
  Reaches.closed h.closed hv hr

variable [LawfulBEq α] [LawfulHashable α]

lemma enter (h : Completed edges s) (hv : ¬ s.Marked v) : Completed edges (s.enter v) where
  settled_iff w := by rw [settled_enter hv, h.settled_iff]; rfl
  closed u hu w hw := (settled_enter hv).mpr (h.closed u ((settled_enter hv).mp hu) w hw)
  isComponent := h.isComponent
  nodup := h.nodup
  ordered := h.ordered

lemma close (h : Completed edges s) (hs : s.stack = upper ++ v :: lower) (hv : v ∉ upper)
    (hnd : (upper ++ [v]).Nodup) (hopen : ∀ u ∈ upper ++ [v], ¬ s.Settled u)
    (hclosed : ∀ u ∈ upper ++ [v], ∀ w ∈ edges u, w ∈ upper ++ [v] ∨ s.Settled w)
    (hC : IsComponent edges (upper ++ [v])) : Completed edges (s.close v) where
  settled_iff w := by
    rw [settled_close hs hv, components_close hs hv, List.flatten_cons, h.settled_iff]
    exact List.mem_append.symm
  closed u hu w hw := by
    rcases (settled_close hs hv).mp hu with hu | hu
    · exact (settled_close hs hv).mpr (hclosed u hu w hw)
    · exact (settled_close hs hv).mpr (Or.inr (h.closed u hu w hw))
  isComponent C := by
    rw [components_close hs hv]
    intro hC'
    rcases List.mem_cons.mp hC' with rfl | hC'
    · exact hC
    · exact h.isComponent C hC'
  nodup := by
    rw [components_close hs hv, List.flatten_cons, List.nodup_append]
    refine ⟨hnd, h.nodup, ?_⟩
    rintro u hu w hw rfl
    exact hopen u hu ((h.settled_iff u).mpr hw)
  ordered := by
    rw [components_close hs hv, List.pairwise_cons]
    refine ⟨?_, h.ordered⟩
    intro D hD u hu w hw hr
    have hset : s.Settled w := (h.settled_iff w).mpr (List.mem_flatten.mpr ⟨D, hD, hw⟩)
    exact hopen u hu (h.settled_of_reaches hset hr)

end Completed

/-- What holds between two visits; `path` holds the vertices whose visits have not ended. -/
structure Invariant (vertices : List α) (edges : α → List α) (path : List α) (s : State α) : Prop
    extends Numbered s, Completed edges s where
  known : ∀ v, s.Marked v → v ∈ vertices
  left_marked : ∀ v n, s.Active v n → v ∉ path → ∀ w ∈ edges v, s.Marked w
  path_nodup : path.Nodup
  path_active : ∀ u ∈ path, ∃ n, s.Active u n
  reaches_path : ∀ v n, s.Active v n → ∃ u ∈ path, ∃ m ≤ n, s.Active u m ∧ Reaches edges v u
  path_reaches : ∀ u ∈ path, ∀ v m n, s.Active u m → s.Active v n → m ≤ n → Reaches edges u v

namespace Invariant

variable {vertices : List α} {edges : α → List α} {path : List α} {s : State α} {v w : α} {k m n : Nat}

lemma not_mem_path (h : Invariant vertices edges path s) (hv : ¬ s.Marked v) : v ∉ path := by
  intro hp
  obtain ⟨n, hn⟩ := h.path_active v hp
  exact hv hn.marked

lemma path_length_lt (h : Invariant vertices edges path s) (hv : ¬ s.Marked v)
    (hmem : v ∈ vertices) : path.length < vertices.length := by
  have hnd : (v :: path).Nodup := List.nodup_cons.mpr ⟨h.not_mem_path hv, h.path_nodup⟩
  refine List.Subperm.length_le (List.subperm_of_subset hnd ?_)
  intro w hw
  rcases List.mem_cons.mp hw with rfl | hw
  · exact hmem
  · obtain ⟨n, hn⟩ := h.path_active w hw
    exact h.known w hn.marked

lemma leave (h : Invariant vertices edges (v :: path) s) (hv : s.Active v k)
    (hmarked : ∀ w ∈ edges v, s.Marked w) (hw : s.Active w m) (hlt : m < k)
    (hr : Reaches edges v w) : Invariant vertices edges path s where
  toNumbered := h.toNumbered
  toCompleted := h.toCompleted
  known := h.known
  left_marked u n hn hu := by
    by_cases huv : u = v
    · exact huv ▸ hmarked
    · exact h.left_marked u n hn (by simp [huv, hu])
  path_nodup := (List.nodup_cons.mp h.path_nodup).2
  path_active u hu := h.path_active u (by simp [hu])
  reaches_path x n hx := by
    obtain ⟨u, hu, i, hi, hui, hxu⟩ := h.reaches_path x n hx
    rcases List.mem_cons.mp hu with rfl | hu
    · -- the way goes on from `v` to `w`, and from there to a vertex of the path other than `v`
      obtain ⟨u', hu', j, hj, huj, hwu⟩ := h.reaches_path w m hw
      obtain rfl := hv.unique hui
      rcases List.mem_cons.mp hu' with rfl | hu'
      · have := hv.unique huj
        omega
      · exact ⟨u', hu', j, by omega, huj, (hxu.trans hr).trans hwu⟩
    · exact ⟨u, hu, i, hi, hui, hxu⟩
  path_reaches u hu := h.path_reaches u (by simp [hu])

section Close

variable {upper lower : List α}
variable (h : Invariant vertices edges (v :: path) s) (hv : s.Active v k)
  (hs : s.stack = upper ++ v :: lower) (hpath : ∀ u ∈ path, ∃ m < k, s.Active u m)
  (hmarked : ∀ w ∈ edges v, s.Marked w)
  (hlow : ∀ x n, s.Active x n → k ≤ n → ∀ w ∈ edges x, ∀ m, s.Active w m → k ≤ m)

include h hv hs in
lemma active_of_mem {x : α} (hx : x ∈ upper ++ [v]) : ∃ n, k ≤ n ∧ s.Active x n := by
  have hmem : x ∈ s.stack := by
    rw [hs, List.append_cons]
    exact List.mem_append_left _ hx
  obtain ⟨n, hn⟩ := (h.mem_stack x).mp hmem
  exact ⟨n, (h.mem_upper_iff hs hv hn).mp hx, hn⟩

include h hv hs hpath in
lemma not_mem_of_mem_path {u : α} (hu : u ∈ path) : u ∉ upper ++ [v] := by
  intro hmem
  obtain ⟨m, hm, hum⟩ := hpath u hu
  have := (h.mem_upper_iff hs hv hum).mp hmem
  omega

include h hv hs hpath hmarked hlow

lemma edges_closed : ∀ x ∈ upper ++ [v], ∀ w ∈ edges x, w ∈ upper ++ [v] ∨ s.Settled w := by
  intro x hx w hw
  obtain ⟨n, hkn, hn⟩ := h.active_of_mem hv hs hx
  have hw' : s.Marked w := by
    by_cases hxv : x = v
    · exact hmarked w (hxv ▸ hw)
    · have hxp : x ∉ path := fun hp => h.not_mem_of_mem_path hv hs hpath hp hx
      exact h.left_marked x n hn (by simp [hxv, hxp]) w hw
  rcases marked_iff.mp hw' with hset | ⟨m, hm⟩
  · exact Or.inr hset
  · exact Or.inl ((h.mem_upper_iff hs hv hm).mpr (hlow x n hn hkn w hw m hm))

lemma mem_or_settled {x w : α} (hx : x ∈ upper ++ [v]) (hr : Reaches edges x w) :
    w ∈ upper ++ [v] ∨ s.Settled w := by
  refine Reaches.closed (P := fun w => w ∈ upper ++ [v] ∨ s.Settled w) ?_ (Or.inl hx) hr
  intro x hx w hw
  rcases hx with hx | hx
  · exact h.edges_closed hv hs hpath hmarked hlow x hx w hw
  · exact Or.inr (h.closed x hx w hw)

lemma isComponent_upper : IsComponent edges (upper ++ [v]) := by
  have hto : ∀ x ∈ upper ++ [v], Reaches edges x v := by
    intro x hx
    obtain ⟨n, -, hn⟩ := h.active_of_mem hv hs hx
    obtain ⟨u, hu, m, -, hum, hr⟩ := h.reaches_path x n hn
    have huC := (h.mem_or_settled hv hs hpath hmarked hlow hx hr).resolve_right hum.not_settled
    rcases List.mem_cons.mp hu with rfl | hu
    · exact hr
    · exact absurd huC (h.not_mem_of_mem_path hv hs hpath hu)
  have hfrom : ∀ x ∈ upper ++ [v], Reaches edges v x := by
    intro x hx
    obtain ⟨n, hkn, hn⟩ := h.active_of_mem hv hs hx
    exact h.path_reaches v (by simp) x k n hv hn hkn
  refine ⟨by simp, fun x hx w => ⟨?_, ?_⟩⟩
  · intro hw
    exact ⟨(hto x hx).trans (hfrom w hw), (hto w hw).trans (hfrom x hx)⟩
  · rintro ⟨hxw, hwx⟩
    refine (h.mem_or_settled hv hs hpath hmarked hlow hx hxw).resolve_right ?_
    intro hset
    obtain ⟨n, -, hn⟩ := h.active_of_mem hv hs hx
    exact hn.not_settled (h.settled_of_reaches hset hwx)

variable [LawfulBEq α] [LawfulHashable α]

lemma close (hu : v ∉ upper) : Invariant vertices edges path (s.close v) where
  toNumbered := h.toNumbered.close hs hu
  toCompleted := by
    refine h.toCompleted.close hs hu ?_ ?_ (h.edges_closed hv hs hpath hmarked hlow)
      (h.isComponent_upper hv hs hpath hmarked hlow)
    · have hnd := h.stack_nodup
      rw [hs, List.append_cons] at hnd
      exact (List.nodup_append.mp hnd).1
    · intro u hu
      obtain ⟨n, -, hn⟩ := h.active_of_mem hv hs hu
      exact hn.not_settled
  known w hw := by
    rcases (marked_close hs hu).mp hw with hw | hw
    · obtain ⟨n, -, hn⟩ := h.active_of_mem hv hs hw
      exact h.known w hn.marked
    · exact h.known w hw
  left_marked x n hn hx w hw := by
    obtain ⟨hxC, hn⟩ := (active_close hs hu).mp hn
    have hxv : x ≠ v := by
      rintro rfl
      exact hxC (by simp)
    exact (marked_close hs hu).mpr (Or.inr (h.left_marked x n hn (by simp [hxv, hx]) w hw))
  path_nodup := (List.nodup_cons.mp h.path_nodup).2
  path_active u hu' := by
    obtain ⟨m, -, hum⟩ := hpath u hu'
    exact ⟨m, (active_close hs hu).mpr ⟨h.not_mem_of_mem_path hv hs hpath hu', hum⟩⟩
  reaches_path x n hn := by
    obtain ⟨hxC, hn⟩ := (active_close hs hu).mp hn
    obtain ⟨w, hw, m, hm, hwm, hr⟩ := h.reaches_path x n hn
    have hwC : w ∉ upper ++ [v] := by
      intro hwC
      have hkm := (h.mem_upper_iff hs hv hwm).mp hwC
      exact hxC ((h.mem_upper_iff hs hv hn).mpr (Nat.le_trans hkm hm))
    have hwp : w ∈ path := by
      rcases List.mem_cons.mp hw with rfl | hw
      · exact absurd (by simp) hwC
      · exact hw
    exact ⟨w, hwp, m, hm, (active_close hs hu).mpr ⟨hwC, hwm⟩, hr⟩
  path_reaches u hu' w m n hm hn hmn :=
    h.path_reaches u (by simp [hu']) w m n ((active_close hs hu).mp hm).2
      ((active_close hs hu).mp hn).2 hmn

end Close

variable [LawfulBEq α] [LawfulHashable α]

lemma empty (vertices : List α) (edges : α → List α) :
    Invariant vertices edges [] ({} : State α) where
  toNumbered := by constructor <;> simp [Active]
  toCompleted := by constructor <;> simp [Settled]
  known := by simp [Marked]
  left_marked := by simp [Active]
  path_nodup := List.nodup_nil
  path_active := by simp
  reaches_path := by simp [Active]
  path_reaches := by simp

lemma enter (h : Invariant vertices edges path s) (hv : ¬ s.Marked v) (hmem : v ∈ vertices)
    (hpath : ∀ u ∈ path, Reaches edges u v) :
    Invariant vertices edges (v :: path) (s.enter v) where
  toNumbered := h.toNumbered.enter hv
  toCompleted := h.toCompleted.enter hv
  known w hw := by
    rcases (marked_enter hv).mp hw with rfl | hw
    · exact hmem
    · exact h.known w hw
  left_marked u n hn hu w hw := by
    simp only [List.mem_cons, not_or] at hu
    have hold := ((active_enter hv).mp hn).resolve_left (fun hc => hu.1 hc.1)
    exact (marked_enter hv).mpr (Or.inr (h.left_marked u n hold hu.2 w hw))
  path_nodup := List.nodup_cons.mpr ⟨h.not_mem_path hv, h.path_nodup⟩
  path_active u hu := by
    rcases List.mem_cons.mp hu with rfl | hu
    · exact ⟨s.count, (active_enter hv).mpr (Or.inl ⟨rfl, rfl⟩)⟩
    · obtain ⟨n, hn⟩ := h.path_active u hu
      exact ⟨n, (active_enter hv).mpr (Or.inr hn)⟩
  reaches_path w n hn := by
    rcases (active_enter hv).mp hn with ⟨rfl, rfl⟩ | hold
    · exact ⟨w, by simp, s.count, Nat.le_refl _, hn, .refl w⟩
    · obtain ⟨u, hu, m, hm, hum, hr⟩ := h.reaches_path w n hold
      exact ⟨u, by simp [hu], m, hm, (active_enter hv).mpr (Or.inr hum), hr⟩
  path_reaches u hu w m n hm hn hmn := by
    rcases (active_enter hv).mp hm with ⟨rfl, rfl⟩ | hm'
    · rcases (active_enter hv).mp hn with ⟨rfl, -⟩ | hn'
      · exact .refl w
      · exact absurd (h.lt_count w n hn') (Nat.not_lt.mpr hmn)
    · have hup : u ∈ path := by
        rcases List.mem_cons.mp hu with rfl | hu
        · exact absurd hm'.marked hv
        · exact hu
      rcases (active_enter hv).mp hn with ⟨rfl, -⟩ | hn'
      · exact hpath u hup
      · exact h.path_reaches u hup w m n hm' hn' hmn

end Invariant

end Components

end FormulaAudit.Dependency
