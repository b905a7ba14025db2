import FormulaAudit.Dependency.PathSearch
import FormulaAudit.Proofs.Dependency.Reachability
import Mathlib.Data.Nat.Find

/-!
The search by paths answers right whenever it answers: it finds a way back to its start if and only
if there is one.
-/

namespace FormulaAudit.Dependency.PathSearch

variable {α : Type} [BEq α]

def fresh (edges : α → List α) (path targets : List α) : List α :=
  targets.filter fun v => !(path.contains v || (edges v).isEmpty)

def branches (edges : α → List α) (path targets : List α) : List (α × List α) :=
  ((fresh edges path targets).map fun v => (v, v :: path)).reverse

lemma mem_branches {edges : α → List α} {path targets : List α} {p : α × List α} :
    p ∈ branches edges path targets ↔ ∃ v ∈ fresh edges path targets, p = (v, v :: path) := by
  simp [branches, eq_comm]

@[simp] lemma search_nil (edges : α → List α) (start : α) (budget : Nat) :
    search edges start budget [] = some false := by
  rw [search]

@[simp] lemma search_zero (edges : α → List α) (start : α) (p : α × List α)
    (todo : List (α × List α)) : search edges start 0 (p :: todo) = none := by
  rw [search]

variable [LawfulBEq α] {edges : α → List α} {start : α}

lemma mem_fresh {path targets : List α} {v : α} :
    v ∈ fresh edges path targets ↔ v ∈ targets ∧ v ∉ path ∧ edges v ≠ [] := by
  simp [fresh]

lemma expand_of_mem (edges : α → List α) {targets : List α} (h : start ∈ targets) (path : List α)
    (budget : Nat) (todo : List (α × List α)) : expand edges start path targets budget todo = .found := by
  induction targets generalizing budget todo with
  | nil => simp at h
  | cons v vs ih =>
    by_cases hv : v = start
    · simp [expand, hv]
    · have hs : start ∈ vs := (List.mem_cons.mp h).resolve_left (Ne.symm hv)
      simp [expand, hv, ih hs]

lemma expand_of_not_mem (edges : α → List α) {targets : List α} (h : start ∉ targets) (path : List α)
    (budget : Nat) (todo : List (α × List α)) :
    expand edges start path targets budget todo =
      .remaining (budget - (fresh edges path targets).length * path.length)
        (branches edges path targets ++ todo) := by
  induction targets generalizing budget todo with
  | nil => simp [expand, fresh, branches]
  | cons v vs ih =>
    simp only [List.mem_cons, not_or] at h
    have hv : (v == start) = false := beq_eq_false_iff_ne.mpr (Ne.symm h.1)
    cases hp : path.contains v || (edges v).isEmpty with
    | true =>
      have hf : fresh edges path (v :: vs) = fresh edges path vs := by
        rw [fresh, List.filter_cons, hp]
        rfl
      simp only [expand, hv, hp, branches, hf, ih h.2]
      rfl
    | false =>
      have hf : fresh edges path (v :: vs) = v :: fresh edges path vs := by
        rw [fresh, List.filter_cons, hp]
        rfl
      simp only [expand, hv, hp, branches, hf, ih h.2]
      simp [Nat.sub_sub, Nat.add_mul, Nat.add_comm]

lemma search_succ (v : α) (path : List α) (budget : Nat) (todo : List (α × List α)) :
    search edges start (budget + 1) ((v, path) :: todo) =
      if start ∈ edges v then some true
      else search edges start (budget - (fresh edges path (edges v)).length * path.length)
        (branches edges path (edges v) ++ todo) := by
  by_cases h : start ∈ edges v
  · have hx := expand_of_mem edges h path budget todo
    rw [search, if_pos h]
    split
    · rfl
    · simp_all
  · have hx := expand_of_not_mem edges h path budget todo
    rw [search, if_neg h]
    split
    · simp_all
    · simp_all

inductive Closes (edges : α → List α) (start : α) : α → List α → Prop
  | last {v path} : start ∈ edges v → Closes edges start v path
  | step {v w path} : w ∈ edges v → w ∉ path → Closes edges start w (w :: path) →
      Closes edges start v path

omit [BEq α] [LawfulBEq α] in
lemma Closes.edges_ne_nil {v : α} {path : List α} (h : Closes edges start v path) :
    edges v ≠ [] := by
  cases h with
  | last he => exact List.ne_nil_of_mem he
  | step he _ _ => exact List.ne_nil_of_mem he

lemma search_sound (budget : Nat) (todo : List (α × List α))
    (htodo : ∀ p ∈ todo, Reaches edges start p.1)
    (h : search edges start budget todo = some true) : OnCycle edges start := by
  induction budget using Nat.strongRecOn generalizing todo with
  | ind budget ih =>
    match todo, budget with
    | [], _ => simp at h
    | _ :: _, 0 => simp at h
    | (v, path) :: todo, budget + 1 =>
      have hv : Reaches edges start v := htodo (v, path) (by simp)
      rw [search_succ] at h
      split at h
      · rename_i hs
        exact Relation.TransGen.tail' hv hs
      · refine ih _ (by omega) _ ?_ h
        intro p hp
        rcases List.mem_append.mp hp with hp | hp
        · obtain ⟨w, hw, rfl⟩ := mem_branches.mp hp
          exact hv.trans (.single (mem_fresh.mp hw).1)
        · exact htodo p (by simp [hp])

lemma search_complete (budget : Nat) (todo : List (α × List α))
    (htodo : ∃ p ∈ todo, Closes edges start p.1 p.2) :
    search edges start budget todo ≠ some false := by
  induction budget using Nat.strongRecOn generalizing todo with
  | ind budget ih =>
    match todo, budget with
    | [], _ => simp at htodo
    | _ :: _, 0 => simp
    | (v, path) :: todo, budget + 1 =>
      rw [search_succ]
      split
      · simp
      · rename_i hs
        refine ih _ (by omega) _ ?_
        obtain ⟨p, hp, hc⟩ := htodo
        rcases List.mem_cons.mp hp with rfl | hp
        · cases hc with
          | last he => exact absurd he hs
          | @step _ w _ he hw hc =>
            have hf : w ∈ fresh edges path (edges v) := mem_fresh.mpr ⟨he, hw, hc.edges_ne_nil⟩
            exact ⟨(w, w :: path), by simp [mem_branches.mpr ⟨w, hf, rfl⟩], hc⟩
        · exact ⟨p, by simp [hp], hc⟩

/-- A walk of `n + 1` edges leads from a vertex to the start. -/
inductive Leads (edges : α → List α) (start : α) : Nat → α → Prop
  | last {v} : start ∈ edges v → Leads edges start 0 v
  | step {v w n} : w ∈ edges v → Leads edges start n w → Leads edges start (n + 1) v

omit [BEq α] [LawfulBEq α] in
lemma exists_leads {v : α} (h : Relation.TransGen (Adjacent edges) v start) :
    ∃ n, Leads edges start n v := by
  induction h using Relation.TransGen.head_induction_on with
  | single he => exact ⟨0, .last he⟩
  | head he _ ih =>
    obtain ⟨n, hn⟩ := ih
    exact ⟨n + 1, .step he hn⟩

omit [BEq α] [LawfulBEq α] in
/-- A walk that is no longer than any walk from the path behind it does not meet that path. -/
lemma Leads.closes {n : Nat} {v : α} {path : List α} (h : Leads edges start n v) (hv : v ∈ path)
    (hmin : ∀ p ∈ path, ∀ m < n, ¬ Leads edges start m p) : Closes edges start v path := by
  induction h generalizing path with
  | last he => exact .last he
  | @step v w n he hw ih =>
    have hnew : w ∉ path := fun hp => hmin w hp n (by omega) hw
    refine .step he hnew (ih (by simp) ?_)
    intro p hp m hm hl
    rcases List.mem_cons.mp hp with rfl | hp
    · exact hmin v hv (m + 1) (by omega) (.step he hl)
    · exact hmin p hp m (by omega) hl

omit [BEq α] [LawfulBEq α] in
lemma closes_of_onCycle (h : OnCycle edges start) : Closes edges start start [start] := by
  classical
  have hex := exists_leads h
  refine (Nat.find_spec hex).closes (by simp) ?_
  intro p hp m hm
  obtain rfl := List.mem_singleton.mp hp
  exact Nat.find_min hex hm

lemma reachesItself_eq_some {budget : Nat} {b : Bool}
    (h : reachesItself edges start budget = some b) : b = true ↔ OnCycle edges start := by
  constructor
  · rintro rfl
    exact search_sound budget _ (by simp [Reaches.refl]) h
  · intro hc
    have hne := search_complete budget [(start, [start])]
      ⟨(start, [start]), by simp, closes_of_onCycle hc⟩
    cases b with
    | true => rfl
    | false => exact absurd h hne

end FormulaAudit.Dependency.PathSearch
