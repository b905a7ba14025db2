import Mathlib.Logic.Relation

/-! Reachability along edges that are given as lists of targets. -/

namespace FormulaAudit.Dependency

variable {α : Type} {edges : α → List α} {u v w : α}

def Adjacent (edges : α → List α) (v w : α) : Prop :=
  w ∈ edges v

def Reaches (edges : α → List α) : α → α → Prop :=
  Relation.ReflTransGen (Adjacent edges)

def OnCycle (edges : α → List α) (v : α) : Prop :=
  Relation.TransGen (Adjacent edges) v v

namespace Reaches

lemma refl (v : α) : Reaches edges v v :=
  Relation.ReflTransGen.refl

lemma trans (h : Reaches edges u v) (h' : Reaches edges v w) : Reaches edges u w :=
  Relation.ReflTransGen.trans h h'

lemma head (he : v ∈ edges u) (h : Reaches edges v w) : Reaches edges u w :=
  Relation.ReflTransGen.head he h

lemma single (he : v ∈ edges u) : Reaches edges u v :=
  head he (refl v)

lemma closed {P : α → Prop} (hstep : ∀ v, P v → ∀ w ∈ edges v, P w)
    (hv : P v) (h : Reaches edges v w) : P w := by
  induction h with
  | refl => exact hv
  | tail _ he ih => exact hstep _ ih _ he

end Reaches

namespace OnCycle

lemma of_reaches (he : w ∈ edges v) (h : Reaches edges w v) : OnCycle edges v :=
  Relation.TransGen.head' he h

lemma exists_edge (h : OnCycle edges v) : ∃ w ∈ edges v, Reaches edges w v :=
  Relation.TransGen.head'_iff.mp h

lemma exists_last_edge (h : OnCycle edges v) : ∃ w, v ∈ edges w := by
  obtain ⟨w, _, he⟩ := Relation.TransGen.tail'_iff.mp h
  exact ⟨w, he⟩

lemma of_mutual (hne : v ≠ w) (h : Reaches edges v w) (h' : Reaches edges w v) : OnCycle edges v := by
  rcases Relation.ReflTransGen.cases_head h with heq | ⟨u, he, hu⟩
  · exact absurd heq hne
  · exact of_reaches he (Reaches.trans hu h')

/-- A cycle is kept if every edge is kept between vertices of a kind that all targets are of. Only
edges to vertices with edges of their own matter. -/
lemma mono {edges' : α → List α} {P : α → Prop} (htarget : ∀ v, ∀ w ∈ edges v, P w)
    (hkeep : ∀ v, P v → ∀ w ∈ edges v, edges w ≠ [] → w ∈ edges' v) (h : OnCycle edges v) :
    OnCycle edges' v := by
  have hpath : ∀ {u}, Relation.TransGen (Adjacent edges) u v → P u →
      Relation.TransGen (Adjacent edges') u v := by
    intro u hu
    obtain ⟨w, hw, -⟩ := h.exists_edge
    induction hu using Relation.TransGen.head_induction_on with
    | single he => exact fun hP => .single (hkeep _ hP _ he (List.ne_nil_of_mem hw))
    | head he hrest ih =>
      intro hP
      obtain ⟨x, hx, -⟩ := Relation.TransGen.head'_iff.mp hrest
      exact .head (hkeep _ hP _ he (List.ne_nil_of_mem hx)) (ih (htarget _ _ he))
  -- `v` is a target itself, of the last edge of its cycle
  obtain ⟨w, hw⟩ := h.exists_last_edge
  exact hpath h (htarget w v hw)

end OnCycle

end FormulaAudit.Dependency
