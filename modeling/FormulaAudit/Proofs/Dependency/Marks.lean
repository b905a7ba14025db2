import FormulaAudit.Dependency.Components
import Mathlib.Tactic.Tauto

/-! The marks of the depth-first pass, and how entering a vertex and closing a component change them. -/

namespace FormulaAudit.Dependency.Components

open scoped Classical

variable {α : Type} [BEq α] [Hashable α]

namespace State

def Active (s : State α) (v : α) (n : Nat) : Prop :=
  s.marks[v]? = some (.active n)

def Settled (s : State α) (v : α) : Prop :=
  s.marks[v]? = some .settled

def Marked (s : State α) (v : α) : Prop :=
  s.marks[v]? ≠ none

variable {s : State α} {v w : α} {m n : Nat}

lemma Active.unique (h : s.Active v m) (h' : s.Active v n) : m = n := by
  have heq : some (Mark.active m) = some (Mark.active n) := h.symm.trans h'
  simpa using heq

lemma Active.not_settled (h : s.Active v n) : ¬ s.Settled v := by
  intro h'
  have heq : some (Mark.active n) = some Mark.settled := h.symm.trans h'
  simp at heq

lemma marked_iff : s.Marked v ↔ s.Settled v ∨ ∃ n, s.Active v n := by
  cases h : s.marks[v]? with
  | none => simp [Marked, Settled, Active, h]
  | some x => cases x <;> simp [Marked, Settled, Active, h]

lemma Active.marked (h : s.Active v n) : s.Marked v :=
  marked_iff.mpr (Or.inr ⟨n, h⟩)

lemma Settled.marked (h : s.Settled v) : s.Marked v :=
  marked_iff.mpr (Or.inl h)

section Stack

variable [LawfulBEq α] {upper lower : List α} (hs : s.stack = upper ++ v :: lower) (hv : v ∉ upper)
include hs hv

lemma takeWhile_stack : s.stack.takeWhile (· != v) = upper := by
  rw [hs, List.takeWhile_append_of_pos (by intro w hw; simpa using ne_of_mem_of_not_mem hw hv)]
  simp

lemma stack_close : (s.close v).stack = lower := by
  simp only [close, hs]
  rw [List.dropWhile_append_of_pos (by intro w hw; simpa using ne_of_mem_of_not_mem hw hv)]
  simp

lemma components_close : (s.close v).components = (upper ++ [v]) :: s.components := by
  simp [close, takeWhile_stack hs hv]

end Stack

variable [LawfulBEq α] [LawfulHashable α]

lemma getElem?_enter (s : State α) (v w : α) :
    (s.enter v).marks[w]? = if w = v then some (.active s.count) else s.marks[w]? := by
  by_cases h : w = v
  · simp [enter, h]
  · simp [enter, Std.HashMap.getElem?_insert, h, Ne.symm h]

section Enter

variable (hv : ¬ s.Marked v)
include hv

lemma active_enter : (s.enter v).Active w n ↔ w = v ∧ n = s.count ∨ s.Active w n := by
  rw [Active, getElem?_enter]
  by_cases h : w = v
  · have hn : ¬ s.Active v n := fun ha => hv ha.marked
    simp [h, hn, eq_comm]
  · simp [h, Active]

lemma settled_enter : (s.enter v).Settled w ↔ s.Settled w := by
  rw [Settled, getElem?_enter]
  by_cases h : w = v
  · have hn : ¬ s.Settled v := fun ha => hv ha.marked
    simp [h, hn]
  · simp [h, Settled]

lemma marked_enter : (s.enter v).Marked w ↔ w = v ∨ s.Marked w := by
  simp only [marked_iff, settled_enter hv, active_enter hv, exists_or, exists_and_left]
  simp [or_left_comm]

end Enter

lemma getElem?_settle (C : List α) (marks : Std.HashMap α Mark) (w : α) :
    (C.foldl (fun marks u => marks.insert u .settled) marks)[w]? =
      if w ∈ C then some .settled else marks[w]? := by
  induction C generalizing marks with
  | nil => simp
  | cons u C ih =>
    rw [List.foldl_cons, ih]
    by_cases hw : w ∈ C
    · simp [hw]
    · by_cases hu : w = u
      · simp [hu]
      · simp [hw, hu, Std.HashMap.getElem?_insert, Ne.symm hu]

section Close

variable {upper lower : List α} (hs : s.stack = upper ++ v :: lower) (hv : v ∉ upper)
include hs hv

lemma getElem?_close :
    (s.close v).marks[w]? = if w ∈ upper ++ [v] then some .settled else s.marks[w]? := by
  simp only [close, takeWhile_stack hs hv, getElem?_settle]

lemma active_close : (s.close v).Active w n ↔ w ∉ upper ++ [v] ∧ s.Active w n := by
  rw [Active, getElem?_close hs hv]
  by_cases h : w ∈ upper ++ [v]
  · rw [if_pos h]
    simp [h]
  · rw [if_neg h]
    simp only [h, not_false_eq_true, true_and, Active]

lemma settled_close : (s.close v).Settled w ↔ w ∈ upper ++ [v] ∨ s.Settled w := by
  rw [Settled, getElem?_close hs hv]
  by_cases h : w ∈ upper ++ [v]
  · rw [if_pos h]
    simp [h]
  · rw [if_neg h]
    simp only [h, false_or, Settled]

lemma marked_close : (s.close v).Marked w ↔ w ∈ upper ++ [v] ∨ s.Marked w := by
  simp only [marked_iff, settled_close hs hv, active_close hs hv, exists_and_left]
  tauto

end Close

end State

end FormulaAudit.Dependency.Components
