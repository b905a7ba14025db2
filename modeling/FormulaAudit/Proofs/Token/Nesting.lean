import FormulaAudit.Proofs.Expr.Grammar

/-!
Parentheses among tokens, and the part of their contents that a token belongs to. Tokens can be read
in both directions: `enter` is the parenthesis that opens a pair as they are read, `leave` the one that
closes it.
-/

namespace FormulaAudit.Token

/-- Every parenthesis has its partner. Unless `commas` is set, each comma has a pair around it. -/
inductive Nested (enter leave : String) : Bool → List Token → Prop
  | nil {commas : Bool} : Nested enter leave commas []
  | single {commas : Bool} {t : Token} : ¬ t.IsSymbol enter → ¬ t.IsSymbol leave →
      (t.IsSymbol "," → commas = true) → Nested enter leave commas [t]
  | append {commas : Bool} {ts us : List Token} : Nested enter leave commas ts →
      Nested enter leave commas us → Nested enter leave commas (ts ++ us)
  | enclose {commas : Bool} {t u : Token} {ts : List Token} : t.IsSymbol enter → u.IsSymbol leave →
      Nested enter leave true ts → Nested enter leave commas (t :: (ts ++ [u]))

/-- The tokens up to where the pair around them is left, or up to a comma directly inside that pair. At
the start, `depth` more pairs are open. -/
def segment (enter leave : String) : Nat → List Token → List Token
  | _, [] => []
  | depth, t :: ts =>
    if t.IsSymbol enter then t :: segment enter leave (depth + 1) ts
    else if t.IsSymbol leave then
      match depth with
      | 0 => []
      | depth + 1 => t :: segment enter leave depth ts
    else if t.IsSymbol "," ∧ depth = 0 then []
    else t :: segment enter leave depth ts

/-- Some pair that is open at the start, beside the `depth` inner ones, is left. -/
def leaves (enter leave : String) : Nat → List Token → Bool
  | _, [] => false
  | depth, t :: ts =>
    if t.IsSymbol enter then leaves enter leave (depth + 1) ts
    else if t.IsSymbol leave then
      match depth with
      | 0 => true
      | depth + 1 => leaves enter leave depth ts
    else leaves enter leave depth ts

variable {enter leave : String} {t : Token} {ts us : List Token} {commas : Bool} {depth : Nat}

lemma segment_enter (ht : t.IsSymbol enter) :
    segment enter leave depth (t :: ts) = t :: segment enter leave (depth + 1) ts := by
  rw [segment.eq_def]
  exact if_pos ht

lemma segment_leave (hne : enter ≠ leave) (ht : t.IsSymbol leave) :
    segment enter leave (depth + 1) (t :: ts) = t :: segment enter leave depth ts := by
  rw [segment, if_neg (ht.not_isSymbol hne.symm), if_pos ht]

lemma segment_other (he : ¬ t.IsSymbol enter) (hl : ¬ t.IsSymbol leave)
    (hc : t.IsSymbol "," → 0 < depth) :
    segment enter leave depth (t :: ts) = t :: segment enter leave depth ts := by
  have hnot : ¬ (t.IsSymbol "," ∧ depth = 0) := by
    rintro ⟨hs, rfl⟩
    exact absurd (hc hs) (Nat.lt_irrefl 0)
  rw [segment.eq_def]
  exact (if_neg he).trans ((if_neg hl).trans (if_neg hnot))

lemma segment_edge (hne : enter ≠ leave) (hcomma : enter ≠ ",")
    (ht : t.IsSymbol leave ∨ t.IsSymbol ",") : segment enter leave 0 (t :: ts) = [] := by
  have he : ¬ t.IsSymbol enter := by
    rcases ht with ht | ht
    · exact ht.not_isSymbol hne.symm
    · exact ht.not_isSymbol hcomma.symm
  rw [segment, if_neg he]
  by_cases hl : t.IsSymbol leave
  · rw [if_pos hl]
  · rw [if_neg hl, if_pos ⟨ht.resolve_left hl, rfl⟩]

lemma segment_append (hne : enter ≠ leave) (h : Nested enter leave commas ts)
    (hdepth : commas = true → 0 < depth) (rest : List Token) :
    segment enter leave depth (ts ++ rest) = ts ++ segment enter leave depth rest := by
  induction h generalizing depth rest with
  | nil => rfl
  | single he hl hc => exact segment_other he hl fun hs => hdepth (hc hs)
  | append _ _ ih ih' => rw [List.append_assoc, ih hdepth, ih' hdepth, List.append_assoc]
  | @enclose _ t u ts ht hu _ ih =>
    calc segment enter leave depth (t :: (ts ++ [u]) ++ rest)
        = t :: segment enter leave (depth + 1) (ts ++ (u :: rest)) := by
          simp [segment_enter ht]
      _ = t :: (ts ++ segment enter leave (depth + 1) (u :: rest)) := by
          rw [ih fun _ => Nat.succ_pos depth]
      _ = t :: (ts ++ [u]) ++ segment enter leave depth rest := by
          simp [segment_leave hne hu]

lemma segment_eq_self (hne : enter ≠ leave) (h : Nested enter leave false ts) :
    segment enter leave 0 ts = ts := by
  simpa [segment] using segment_append hne h (by simp) []

lemma segment_isPrefix (enter leave : String) (depth : Nat) (ts us : List Token) :
    segment enter leave depth ts <+: segment enter leave depth (ts ++ us) := by
  fun_induction segment enter leave depth ts with
  | case1 => exact List.nil_prefix
  | case2 depth t ts ht ih =>
    rw [List.cons_append, segment_enter ht]
    exact (List.prefix_cons_inj t).mpr ih
  | case3 => exact List.nil_prefix
  | case4 t ts he hl depth ih =>
    rw [List.cons_append, segment, if_neg he, if_pos hl]
    exact (List.prefix_cons_inj t).mpr ih
  | case5 => exact List.nil_prefix
  | case6 depth t ts he hl hc ih =>
    have hother : segment enter leave depth (t :: (ts ++ us)) = t :: segment enter leave depth (ts ++ us) := by
      apply segment_other he hl
      intro hs
      exact Nat.pos_of_ne_zero fun h0 => hc ⟨hs, h0⟩
    rw [List.cons_append, hother]
    exact (List.prefix_cons_inj t).mpr ih

lemma leaves_append (hne : enter ≠ leave) (h : Nested enter leave commas ts) (depth : Nat)
    (rest : List Token) : leaves enter leave depth (ts ++ rest) = leaves enter leave depth rest := by
  induction h generalizing depth rest with
  | nil => rfl
  | single he hl _ =>
    rw [List.singleton_append, leaves.eq_def]
    exact (if_neg he).trans (if_neg hl)
  | append _ _ ih ih' => rw [List.append_assoc, ih, ih']
  | @enclose _ t u ts ht hu _ ih =>
    calc leaves enter leave depth (t :: (ts ++ [u]) ++ rest)
        = leaves enter leave (depth + 1) (ts ++ (u :: rest)) := by
          rw [leaves.eq_def]
          simp [ht]
      _ = leaves enter leave (depth + 1) (u :: rest) := ih (depth + 1) (u :: rest)
      _ = leaves enter leave depth rest := by
          rw [leaves, if_neg (hu.not_isSymbol hne.symm), if_pos hu]

namespace Nested

lemma reverse (h : Nested enter leave commas ts) : Nested leave enter commas ts.reverse := by
  induction h with
  | nil => exact .nil
  | single he hl hc => exact .single hl he hc
  | append _ _ ih ih' =>
    rw [List.reverse_append]
    exact ih'.append ih
  | enclose ht hu _ ih => simpa using ih.enclose hu ht

lemma weaken (h : Nested enter leave commas ts) : Nested enter leave true ts := by
  induction h with
  | nil => exact .nil
  | single he hl _ => exact .single he hl fun _ => rfl
  | append _ _ ih ih' => exact ih.append ih'
  | enclose ht hu h _ => exact h.enclose ht hu

end Nested

lemma IsOperand.nested (h : t.IsOperand) : Nested "(" ")" commas [t] :=
  .single (h.not_isSymbol _) (h.not_isSymbol _) fun hs => absurd hs (h.not_isSymbol _)

lemma IsInfix.nested (h : t.IsInfix) : Nested "(" ")" commas [t] :=
  .single (fun hs => h.2.1 hs.2) (fun hs => h.2.2.1 hs.2) fun hs => absurd hs.2 h.2.2.2

lemma nested_of_function (h : t.kind = .function) : Nested "(" ")" commas [t] :=
  .single (not_isSymbol_of_function h _) (not_isSymbol_of_function h _) fun hs =>
    absurd hs (not_isSymbol_of_function h _)

lemma IsSymbol.nested_comma (h : t.IsSymbol ",") : Nested "(" ")" true [t] :=
  .single (h.not_isSymbol (by simp)) (h.not_isSymbol (by simp)) fun _ => rfl

def Enclosed (back : List Token) : Prop :=
  leaves ")" "(" 0 back = true
  deriving Decidable

def argument (back : List Token) (t : Token) (after : List Token) : List Token :=
  (segment ")" "(" 0 back).reverse ++ t :: segment "(" ")" 0 after

lemma argument_of_nested {front left right : List Token} {edge : Token}
    (hedge : edge.IsSymbol "(" ∨ edge.IsSymbol ",") (hleft : Nested "(" ")" false left)
    (hright : Nested "(" ")" false right) (t : Token) :
    argument (front ++ edge :: left).reverse t right = left ++ t :: right := by
  have hback : segment ")" "(" 0 (left.reverse ++ edge :: front.reverse) = left.reverse := by
    rw [segment_append (by simp) hleft.reverse (by simp), segment_edge (by simp) (by simp) hedge,
      List.append_nil]
  have hreverse : (front ++ edge :: left).reverse = left.reverse ++ edge :: front.reverse := by simp
  rw [argument, hreverse, hback, segment_eq_self (by simp) hright, List.reverse_reverse]

lemma not_enclosed (h : Nested "(" ")" commas ts) : ¬ Enclosed ts.reverse := by
  have hl := leaves_append (by simp) h.reverse 0 []
  rw [List.append_nil] at hl
  simp [Enclosed, hl, leaves]

end FormulaAudit.Token
