import FormulaAudit.Expr.Builder
import FormulaAudit.Proofs.Expr.WellFormed
import Mathlib.Logic.Relation

/-! What pushing a token can do to a builder, as one relation. -/

namespace FormulaAudit.Expr.Builder

open Formula (Error)

inductive Applies : Builder → Builder → Prop
  | join {op : Token} {l r : Expr} {operands : List Expr} {pending : List Pending} {calls : List Nat} :
      floor pending ≤ operands.length →
      Applies ⟨r :: l :: operands, .operator op :: pending, calls⟩
        ⟨.binary op l r :: operands, pending, calls⟩

def Reduces : Builder → Builder → Prop :=
  Relation.ReflTransGen Applies

lemma floor_operators (ops : List Token) (pending : List Pending) :
    floor (ops.map .operator ++ pending) = floor pending := by
  induction ops with
  | nil => rfl
  | cons op ops ih => exact ih

def Below (strength : Nat) : List Pending → Prop
  | .operator op :: _ => precedence op.value < strength
  | _ => True

inductive Pushes : Builder → Token → Builder → Prop
  | operand {b : Builder} {t : Token} : t.IsOperand → Pushes b t (b.pushOperand t)
  | function {b : Builder} {t : Token} : t.kind = .function → Pushes b t (b.pushFunction t)
  | openParen {b : Builder} {t : Token} : t.IsSymbol "(" → Pushes b t (b.openParen t)
  | operator {b b' : Builder} {t : Token} : t.IsInfix → Reduces b b' →
      Below (precedence t.value) b'.pending →
      Pushes b t { b' with pending := .operator t :: b'.pending }
  | comma {b : Builder} {t paren : Token} {operands : List Expr} {base arg : Nat}
      {pending : List Pending} {calls : List Nat} : t.IsSymbol "," →
      Reduces b ⟨operands, .paren paren base arg :: pending, calls⟩ →
      Pushes b t ⟨operands, .paren paren base operands.length :: pending, countComma pending calls⟩
  | strayComma {b b' : Builder} {t : Token} : t.IsSymbol "," → Reduces b b' → Below 0 b'.pending →
      (∀ paren base arg pending, b'.pending ≠ .paren paren base arg :: pending) → Pushes b t b'
  | closeGroup {b : Builder} {t paren : Token} {operands : List Expr} {base arg : Nat}
      {pending : List Pending} {calls : List Nat} : t.IsSymbol ")" →
      Reduces b ⟨operands, .paren paren base arg :: pending, calls⟩ →
      (∀ f rest, pending ≠ .function f :: rest) → Pushes b t ⟨operands, pending, calls⟩
  | closeCall {b : Builder} {t paren f : Token} {operands : List Expr} {base arg : Nat}
      {pending : List Pending} {calls : List Nat} : t.IsSymbol ")" →
      Reduces b ⟨operands, .paren paren base arg :: .function f :: pending, calls⟩ →
      operands.length - base ≤ calls.headD 0 + 1 →
      (Function.arityOf f.value).Admits (operands.length - base) →
      Pushes b t ⟨.call f (operands.take (operands.length - base)).reverse ::
        operands.drop (operands.length - base), pending, calls.tail⟩

lemma apply_eq_ok {b b' : Builder} {op : Token} (h : b.apply op = .ok b') :
    ∃ l r operands, b.operands = r :: l :: operands ∧ floor b.pending ≤ operands.length ∧
      b' = ⟨.binary op l r :: operands, b.pending, b.calls⟩ := by
  unfold apply at h
  split at h
  · rename_i r l operands hop
    split at h
    · simp at h
    · rename_i hlen
      rw [hop] at hlen
      simp only [List.length_cons] at hlen
      simp only [Except.ok.injEq] at h
      exact ⟨l, r, operands, hop, by omega, h.symm⟩
  · simp at h

lemma reduce_eq_ok {strength : Nat} {operands : List Expr} {calls : List Nat} {pending : List Pending}
    {b : Builder} (h : reduce strength operands calls pending = .ok b) :
    Reduces ⟨operands, pending, calls⟩ b ∧ Below strength b.pending := by
  fun_induction reduce strength operands calls pending with
  | case1 operands op rest hle b' hb ih =>
    obtain ⟨l, r, operands', rfl, hfloor, rfl⟩ := apply_eq_ok hb
    exact ⟨.head (.join hfloor) (ih h).1, (ih h).2⟩
  | case2 => simp at h
  | case3 operands op rest hlt =>
    obtain rfl := Except.ok.inj h
    exact ⟨.refl, Nat.lt_of_not_le hlt⟩
  | case4 operands pending hne =>
    obtain rfl := Except.ok.inj h
    refine ⟨.refl, ?_⟩
    cases pending with
    | nil => trivial
    | cons p rest =>
      cases p with
      | operator op => exact absurd rfl (hne op rest)
      | paren | function => trivial

lemma reduceTo_eq_ok {strength : Nat} {b b' : Builder} (h : b.reduceTo strength = .ok b') :
    Reduces b b' ∧ Below strength b'.pending :=
  reduce_eq_ok h

lemma finishCall_eq_ok {operands operands' : List Expr} {f : Token} {base commas : Nat}
    (h : finishCall operands f base commas = .ok operands') :
    operands.length - base ≤ commas + 1 ∧ (Function.arityOf f.value).Admits (operands.length - base) ∧
      operands' = .call f (operands.take (operands.length - base)).reverse ::
        operands.drop (operands.length - base) := by
  simp only [finishCall] at h
  split at h
  · simp at h
  · rename_i hcommas
    split at h
    · simp at h
    · rename_i hleast
      split at h
      · rename_i hmost
        exact ⟨by omega, ⟨by omega, by simp [hmost]⟩, (Except.ok.inj h).symm⟩
      · rename_i most hmost
        split at h
        · simp at h
        · rename_i hle
          refine ⟨by omega, ⟨by omega, ?_⟩, (Except.ok.inj h).symm⟩
          intro m hm
          rw [hmost] at hm
          obtain rfl := Option.some.inj hm
          omega

lemma separate_eq_ok {b b' : Builder} {t : Token} (ht : t.IsSymbol ",") (h : b.separate = .ok b') :
    Pushes b t b' := by
  unfold separate at h
  cases hr : b.reduceTo 0 with
  | error e => simp [hr, bind, Except.bind] at h
  | ok b₁ =>
    obtain ⟨hred, hbelow⟩ := reduceTo_eq_ok hr
    simp only [hr, bind, Except.bind] at h
    split at h
    · rename_i paren base arg rest hp
      obtain ⟨operands, pending, calls⟩ := b₁
      subst hp
      obtain rfl := Except.ok.inj h
      exact .comma ht hred
    · rename_i hne
      obtain rfl := Except.ok.inj h
      exact .strayComma ht hred hbelow hne

lemma closeParen_eq_ok {b b' : Builder} {t : Token} (ht : t.IsSymbol ")") (h : b.closeParen t = .ok b') :
    Pushes b t b' := by
  unfold closeParen at h
  cases hr : b.reduceTo 0 with
  | error e => simp [hr, bind, Except.bind] at h
  | ok b₁ =>
    obtain ⟨hred, -⟩ := reduceTo_eq_ok hr
    obtain ⟨operands, pending, calls⟩ := b₁
    simp only [hr, bind, Except.bind] at h
    split at h
    · rename_i paren base arg f rest
      cases hc : finishCall operands f base (calls.headD 0) with
      | error e => simp only [hc, reduceCtorEq] at h
      | ok operands' =>
        simp only [hc] at h
        obtain ⟨hcommas, harity, rfl⟩ := finishCall_eq_ok hc
        obtain rfl := Except.ok.inj h
        exact .closeCall ht hred hcommas harity
    · rename_i paren base arg rest hne
      obtain rfl := Except.ok.inj h
      exact .closeGroup ht hred hne
    · simp [throw, throwThe, MonadExceptOf.throw] at h

lemma pushOperator_eq_ok {b b' : Builder} {t : Token} (ht : t.IsInfix) (h : b.pushOperator t = .ok b') :
    Pushes b t b' := by
  unfold pushOperator at h
  cases hr : b.reduceTo (precedence t.value) with
  | error e => simp [hr, bind, Except.bind] at h
  | ok b₁ =>
    obtain ⟨hred, hbelow⟩ := reduceTo_eq_ok hr
    simp only [hr, bind, Except.bind] at h
    obtain rfl := Except.ok.inj h
    exact .operator ht hred hbelow

section Push

variable {b : Builder} {t : Token}

lemma push_operand (ht : t.IsOperand) : b.push t = .ok (b.pushOperand t) := by
  obtain ⟨ho, hf⟩ := ht
  unfold push
  split <;> simp_all

lemma push_function (ht : t.kind = .function) : b.push t = .ok (b.pushFunction t) := by
  simp [push, ht]

lemma push_open (ht : t.IsSymbol "(") : b.push t = .ok (b.openParen t) := by
  simp [push, ht.1, ht.2]

lemma push_close (ht : t.IsSymbol ")") : b.push t = b.closeParen t := by
  simp [push, ht.1, ht.2]

lemma push_comma (ht : t.IsSymbol ",") : b.push t = b.separate := by
  simp [push, ht.1, ht.2]

lemma push_joining (ht : t.IsInfix) : b.push t = b.pushOperator t := by
  simp [push, ht.1, ht.2]

end Push

lemma push_eq_ok {b b' : Builder} {t : Token} (h : b.push t = .ok b') : Pushes b t b' := by
  rcases t.class_cases with ht | ht | ht | ht | ht | ht
  · rw [push_operand ht] at h
    exact Except.ok.inj h ▸ .operand ht
  · rw [push_function ht] at h
    exact Except.ok.inj h ▸ .function ht
  · rw [push_open ht] at h
    exact Except.ok.inj h ▸ .openParen ht
  · exact closeParen_eq_ok ht (push_close ht ▸ h)
  · exact separate_eq_ok ht (push_comma ht ▸ h)
  · exact pushOperator_eq_ok ht (push_joining ht ▸ h)

lemma Pushes.eq_pushFunction {b b' : Builder} {t : Token} (h : Pushes b t b')
    (ht : t.kind = .function) : b' = b.pushFunction t := by
  cases h with
  | function _ => rfl
  | operand ho => exact absurd ht ho.2
  | openParen hs | operator hs _ _ | comma hs _ | strayComma hs _ _ _ | closeGroup hs _ _
  | closeCall hs _ _ _ => simp [hs.1] at ht

lemma Pushes.eq_openParen {b b' : Builder} {t : Token} (h : Pushes b t b') (ht : t.IsSymbol "(") :
    b' = b.openParen t := by
  cases h with
  | openParen _ => rfl
  | operand ho => exact absurd ht.1 ho.1
  | function hf => simp [ht.1] at hf
  | operator hs _ _ => exact absurd ht.2 hs.2.1
  | comma hs _ | strayComma hs _ _ _ | closeGroup hs _ _ | closeCall hs _ _ _ =>
    have hvalue := ht.2.symm.trans hs.2
    simp at hvalue

lemma Reduces.pending_subset {b b' : Builder} (h : Reduces b b') : b'.pending ⊆ b.pending := by
  induction h with
  | refl => exact fun p hp => hp
  | tail _ hstep ih =>
    obtain ⟨-⟩ := hstep
    exact fun p hp => ih (List.mem_cons_of_mem _ hp)

lemma eq_nil_of_below {pending : List Pending} (h : Below 0 pending)
    (hnone : ∀ p ∈ pending, openPosition p = none) : pending = [] := by
  cases pending with
  | nil => rfl
  | cons p rest =>
    have hp := hnone p (by simp)
    cases p with
    | operator op => simp [Below] at h
    | paren | function => simp [openPosition] at hp

lemma finish_eq_ok {b : Builder} {e : Expr} (h : b.finish = .ok e) :
    ∃ calls, Reduces b ⟨[e], [], calls⟩ := by
  unfold finish at h
  split at h
  · simp [throw, throwThe, MonadExceptOf.throw, bind, Except.bind] at h
  · rename_i hsome
    have hnone : b.pending.reverse.findSome? openPosition = none :=
      Option.eq_none_iff_forall_ne_some.mpr hsome
    cases hr : b.reduceTo 0 with
    | error e => simp [hr, bind, Except.bind] at h
    | ok b₁ =>
      obtain ⟨hreduces, hbelow⟩ := reduceTo_eq_ok hr
      have hnil : b₁.pending = [] := by
        refine eq_nil_of_below hbelow fun p hp => ?_
        exact List.findSome?_eq_none_iff.mp hnone p (List.mem_reverse.mpr (hreduces.pending_subset hp))
      simp only [hr, bind, Except.bind] at h
      split at h
      · rename_i e' he
        obtain rfl := Except.ok.inj h
        exact ⟨b₁.calls, he ▸ hnil ▸ hreduces⟩
      · simp [throw, throwThe, MonadExceptOf.throw] at h

inductive Runs : Builder → List Token → Builder → Prop
  | nil (b : Builder) : Runs b [] b
  | cons {b b' b'' : Builder} {t : Token} {ts : List Token} :
      Pushes b t b' → Runs b' ts b'' → Runs b (t :: ts) b''

lemma foldlM_push_eq_ok {b b' : Builder} {ts : List Token} (h : ts.foldlM push b = .ok b') :
    Runs b ts b' := by
  induction ts generalizing b with
  | nil =>
    obtain rfl := Except.ok.inj h
    exact .nil b
  | cons t ts ih =>
    rw [List.foldlM_cons] at h
    cases hp : b.push t with
    | error e => simp [hp, bind, Except.bind] at h
    | ok b₁ =>
      simp only [hp, bind, Except.bind] at h
      exact .cons (push_eq_ok hp) (ih h)

lemma ofTokens_eq_ok {ts : List Token} {e : Expr} (h : ofTokens ts = .ok e) :
    ∃ b calls, Runs {} ts b ∧ Reduces b ⟨[e], [], calls⟩ := by
  unfold ofTokens at h
  split at h
  · simp [throw, throwThe, MonadExceptOf.throw, bind, Except.bind] at h
  · cases hf : ts.foldlM push {} with
    | error e => simp [hf, bind, Except.bind] at h
    | ok b =>
      simp only [hf, bind, Except.bind] at h
      obtain ⟨calls, hr⟩ := finish_eq_ok h
      exact ⟨b, calls, foldlM_push_eq_ok hf, hr⟩

def OfKind : Pending → Prop
  | .operator t => t.IsInfix
  | .paren t _ _ => t.IsSymbol "("
  | .function t => t.kind = .function

structure Sound (b : Builder) : Prop where
  operands : ∀ e ∈ b.operands, e.WellFormed
  pending : ∀ p ∈ b.pending, OfKind p

namespace Sound

variable {b b' : Builder}

lemma applies (h : Sound b) (hr : Applies b b') : Sound b' := by
  obtain @⟨op, l, r, operands, pending, calls, -⟩ := hr
  refine ⟨?_, fun p hp => h.pending p (by simp [hp])⟩
  intro e he
  rcases List.mem_cons.mp he with rfl | he
  · exact .binary (h.pending (.operator op) (by simp)) (h.operands l (by simp)) (h.operands r (by simp))
  · exact h.operands e (by simp [he])

lemma reduces (h : Sound b) (hr : Reduces b b') : Sound b' := by
  induction hr with
  | refl => exact h
  | tail _ hstep ih => exact ih.applies hstep

lemma pushes {t : Token} (h : Sound b) (hp : Pushes b t b') : Sound b' := by
  cases hp with
  | operand ht => exact ⟨by simpa [pushOperand, WellFormed.leaf ht] using h.operands, h.pending⟩
  | function ht => exact ⟨h.operands, by simpa [pushFunction, OfKind, ht] using h.pending⟩
  | openParen ht => exact ⟨h.operands, by simpa [Builder.openParen, OfKind, ht] using h.pending⟩
  | operator ht hr _ =>
    have h' := h.reduces hr
    exact ⟨h'.operands, by simpa [OfKind, ht] using h'.pending⟩
  | comma ht hr =>
    have h' := h.reduces hr
    exact ⟨h'.operands, by simpa [OfKind] using h'.pending⟩
  | strayComma ht hr _ _ => exact h.reduces hr
  | closeGroup ht hr _ =>
    have h' := h.reduces hr
    exact ⟨h'.operands, fun p hp => h'.pending p (by simp [hp])⟩
  | @closeCall _ paren f operands base arg pending calls ht hr _ harity =>
    have h' := h.reduces hr
    refine ⟨?_, fun p hp => h'.pending p (by simp [hp])⟩
    intro e he
    rcases List.mem_cons.mp he with rfl | he
    · refine .call (h'.pending (.function f) (by simp)) ?_ ?_
      · simpa using harity
      · intro a ha
        exact h'.operands a (List.mem_of_mem_take (List.mem_reverse.mp ha))
    · exact h'.operands e (List.mem_of_mem_drop he)

lemma runs {ts : List Token} (h : Sound b) (hr : Runs b ts b') : Sound b' := by
  induction hr with
  | nil => exact h
  | cons hp _ ih => exact ih (h.pushes hp)

end Sound

lemma wellFormed_of_ofTokens {ts : List Token} {e : Expr} (h : ofTokens ts = .ok e) : e.WellFormed := by
  obtain ⟨b, calls, hruns, hr⟩ := ofTokens_eq_ok h
  have hsound : Sound ({} : Builder) := ⟨by simp, by simp⟩
  exact ((hsound.runs hruns).reduces hr).operands e (by simp)

end FormulaAudit.Expr.Builder
