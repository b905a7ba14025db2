import FormulaAudit.Proofs.Expr.Grammar
import Mathlib.Algebra.GroupWithZero.Nat
import Mathlib.Data.List.Basic

/-!
Counting instead of grouping. A builder may join an operator to other operands than the infix reading
gives it, but each operator still takes two operands and leaves one. So what is read since the last
parenthesis or comma is known by its surplus of operands over pending operators: an infix expression
adds one to it, and an operator finds its operands as long as the surplus before it is positive.
-/

namespace FormulaAudit.Expr

def Phrase (ts : List Token) : Prop :=
  ∃ e : Expr, e.WellFormed ∧ Derives e ts

namespace Phrase

lemma operand (t : Token) (ht : t.IsOperand) : Phrase [t] :=
  ⟨.leaf t, .leaf ht, .operand ht⟩

lemma binary {ls rs : List Token} {op : Token} (hl : Phrase ls) (hr : Phrase rs) (hop : op.IsInfix) :
    Phrase (ls ++ op :: rs) := by
  obtain ⟨l, hl, hdl⟩ := hl
  obtain ⟨r, hr, hdr⟩ := hr
  exact ⟨.binary op l r, .binary hop hl hr, .binary hop hdl hdr⟩

lemma ne_nil {ts : List Token} (h : Phrase ts) : ts ≠ [] := by
  obtain ⟨e, -, hd⟩ := h
  rintro rfl
  simpa using hd.beforeOperand []

end Phrase

inductive Terminated : List (List Token) → List Token → Prop
  | nil : Terminated [] []
  | cons {part ts : List Token} {parts : List (List Token)} {comma : Token} :
      comma.IsSymbol "," → Terminated parts ts → Terminated (part :: parts) (part ++ comma :: ts)

lemma Separated.split {before after : List (List Token)} {part ts : List Token}
    (h : Separated (before ++ part :: after) ts) :
    ∃ front rest, ts = front ++ (part ++ rest) ∧ Terminated before front ∧
      (after = [] ∧ rest = [] ∨ after ≠ [] ∧ ∃ comma us, rest = comma :: us ∧ comma.IsSymbol ",") := by
  induction before generalizing ts with
  | nil =>
    rw [List.nil_append] at h
    cases h with
    | single => exact ⟨[], [], by simp, .nil, .inl ⟨rfl, rfl⟩⟩
    | cons hcomma _ => exact ⟨[], _, rfl, .nil, .inr ⟨by simp, _, _, rfl, hcomma⟩⟩
  | cons first before ih =>
    obtain ⟨next, parts, hparts⟩ := List.exists_cons_of_ne_nil (l := before ++ part :: after) (by simp)
    rw [List.cons_append, hparts] at h
    cases h with
    | cons hcomma hsep =>
      obtain ⟨front, rest, rfl, hfront, hrest⟩ := ih (hparts ▸ hsep)
      exact ⟨_, rest, by simp, .cons hcomma hfront, hrest⟩

namespace Builder

open Formula (Error)

def above (base : Builder) (es : List Expr) (ops : List Token) : Builder :=
  ⟨es ++ base.operands, ops.map .operator ++ base.pending, base.calls⟩

@[simp] lemma above_nil (base : Builder) : base.above [] [] = base := rfl

lemma above_above (base : Builder) (es : List Expr) (ops : List Token) (op : Token) :
    (base.above [] [op]).above es ops = base.above es (ops ++ [op]) := by
  simp [above]

structure Bare (base : Builder) : Prop where
  floor_eq : floor base.pending = base.operands.length
  ne_function : ∀ f rest, base.pending ≠ .function f :: rest

def Settled (base : Builder) : Prop :=
  Below 0 base.pending

variable {b base : Builder} {es : List Expr} {ops ts us : List Token} {op : Token} {k m n : Nat}

lemma Settled.below (h : Settled base) (strength : Nat) : Below strength base.pending :=
  Below.mono h (Nat.zero_le _)

lemma not_below_zero (pending : List Pending) : ¬ Below 0 (.operator op :: pending) := by
  simp [Below]

namespace Bare

lemma empty : Bare {} :=
  ⟨rfl, by simp⟩

lemma openParen (b : Builder) (lp : Token) : Bare (b.openParen lp) :=
  ⟨rfl, by simp [Builder.openParen]⟩

lemma above_ne_function (h : Bare base) (f : Token) (rest : List Pending) :
    (base.above es ops).pending ≠ .function f :: rest := by
  cases ops with
  | nil => exact h.ne_function f rest
  | cons op ops => simp [above]

lemma above_operator (h : Bare base) (op : Token) : Bare (base.above [] [op]) :=
  ⟨h.floor_eq, h.above_ne_function⟩

end Bare

/-- The operands exceed the operators on `base` by `n`, unless the operator on top of `base` itself was
found without its operands. -/
def Counts (base : Builder) (n : Nat) : Except Error Builder → Prop
  | .ok b => ∃ es ops, b = base.above es ops ∧ es.length = ops.length + n
  | .error e => ∃ op rest, base.pending = .operator op :: rest ∧ e = .missingOperand op.value op.start

namespace Counts

variable {r : Except Error Builder}

lemma above {es : List Expr} {ops : List Token} (h : es.length = ops.length + n) :
    Counts base n (.ok (base.above es ops)) :=
  ⟨es, ops, rfl, h⟩

lemma bind {f : Builder → Except Error Builder} (h : Counts base n r)
    (hf : ∀ es ops, es.length = ops.length + n → Counts base m (f (base.above es ops))) :
    Counts base m (r >>= f) := by
  cases r with
  | error e => exact h
  | ok b =>
    obtain ⟨es, ops, rfl, hlen⟩ := h
    exact hf es ops hlen

lemma exists_ok (h : Counts base n r) (hs : Settled base) :
    ∃ es ops, r = .ok (base.above es ops) ∧ es.length = ops.length + n := by
  cases r with
  | error e =>
    obtain ⟨op, rest, hp, -⟩ := h
    rw [Settled, hp] at hs
    exact absurd hs (not_below_zero rest)
  | ok b =>
    obtain ⟨es, ops, rfl, hlen⟩ := h
    exact ⟨es, ops, rfl, hlen⟩

end Counts

lemma reduceTo_of_lacking {strength : Nat} {operands : List Expr} {pending : List Pending}
    {calls : List Nat} (hop : strength ≤ precedence op.value) (hlen : operands.length < floor pending + 2) :
    reduceTo strength ⟨operands, .operator op :: pending, calls⟩ =
      .error (.missingOperand op.value op.start) := by
  have happly : apply ⟨operands, pending, calls⟩ op = .error (.missingOperand op.value op.start) := by
    simp only [apply]
    split
    · exact if_pos (by simpa using hlen)
    · rfl
  simp only [reduceTo]
  rw [reduce, if_pos hop, happly]

lemma counts_reduceTo (hb : Bare base) (hone : Settled base ∨ n ≤ 1) (hn : 0 < n)
    (hlen : es.length = ops.length + n) (strength : Nat) :
    Counts base n ((base.above es ops).reduceTo strength) := by
  -- each step keeps the surplus, and an operator of `ops` always finds two operands above `base`
  induction ops generalizing es with
  | nil =>
    by_cases hbelow : Below strength base.pending
    · have hsame : (base.above es []).reduceTo strength = .ok (base.above es []) :=
        reduceTo_of_below hbelow
      rw [hsame]
      exact .above hlen
    · -- the operator on top of `base` has at most one operand
      obtain ⟨operands, pending, calls⟩ := base
      cases pending with
      | nil => exact absurd trivial hbelow
      | cons p rest =>
        cases p with
        | paren | function => exact absurd trivial hbelow
        | operator op =>
          have hle : n ≤ 1 := hone.resolve_left (not_below_zero rest)
          have hfloor : floor rest = operands.length := hb.floor_eq
          have hlack : reduceTo strength ⟨es ++ operands, .operator op :: rest, calls⟩ =
              .error (.missingOperand op.value op.start) := by
            apply reduceTo_of_lacking (Nat.le_of_not_lt hbelow)
            rw [List.length_append, hlen, hfloor, List.length_nil]
            omega
          have hstuck : (above ⟨operands, .operator op :: rest, calls⟩ es []).reduceTo strength =
              .error (.missingOperand op.value op.start) := hlack
          rw [hstuck]
          exact ⟨op, rest, rfl, rfl⟩
  | cons op ops ih =>
    by_cases hop : strength ≤ precedence op.value
    · obtain ⟨r, l, es, rfl⟩ : ∃ r l es', es = r :: l :: es' := by
        rcases es with _ | ⟨r, _ | ⟨l, es⟩⟩
        · simp at hlen; omega
        · simp at hlen; omega
        · exact ⟨r, l, es, rfl⟩
      have hfloor : floor (ops.map .operator ++ base.pending) ≤ (es ++ base.operands).length := by
        rw [floor_operators, hb.floor_eq, List.length_append]
        omega
      have hjoin : (base.above (r :: l :: es) (op :: ops)).reduceTo strength =
          (base.above (.binary op l r :: es) ops).reduceTo strength := reduceTo_join hop hfloor
      rw [hjoin]
      apply ih
      simp only [List.length_cons] at hlen ⊢
      omega
    · have hsame : (base.above es (op :: ops)).reduceTo strength = .ok (base.above es (op :: ops)) :=
        reduceTo_of_below (Nat.lt_of_not_le hop)
      rw [hsame]
      exact .above hlen

lemma below_of_reduceTo {strength : Nat} {b' : Builder} (h : b.reduceTo strength = .ok b') :
    Below strength b'.pending :=
  (reduceTo_eq_ok h).2

lemma reduceTo_zero (hb : Bare base) (hs : Settled base) (hn : 0 < n) (hlen : es.length = ops.length + n) :
    ∃ es', (base.above es ops).reduceTo 0 = .ok (base.above es' []) ∧ es'.length = n := by
  obtain ⟨es', ops', heq, hlen'⟩ := (counts_reduceTo hb (.inl hs) hn hlen 0).exists_ok hs
  have hbelow := below_of_reduceTo heq
  cases ops' with
  | nil => exact ⟨es', heq, by simpa using hlen'⟩
  | cons op ops' => exact absurd hbelow (not_below_zero _)

lemma reduceTo_zero_lacking (hb : Bare base) (hlen : es.length = ops.length + 1) :
    (base.above es (ops ++ [op])).reduceTo 0 = .error (.missingOperand op.value op.start) := by
  -- the operators above `op` have enough operands, so that `op` counts as part of the base
  rw [← above_above]
  have hcount := counts_reduceTo (hb.above_operator op) (.inr (Nat.le_refl 1)) Nat.one_pos hlen 0
  cases hr : ((base.above [] [op]).above es ops).reduceTo 0 with
  | error e =>
    rw [hr] at hcount
    obtain ⟨op', rest, hp, rfl⟩ := hcount
    obtain ⟨⟨rfl⟩, -⟩ := List.cons.inj hp
    rfl
  | ok b =>
    rw [hr] at hcount
    obtain ⟨es', ops', rfl, -⟩ := hcount
    have hbelow := below_of_reduceTo hr
    cases ops' with
    | nil => exact absurd hbelow (not_below_zero _)
    | cons op' ops' => exact absurd hbelow (not_below_zero _)

lemma counts_push (hop : op.IsInfix) (hb : Bare base) (hone : Settled base ∨ k + 1 ≤ 1)
    (hlen : es.length = ops.length + (k + 1)) : Counts base k ((base.above es ops).push op) := by
  rw [push_joining hop, pushOperator]
  refine (counts_reduceTo hb hone (Nat.succ_pos k) hlen _).bind fun es' ops' hlen' => ?_
  have hcons : es'.length = (op :: ops').length + k := by
    rw [hlen', List.length_cons]
    omega
  exact .above hcons

lemma pushAll_append_eq (b : Builder) (ts us : List Token) :
    b.pushAll (ts ++ us) = b.pushAll ts >>= fun b' => b'.pushAll us := by
  simp [pushAll]

lemma pushAll_singleton (b : Builder) (t : Token) : b.pushAll [t] = b.push t := by
  simp [pushAll]

lemma pushAll_cons_eq (b : Builder) (t : Token) (ts : List Token) :
    b.pushAll (t :: ts) = b.push t >>= fun b' => b'.pushAll ts := by
  simp [pushAll]

def Adds (n : Nat) (ts : List Token) : Prop :=
  ∀ (base : Builder) (es : List Expr) (ops : List Token) (k : Nat), Bare base →
    Settled base ∨ k + n ≤ 1 → es.length = ops.length + k →
    Counts base (k + n) ((base.above es ops).pushAll ts)

namespace Adds

lemma nil : Adds 0 [] :=
  fun _ _ _ _ _ _ hlen => .above hlen

lemma append (h : Adds n ts) (h' : Adds m us) : Adds (n + m) (ts ++ us) := by
  intro base es ops k hb hone hlen
  rw [pushAll_append_eq, ← Nat.add_assoc]
  refine (h base es ops k hb (hone.imp_right (by omega)) hlen).bind fun es' ops' hlen' => ?_
  exact h' base es' ops' (k + n) hb (hone.imp_right (by omega)) hlen'

lemma flatten {parts : List (List Token)} (h : ∀ part ∈ parts, Adds 1 part) :
    Adds parts.length parts.flatten := by
  induction parts with
  | nil => exact nil
  | cons part parts ih =>
    have hrest := ih fun p hp => h p (by simp [hp])
    rw [List.length_cons, Nat.add_comm, List.flatten_cons]
    exact (h part (by simp)).append hrest

lemma of_operand (h : ∀ b : Builder, (∀ f rest, b.pending ≠ .function f :: rest) →
    ∃ e, b.pushAll ts = .ok ⟨e :: b.operands, b.pending, b.calls⟩) : Adds 1 ts := by
  intro base es ops k hb _ hlen
  obtain ⟨e, he⟩ := h (base.above es ops) hb.above_ne_function
  have hcons : (e :: es).length = ops.length + (k + 1) := by
    rw [List.length_cons, hlen, Nat.add_assoc]
  rw [he]
  exact .above hcons

lemma exists_ok (h : Adds n ts) (hb : Bare base) (hs : Settled base) :
    ∃ es ops, base.pushAll ts = .ok (base.above es ops) ∧ es.length = ops.length + n := by
  have hcount := h base [] [] 0 hb (.inl hs) rfl
  rw [Nat.zero_add, above_nil] at hcount
  exact hcount.exists_ok hs

end Adds

lemma adds_leaf {t : Token} (ht : t.IsOperand) : Adds 1 [t] := by
  refine .of_operand fun b _ => ⟨.leaf t, ?_⟩
  rw [pushAll_cons (push_operand ht)]
  rfl

lemma adds_binary (hop : op.IsInfix) (hl : Adds 1 ts) (hr : Adds 1 us) : Adds 1 (ts ++ op :: us) := by
  intro base es ops k hb hone hlen
  rw [pushAll_append_eq]
  refine (hl base es ops k hb hone hlen).bind fun es' ops' hlen' => ?_
  rw [pushAll_cons_eq]
  refine (counts_push hop hb hone hlen').bind fun es'' ops'' hlen'' => ?_
  exact hr base es'' ops'' k hb hone hlen''

lemma closeParen_group (lp rp : Token) (hb : ∀ f rest, b.pending ≠ .function f :: rest)
    (hlen : es.length = ops.length + 1) :
    ∃ e, ((b.openParen lp).above es ops).closeParen rp = .ok ⟨e :: b.operands, b.pending, b.calls⟩ := by
  obtain ⟨es', hred, hone⟩ := reduceTo_zero (Bare.openParen b lp) trivial Nat.one_pos hlen
  obtain ⟨e, rfl⟩ := List.length_eq_one_iff.mp hone
  refine ⟨e, ?_⟩
  rw [closeParen, hred]
  simp only [bind, Except.bind, above, openParen, List.map_nil, List.nil_append]
  rfl

lemma adds_group {lp rp : Token} (hlp : lp.IsSymbol "(") (hrp : rp.IsSymbol ")") (h : Adds 1 ts) :
    Adds 1 (lp :: (ts ++ [rp])) := by
  refine .of_operand fun b hb => ?_
  obtain ⟨es, ops, hpush, hlen⟩ := h.exists_ok (Bare.openParen b lp) trivial
  obtain ⟨e, hclose⟩ := closeParen_group lp rp hb hlen
  refine ⟨e, ?_⟩
  rw [pushAll_cons (push_open hlp), pushAll_append hpush, pushAll_cons ((push_close hrp).trans hclose)]
  rfl

def calling (b : Builder) (f lp : Token) (xs : List Expr) (commas : Nat) : Builder :=
  ⟨xs ++ b.operands,
    .paren lp b.operands.length (xs ++ b.operands).length :: .function f :: b.pending, commas :: b.calls⟩

section Call

variable (b : Builder) {f lp rp : Token} (xs : List Expr) (commas : Nat)

lemma bare_calling (f lp : Token) : Bare (b.calling f lp xs commas) :=
  ⟨rfl, by simp [calling]⟩

lemma settled_calling (f lp : Token) : Settled (b.calling f lp xs commas) :=
  trivial

lemma pushAll_open (hf : f.kind = .function) (hlp : lp.IsSymbol "(") (ts : List Token) :
    b.pushAll (f :: lp :: ts) = (b.calling f lp [] 0).pushAll ts := by
  rw [pushAll_cons (push_function hf), pushAll_cons (push_open hlp)]
  rfl

lemma push_argument (f lp : Token) (h : Adds n ts) (hn : 0 < n) {comma : Token}
    (hcomma : comma.IsSymbol ",") :
    ∃ es, es.length = n ∧ (b.calling f lp xs commas).pushAll (ts ++ [comma]) =
      .ok (b.calling f lp (es ++ xs) (commas + 1)) := by
  have hb := bare_calling b xs commas f lp
  have hs := settled_calling b xs commas f lp
  obtain ⟨es, ops, hpush, hlen⟩ := h.exists_ok hb hs
  obtain ⟨es', hred, hlen'⟩ := reduceTo_zero hb hs hn hlen
  refine ⟨es', hlen', ?_⟩
  have hsep : ((b.calling f lp xs commas).above es ops).push comma =
      .ok (b.calling f lp (es' ++ xs) (commas + 1)) := by
    rw [push_comma hcomma, separate, hred]
    simp [bind, Except.bind, pure, Except.pure, above, calling, countComma]
  rw [pushAll_append hpush, pushAll_cons hsep]
  rfl

lemma push_arguments (f lp : Token) {segments : List (Nat × List Token)}
    (h : ∀ s ∈ segments, 0 < s.1 ∧ Adds s.1 s.2) (ht : Terminated (segments.map (·.2)) ts) :
    ∃ es, es.length = (segments.map (·.1)).sum ∧ (b.calling f lp xs commas).pushAll ts =
      .ok (b.calling f lp (es ++ xs) (commas + segments.length)) := by
  induction segments generalizing ts xs commas with
  | nil =>
    cases ht
    exact ⟨[], rfl, rfl⟩
  | cons s segments ih =>
    cases ht with
    | @cons _ us _ comma hcomma ht =>
      obtain ⟨hn, hs⟩ := h s (by simp)
      obtain ⟨es, hlen, hpush⟩ := push_argument b xs commas f lp hs hn hcomma
      obtain ⟨es', hlen', hpush'⟩ := ih (es ++ xs) (commas + 1) (fun s' hs' => h s' (by simp [hs'])) ht
      refine ⟨es' ++ es, ?_, ?_⟩
      · rw [List.length_append, hlen, hlen', List.map_cons, List.sum_cons, Nat.add_comm]
      · rw [List.append_cons, pushAll_append hpush, hpush', List.length_cons]
        simp [Nat.add_assoc, Nat.add_comm 1]

lemma closeParen_call (f lp rp : Token) (hn : 0 < n) (hlen : es.length = ops.length + n) :
    ∃ es', es'.length = n ∧ ((b.calling f lp xs commas).above es ops).closeParen rp =
      (finishCall (es' ++ (xs ++ b.operands)) f b.operands.length commas).map
        (⟨·, b.pending, b.calls⟩) := by
  obtain ⟨es', hred, hlen'⟩ := reduceTo_zero (bare_calling b xs commas f lp)
    (settled_calling b xs commas f lp) hn hlen
  refine ⟨es', hlen', ?_⟩
  rw [closeParen, hred]
  rfl

lemma pushAll_call {segments : List (Nat × List Token)} (hf : f.kind = .function)
    (hlp : lp.IsSymbol "(") (hrp : rp.IsSymbol ")") (h : ∀ s ∈ segments, 0 < s.1 ∧ Adds s.1 s.2)
    (hsep : Separated (segments.map (·.2)) ts) :
    ∃ es, es.length = (segments.map (·.1)).sum ∧ b.pushAll (f :: lp :: (ts ++ [rp])) =
      (finishCall (es ++ b.operands) f b.operands.length (segments.length - 1)).map
        (⟨·, b.pending, b.calls⟩) := by
  rw [pushAll_open b hf hlp]
  rcases List.eq_nil_or_concat' segments with rfl | ⟨before, last, rfl⟩
  · cases hsep
    have hclose : (b.calling f lp [] 0).push rp =
        (finishCall b.operands f b.operands.length 0).map (⟨·, b.pending, b.calls⟩) := by
      rw [push_close hrp]
      rfl
    refine ⟨[], rfl, ?_⟩
    rw [List.nil_append, pushAll_singleton, hclose]
    rfl
  · rw [List.map_append, List.map_singleton] at hsep
    obtain ⟨front, rest, rfl, hfront, hrest⟩ := hsep.split
    obtain ⟨-, rfl⟩ := hrest.resolve_right fun hne => hne.1 rfl
    obtain ⟨xs, hxs, hpush⟩ := push_arguments b [] 0 f lp (fun s hs => h s (by simp [hs])) hfront
    obtain ⟨hn, hlast⟩ := h last (by simp)
    obtain ⟨es, ops, hpush', hlen⟩ := hlast.exists_ok (bare_calling b (xs ++ []) _ f lp)
      (settled_calling b _ _ f lp)
    obtain ⟨es', hes', hclose⟩ := closeParen_call b (xs ++ []) _ f lp rp hn hlen
    refine ⟨es' ++ xs, ?_, ?_⟩
    · simp [hxs, hes', Nat.add_comm]
    · rw [List.append_nil, List.append_assoc, pushAll_append hpush, pushAll_append hpush',
        pushAll_singleton, push_close hrp, hclose]
      simp

end Call

lemma finishCall_missing {operands : List Expr} {f : Token} {base commas : Nat}
    (h : commas + 1 < operands.length - base) :
    finishCall operands f base commas = .error (.missingOperator f.value) := by
  simp [finishCall, h]

lemma adds_call {f lp rp : Token} {args : List (List Token)} (hf : f.kind = .function)
    (harity : (Function.arityOf f.value).Admits args.length) (hlp : lp.IsSymbol "(")
    (hrp : rp.IsSymbol ")") (hargs : ∀ a ∈ args, Adds 1 a) (hsep : Separated args ts) :
    Adds 1 (f :: lp :: (ts ++ [rp])) := by
  refine .of_operand fun b _ => ?_
  have hsegments : ∀ s ∈ args.map (1, ·), 0 < s.1 ∧ Adds s.1 s.2 := by
    simpa using hargs
  obtain ⟨es, hes, hpush⟩ := pushAll_call b hf hlp hrp hsegments
    (by simpa [Function.comp_def] using hsep)
  have hlen : es.reverse.length = args.length := by simpa [Function.comp_def] using hes
  have hfinish := finishCall_append f es.reverse b.operands (args.length - 1) (by omega) (hlen ▸ harity)
  refine ⟨.call f es.reverse, ?_⟩
  rw [hpush, List.length_map]
  rw [List.reverse_reverse] at hfinish
  rw [hfinish]
  rfl

lemma adds_of_derives {e : Expr} (h : Derives e ts) (he : e.WellFormed) : Adds 1 ts := by
  induction h with
  | operand ht => exact adds_leaf ht
  | binary hop _ _ ihl ihr =>
    cases he with
    | binary _ hl hr => exact adds_binary hop (ihl hl) (ihr hr)
  | group hlp hrp _ ih => exact adds_group hlp hrp (ih he)
  | @call f lp rp args ts hf hlp hrp _ hsep ih =>
    cases he with
    | call _ harity hargs =>
      refine adds_call hf (by simpa using harity) hlp hrp ?_ hsep
      refine List.forall_mem_map.mpr fun a ha => ?_
      exact ih a ha (hargs a.1 (List.mem_map_of_mem ha))

end Builder

end FormulaAudit.Expr
