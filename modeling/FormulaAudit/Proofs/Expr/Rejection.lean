import FormulaAudit.Proofs.Expr.Conservation
import FormulaAudit.Proofs.Expr.Surplus
import Mathlib.Algebra.Order.BigOperators.Group.List
import Mathlib.Algebra.Order.Group.Nat

/-!
How malformed lists of tokens are rejected: an operator without one of its operands, and expressions
that follow each other with nothing in between. The error does not depend on how the expressions are
made up, nor on the call they stand in.
-/

namespace FormulaAudit.Expr

open Formula (Error)

inductive Around (part : List Token) : List Token → Prop
  | alone : Around part part
  | group {lp rp : Token} : lp.IsSymbol "(" → rp.IsSymbol ")" → Around part (lp :: (part ++ [rp]))
  | argument {f lp rp : Token} {before after : List (List Token)} {ts : List Token} :
      f.kind = .function → lp.IsSymbol "(" → rp.IsSymbol ")" → (∀ a ∈ before ++ after, Phrase a) →
      Separated (before ++ part :: after) ts → Around part (f :: lp :: (ts ++ [rp]))

namespace Builder

variable {base : Builder} {es : List Expr} {ops ts part : List Token} {op t : Token} {n : Nat}

lemma adds_phrase (h : Phrase ts) : Adds 1 ts := by
  obtain ⟨e, he, hd⟩ := h
  exact adds_of_derives hd he

/-- The operator is reported while `part` is pushed, or as soon as `part` ends. -/
def Lacks (base : Builder) (part : List Token) (op : Token) : Prop :=
  base.pushAll part = .error (.missingOperand op.value op.start) ∨
    ∃ es ops, base.pushAll part = .ok (base.above es ops) ∧
      (base.above es ops).reduceTo 0 = .error (.missingOperand op.value op.start)

lemma push_operator_bare (hs : Settled base) (hop : op.IsInfix) :
    base.push op = .ok (base.above [] [op]) := by
  rw [push_joining hop, pushOperator]
  have hsame : base.reduceTo (precedence op.value) = .ok base := reduceTo_of_below (hs.below _)
  rw [hsame]
  rfl

lemma lacks_leading (h : Phrase ts) (hop : op.IsInfix) (hb : Bare base) (hs : Settled base) :
    Lacks base (op :: ts) op := by
  have hcount := adds_phrase h (base.above [] [op]) [] [] 0 (hb.above_operator op) (.inr (Nat.le_refl 1)) rfl
  rw [above_nil, Nat.zero_add] at hcount
  rw [Lacks, pushAll_cons (push_operator_bare hs hop)]
  cases hr : (base.above [] [op]).pushAll ts with
  | error e =>
    rw [hr] at hcount
    obtain ⟨op', rest, hp, rfl⟩ := hcount
    obtain ⟨⟨rfl⟩, -⟩ := List.cons.inj hp
    exact .inl rfl
  | ok b =>
    rw [hr] at hcount
    obtain ⟨es, ops, rfl, hlen⟩ := hcount
    rw [above_above]
    exact .inr ⟨es, ops ++ [op], rfl, reduceTo_zero_lacking hb hlen⟩

lemma pushAll_above_perm (h : base.pushAll ts = .ok (base.above es ops)) :
    (es.flatMap tokens ++ ops).Perm (ts.filter (·.MakesNode)) := by
  have hheld := (foldlM_push_eq_ok h).held_perm
  have hops : (ops.map Pending.operator).filterMap heldToken? = ops := by
    simp [List.filterMap_map, Function.comp_def, heldToken?]
  refine List.perm_iff_count.mpr fun x => ?_
  have hcount := hheld.count_eq x
  simp only [held, above, List.flatMap_append, List.filterMap_append, hops, List.count_append] at hcount ⊢
  omega

lemma lacks_trailing (h : Phrase ts) (hop : op.IsInfix) (hb : Bare base) (hs : Settled base) :
    ∃ op' ∈ ts ++ [op], Lacks base (ts ++ [op]) op' := by
  obtain ⟨es, ops, hpush, hlen⟩ := (adds_phrase h).exists_ok hb hs
  obtain ⟨es', ops', hpush', hlen'⟩ := (counts_push (k := 0) hop hb (.inl hs) hlen).exists_ok hs
  have hall : base.pushAll (ts ++ [op]) = .ok (base.above es' ops') := by
    rw [pushAll_append hpush, pushAll_singleton, hpush']
  have hperm := pushAll_above_perm hall
  rcases List.eq_nil_or_concat' ops' with rfl | ⟨front, last, rfl⟩
  · -- something is left of `op` itself, so the counts cannot both be zero
    obtain rfl : es' = [] := List.length_eq_zero_iff.mp hlen'
    have hmem : op ∈ (ts ++ [op]).filter (·.MakesNode) := by simp [hop.makesNode]
    exact absurd (hperm.symm.subset hmem) (by simp)
  · have hmem : last ∈ es'.flatMap tokens ++ (front ++ [last]) := by simp
    refine ⟨last, (List.mem_filter.mp (hperm.subset hmem)).1, .inr ⟨es', _, hall, ?_⟩⟩
    exact reduceTo_zero_lacking hb (by simpa using hlen')

lemma Lacks.pushAll_next (h : Lacks base part op) (ht : t.IsSymbol "," ∨ t.IsSymbol ")")
    (rest : List Token) :
    base.pushAll (part ++ t :: rest) = .error (.missingOperand op.value op.start) := by
  rcases h with herror | ⟨es, ops, hpush, hred⟩
  · rw [pushAll_append_eq, herror]
    rfl
  · have hstuck : (base.above es ops).push t = .error (.missingOperand op.value op.start) := by
      rcases ht with ht | ht
      · rw [push_comma ht, separate, hred]
        rfl
      · rw [push_close ht, closeParen, hred]
        rfl
    rw [pushAll_append hpush, pushAll_cons_eq, hstuck]
    rfl

lemma findSome?_openPosition (es : List Expr) (ops : List Token) :
    (above {} es ops).pending.reverse.findSome? openPosition = none := by
  simp [above, openPosition]

lemma finish_of_error {e : Error} (h : (above {} es ops).reduceTo 0 = .error e) :
    (above {} es ops).finish = .error e := by
  unfold finish
  rw [findSome?_openPosition]
  simp only [h]
  rfl

lemma finish_of_many {es' : List Expr} (h : (above {} es ops).reduceTo 0 = .ok (above {} es' []))
    (hlen : 2 ≤ es'.length) : (above {} es ops).finish = .error (.invalidStructure es'.length) := by
  unfold finish
  rw [findSome?_openPosition]
  simp only [h]
  rcases es' with _ | ⟨e₁, _ | ⟨e₂, es'⟩⟩
  · simp at hlen
  · simp at hlen
  · simp [above, bind, Except.bind, throw, throwThe, MonadExceptOf.throw]

lemma ofTokens_eq (h : ts ≠ []) : ofTokens ts = pushAll {} ts >>= finish := by
  unfold ofTokens
  rw [List.isEmpty_eq_false_iff.mpr h]
  rfl

lemma ofTokens_of_pushAll {e : Error} (h : pushAll {} ts = .error e) : ofTokens ts = .error e := by
  rw [ofTokens_eq, h]
  · rfl
  · rintro rfl
    simp at h

lemma Lacks.ofTokens_eq_error (h : Lacks {} part op) (hne : part ≠ []) :
    ofTokens part = .error (.missingOperand op.value op.start) := by
  rcases h with herror | ⟨es, ops, hpush, hred⟩
  · exact ofTokens_of_pushAll herror
  · rw [ofTokens_eq hne, hpush]
    exact finish_of_error hred

end Builder

namespace Around

open Builder

variable {part ts : List Token}

lemma exists_base (h : Around part ts) :
    ∃ front base, pushAll {} front = .ok base ∧ Bare base ∧ Settled base ∧
      (front = [] ∧ ts = part ∨
        ∃ t rest, ts = front ++ (part ++ t :: rest) ∧ (t.IsSymbol "," ∨ t.IsSymbol ")")) := by
  cases h with
  | alone => exact ⟨[], {}, rfl, .empty, trivial, .inl ⟨rfl, rfl⟩⟩
  | @group lp rp hlp hrp =>
    refine ⟨[lp], _, ?_, Bare.openParen {} lp, trivial, .inr ⟨rp, [], rfl, .inr hrp⟩⟩
    rw [pushAll_singleton, push_open hlp]
  | @argument f lp rp before after us hf hlp hrp hphrases hsep =>
    obtain ⟨front, rest, rfl, hfront, hrest⟩ := hsep.split
    have hbefore : ∀ s ∈ before.map (1, ·), 0 < s.1 ∧ Adds s.1 s.2 := by
      simp only [List.forall_mem_map]
      intro a ha
      exact ⟨Nat.one_pos, adds_phrase (hphrases a (by simp [ha]))⟩
    have hterminated : Terminated ((before.map (1, ·)).map (·.2)) front := by
      simpa [Function.comp_def] using hfront
    obtain ⟨xs, -, hpush⟩ := push_arguments {} [] 0 f lp hbefore hterminated
    refine ⟨f :: lp :: front, _, (pushAll_open {} hf hlp front).trans hpush, bare_calling _ _ _ f lp,
      settled_calling _ _ _ f lp, .inr ?_⟩
    rcases hrest with ⟨-, rfl⟩ | ⟨-, comma, vs, rfl, hcomma⟩
    · exact ⟨rp, [], by simp, .inr hrp⟩
    · exact ⟨comma, vs ++ [rp], by simp, .inl hcomma⟩

lemma ofTokens_eq_error (h : Around part ts) (hne : part ≠ []) {P : Token → Prop}
    (hlacks : ∀ base, Bare base → Settled base → ∃ op, P op ∧ Lacks base part op) :
    ∃ op, P op ∧ ofTokens ts = .error (.missingOperand op.value op.start) := by
  obtain ⟨front, base, hpush, hb, hs, hts⟩ := h.exists_base
  obtain ⟨op, hop, hlack⟩ := hlacks base hb hs
  refine ⟨op, hop, ?_⟩
  rcases hts with ⟨rfl, rfl⟩ | ⟨t, rest, rfl, ht⟩
  · obtain rfl := Except.ok.inj hpush
    exact hlack.ofTokens_eq_error hne
  · apply ofTokens_of_pushAll
    rw [pushAll_append hpush, hlack.pushAll_next ht]

end Around

/-- An operator without its left or its right operand is reported as such, alone, in parentheses and
among the arguments of any call. If the left one is missing, it is the operator itself that is named. -/
theorem ofTokens_of_dangling {ts : List Token} {op : Token} (h : Phrase ts) (hop : op.IsInfix) :
    (∀ us, Around (op :: ts) us → ofTokens us = .error (.missingOperand op.value op.start)) ∧
    ∀ us, Around (ts ++ [op]) us →
      ∃ op' ∈ ts ++ [op], ofTokens us = .error (.missingOperand op'.value op'.start) := by
  constructor
  · intro us hus
    obtain ⟨op', rfl, herror⟩ := hus.ofTokens_eq_error (by simp) fun base hb hs =>
      ⟨op, rfl, Builder.lacks_leading h hop hb hs⟩
    exact herror
  · intro us hus
    apply hus.ofTokens_eq_error (by simp)
    intro base hb hs
    exact Builder.lacks_trailing h hop hb hs

theorem ofTokens_of_dangling_argument :
    let a1 : Token := ⟨.cellRef, "A1", 4, 6⟩
    let times : Token := ⟨.operator, "*", 7, 8⟩
    let ts : List Token := [⟨.cellRef, "B1", 8, 10⟩, ⟨.operator, "+", 10, 11⟩, ⟨.number, "2", 11, 12⟩]
    let call : List Token := ⟨.function, "NOW", 0, 3⟩ :: ⟨.operator, "(", 3, 4⟩ ::
      ([a1] ++ ⟨.operator, ",", 6, 7⟩ :: times :: ts ++ [⟨.operator, ")", 12, 13⟩])
    let group : List Token := ⟨.operator, "(", 0, 1⟩ :: (ts ++ [times] ++ [⟨.operator, ")", 12, 13⟩])
    Phrase ts ∧ times.IsInfix ∧ Around (times :: ts) call ∧ Around (ts ++ [times]) group ∧
      ofTokens call = .error (.missingOperand "*" 7) ∧
      ∃ op ∈ ts ++ [times], ofTokens group = .error (.missingOperand op.value op.start) := by
  intro a1 times ts call group
  have hts : Phrase ts :=
    .binary (.operand ⟨.cellRef, "B1", 8, 10⟩ (by decide)) (.operand ⟨.number, "2", 11, 12⟩ (by decide))
      (by decide)
  have hop : times.IsInfix := by decide
  have hcall : Around (times :: ts) call :=
    @Around.argument _ _ _ _ [[a1]] [] _ rfl (by decide) (by decide)
      (by simpa using Phrase.operand a1 (by decide)) (.cons (by decide) (.single _))
  have hgroup : Around (ts ++ [times]) group := .group (by decide) (by decide)
  obtain ⟨hleading, htrailing⟩ := ofTokens_of_dangling hts hop
  exact ⟨hts, hop, hcall, hgroup, hleading call hcall, htrailing group hgroup⟩

section Juxtaposed

open Builder

lemma flatten_ne_nil {parts : List (List Token)} (h : ∀ part ∈ parts, Phrase part) (hne : parts ≠ []) :
    parts.flatten ≠ [] := by
  obtain ⟨part, parts, rfl⟩ := List.exists_cons_of_ne_nil hne
  simp [(h part (by simp)).ne_nil]

lemma ofTokens_flatten {parts : List (List Token)} (h : ∀ part ∈ parts, Phrase part)
    (hmany : 2 ≤ parts.length) : ofTokens parts.flatten = .error (.invalidStructure parts.length) := by
  have hne : parts ≠ [] := by
    rintro rfl
    simp at hmany
  obtain ⟨es, ops, hpush, hlen⟩ :=
    (Adds.flatten fun part hp => adds_phrase (h part hp)).exists_ok Bare.empty trivial
  obtain ⟨es', hred, hlen'⟩ := reduceTo_zero Bare.empty trivial (by omega) hlen
  rw [ofTokens_eq (flatten_ne_nil h hne), hpush, ← hlen']
  exact finish_of_many hred (by omega)

lemma length_lt_sum {segments : List (List (List Token))} (h : ∀ s ∈ segments, s ≠ [])
    (hmany : ∃ s ∈ segments, 2 ≤ s.length) : segments.length < (segments.map List.length).sum := by
  have hlt : (segments.map fun _ => 1).sum < (segments.map List.length).sum := by
    apply List.sum_lt_sum
    · intro s hs
      exact List.length_pos_iff.mpr (h s hs)
    · obtain ⟨s, hs, hlen⟩ := hmany
      exact ⟨s, hs, hlen⟩
  simpa using hlt

lemma ofTokens_call_flatten {f lp rp : Token} {segments : List (List (List Token))} {ts : List Token}
    (hf : f.kind = .function) (hlp : lp.IsSymbol "(") (hrp : rp.IsSymbol ")")
    (h : ∀ s ∈ segments, s ≠ [] ∧ ∀ part ∈ s, Phrase part) (hmany : ∃ s ∈ segments, 2 ≤ s.length)
    (hsep : Separated (segments.map List.flatten) ts) :
    ofTokens (f :: lp :: (ts ++ [rp])) = .error (.missingOperator f.value) := by
  have hsegments : ∀ s ∈ segments.map fun s => (s.length, s.flatten), 0 < s.1 ∧ Adds s.1 s.2 := by
    simp only [List.forall_mem_map]
    intro s hs
    exact ⟨List.length_pos_iff.mpr (h s hs).1, .flatten fun part hp => adds_phrase ((h s hs).2 part hp)⟩
  obtain ⟨es, hes, hpush⟩ := pushAll_call {} hf hlp hrp hsegments (by simpa [Function.comp_def] using hsep)
  rw [List.map_map] at hes
  have hlt : segments.length < es.length := hes ▸ length_lt_sum (fun s hs => (h s hs).1) hmany
  apply ofTokens_of_pushAll
  rw [hpush, finishCall_missing]
  · rfl
  · simp only [List.append_nil, List.length_nil, List.length_map]
    have : 0 < segments.length := List.length_pos_of_mem hmany.choose_spec.1
    omega

theorem ofTokens_of_juxtaposed :
    (∀ parts : List (List Token), (∀ part ∈ parts, Phrase part) → 2 ≤ parts.length →
      ofTokens parts.flatten = .error (.invalidStructure parts.length)) ∧
    ∀ (f lp rp : Token) (segments : List (List (List Token))) (ts : List Token),
      f.kind = .function → lp.IsSymbol "(" → rp.IsSymbol ")" →
      (∀ s ∈ segments, s ≠ [] ∧ ∀ part ∈ s, Phrase part) → (∃ s ∈ segments, 2 ≤ s.length) →
      Separated (segments.map List.flatten) ts →
      ofTokens (f :: lp :: (ts ++ [rp])) = .error (.missingOperator f.value) := by
  constructor
  · intro parts h hmany
    exact ofTokens_flatten h hmany
  · intro f lp rp segments ts hf hlp hrp h hmany hsep
    exact ofTokens_call_flatten hf hlp hrp h hmany hsep

theorem ofTokens_of_juxtaposed_argument :
    let sum : List Token := [⟨.cellRef, "A1", 6, 8⟩, ⟨.operator, "+", 8, 9⟩, ⟨.cellRef, "B1", 9, 11⟩]
    let two : List Token := [⟨.number, "2", 12, 13⟩]
    let three : List Token := [⟨.number, "3", 4, 5⟩]
    let call : List Token := ⟨.function, "NOW", 0, 3⟩ :: ⟨.operator, "(", 3, 4⟩ ::
      (three ++ ⟨.operator, ",", 5, 6⟩ :: (sum ++ two) ++ [⟨.operator, ")", 13, 14⟩])
    Phrase sum ∧ Phrase two ∧ Phrase three ∧ ofTokens (sum ++ two) = .error (.invalidStructure 2) ∧
      ofTokens call = .error (.missingOperator "NOW") := by
  intro sum two three call
  have hsum : Phrase sum :=
    .binary (.operand ⟨.cellRef, "A1", 6, 8⟩ (by decide)) (.operand ⟨.cellRef, "B1", 9, 11⟩ (by decide))
      (by decide)
  have htwo : Phrase two := .operand _ (by decide)
  have hthree : Phrase three := .operand _ (by decide)
  obtain ⟨halone, hcall⟩ := ofTokens_of_juxtaposed
  refine ⟨hsum, htwo, hthree, halone [sum, two] (by simp [hsum, htwo]) (Nat.le_refl 2), ?_⟩
  exact hcall _ _ _ [[three], [sum, two]] _ rfl (by decide) (by decide) (by simp [hsum, htwo, hthree])
    (by simp) (.cons (by decide) (.single _))

end Juxtaposed

end FormulaAudit.Expr
