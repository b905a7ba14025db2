import FormulaAudit.Proofs.Expr.Grammar
import FormulaAudit.Proofs.Token.Names

/-!
A builder counts operands and does not look at their order, so it accepts more than the grammar
derives. On well-placed tokens the two agree: at each place the builder either waits for an operand
or has just finished one, and its stacks hold what has been derived so far. The tokens read are
given nearest first.
-/

namespace FormulaAudit.Expr.Builder

open Token

/-- Finished arguments of a call, newest first, each with a comma after it. -/
inductive Listed : List Expr → List Token → Prop
  | nil : Listed [] []
  | snoc {e : Expr} {es : List Expr} {ts back : List Token} {comma : Token} :
      Listed es back → Derives e ts → comma.IsSymbol "," →
      Listed (e :: es) (comma :: (ts.reverse ++ back))

inductive Waiting : Builder → List Token → Prop
  | start : Waiting {} []
  | operator {op : Token} {e : Expr} {ts back : List Token} {operands : List Expr}
      {pending : List Pending} {calls : List Nat} :
      Waiting ⟨operands, pending, calls⟩ back → Derives e ts → op.IsInfix →
      Waiting ⟨e :: operands, .operator op :: pending, calls⟩ (op :: (ts.reverse ++ back))
  | group {lp : Token} {back : List Token} {operands : List Expr} {pending : List Pending}
      {calls : List Nat} :
      Waiting ⟨operands, pending, calls⟩ back → lp.IsSymbol "(" →
      Waiting ⟨operands, .paren lp operands.length operands.length :: pending, calls⟩ (lp :: back)
  | call {f lp : Token} {es : List Expr} {args back : List Token} {operands : List Expr} {arg : Nat}
      {pending : List Pending} {calls : List Nat} :
      Waiting ⟨operands, pending, calls⟩ back → f.kind = .function → lp.IsSymbol "(" → Listed es args →
      Waiting ⟨es ++ operands, .paren lp operands.length arg :: .function f :: pending,
        es.length :: calls⟩ (args ++ lp :: f :: back)

inductive Finished : Builder → List Token → Prop
  | operand {e : Expr} {ts back : List Token} {operands : List Expr} {pending : List Pending}
      {calls : List Nat} :
      Waiting ⟨operands, pending, calls⟩ back → Derives e ts →
      Finished ⟨e :: operands, pending, calls⟩ (ts.reverse ++ back)

variable {b b' : Builder} {t : Token} {back after : List Token} {operands : List Expr}
  {pending : List Pending} {calls : List Nat}

def Opening : List Token → Prop
  | [] => True
  | t :: _ => t.IsInfix ∨ t.IsSymbol "(" ∨ t.IsSymbol ","

lemma Opening.not_afterOperand (h : Opening back) : ¬ AfterOperand back := by
  cases back with
  | nil => simp
  | cons t back =>
    rw [afterOperand_cons]
    rcases h with h | h | h
    · exact h.not_endsOperand
    · exact h.not_endsOperand (by simp)
    · exact h.not_endsOperand (by simp)

lemma Opening.kind_ne_function (h : Opening (t :: back)) : t.kind ≠ .function := by
  rcases h with h | h | h <;> simp [h.1]

namespace Waiting

lemma opening (h : Waiting b back) : Opening back := by
  cases h with
  | start => trivial
  | operator _ _ hop => exact .inl hop
  | group _ hlp => exact .inr (.inl hlp)
  | call _ _ hlp hl =>
    cases hl with
    | nil => exact .inr (.inl hlp)
    | snoc _ _ hcomma => exact .inr (.inr hcomma)

lemma pending_ne_function (h : Waiting b back) (f : Token) (rest : List Pending) :
    b.pending ≠ .function f :: rest := by
  cases h <;> simp

lemma of_nil (h : Waiting ⟨operands, [], calls⟩ back) : operands = [] ∧ back = [] := by
  generalize hb : (⟨operands, [], calls⟩ : Builder) = b at h
  cases h <;> simp_all

lemma of_operator {op : Token} (h : Waiting ⟨operands, .operator op :: pending, calls⟩ back) :
    ∃ l operands' ts back', operands = l :: operands' ∧ back = op :: (ts.reverse ++ back') ∧
      op.IsInfix ∧ Derives l ts ∧ Waiting ⟨operands', pending, calls⟩ back' := by
  generalize hb : (⟨operands, .operator op :: pending, calls⟩ : Builder) = b at h
  cases h with
  | start | group | call => simp at hb
  | operator hw he hop =>
    simp only [Builder.mk.injEq, List.cons.injEq, Pending.operator.injEq] at hb
    obtain ⟨rfl, ⟨rfl, rfl⟩, rfl⟩ := hb
    exact ⟨_, _, _, _, rfl, rfl, hop, he, hw⟩

lemma of_group {paren : Token} {base arg : Nat} (hne : ∀ f rest, pending ≠ .function f :: rest)
    (h : Waiting ⟨operands, .paren paren base arg :: pending, calls⟩ back) :
    ∃ back', back = paren :: back' ∧ paren.IsSymbol "(" ∧ Waiting ⟨operands, pending, calls⟩ back' := by
  generalize hb : (⟨operands, .paren paren base arg :: pending, calls⟩ : Builder) = b at h
  cases h with
  | start | operator => simp at hb
  | group hw hlp =>
    simp only [Builder.mk.injEq, List.cons.injEq, Pending.paren.injEq] at hb
    obtain ⟨rfl, ⟨⟨rfl, -, -⟩, rfl⟩, rfl⟩ := hb
    exact ⟨_, rfl, hlp, hw⟩
  | call =>
    simp only [Builder.mk.injEq, List.cons.injEq] at hb
    exact absurd hb.2.1.2 (hne _ _)

lemma of_call {paren f : Token} {base arg : Nat}
    (h : Waiting ⟨operands, .paren paren base arg :: .function f :: pending, calls⟩ back) :
    ∃ es args operands' calls' back', operands = es ++ operands' ∧ base = operands'.length ∧
      calls = es.length :: calls' ∧ back = args ++ paren :: f :: back' ∧ f.kind = .function ∧
      paren.IsSymbol "(" ∧ Listed es args ∧ Waiting ⟨operands', pending, calls'⟩ back' := by
  generalize hb : (⟨operands, .paren paren base arg :: .function f :: pending, calls⟩ : Builder) = b at h
  cases h with
  | start | operator => simp at hb
  | group hw =>
    simp only [Builder.mk.injEq, List.cons.injEq] at hb
    exact absurd hb.2.1.2.symm (hw.pending_ne_function _ _)
  | call hw hf hlp hl =>
    simp only [Builder.mk.injEq, List.cons.injEq, Pending.paren.injEq, Pending.function.injEq] at hb
    obtain ⟨rfl, ⟨⟨rfl, rfl, -⟩, rfl, rfl⟩, rfl⟩ := hb
    exact ⟨_, _, _, _, _, rfl, rfl, rfl, rfl, hf, hlp, hl, hw⟩

lemma of_callParen {lp f : Token} (h : Waiting b (lp :: f :: back)) (hlp : lp.IsSymbol "(")
    (hf : f.kind = .function) :
    ∃ operands arg pending calls,
      b = ⟨operands, .paren lp operands.length arg :: .function f :: pending, 0 :: calls⟩ ∧
      Waiting ⟨operands, pending, calls⟩ back := by
  generalize hback : lp :: f :: back = read at h
  cases h with
  | start => simp at hback
  | operator _ _ hop =>
    obtain ⟨rfl, -⟩ := List.cons.inj hback
    exact absurd hop (hlp.not_isInfix (by simp))
  | group hw _ =>
    obtain ⟨rfl, rfl⟩ := List.cons.inj hback
    exact absurd hf hw.opening.kind_ne_function
  | @call f' lp' es args back' operands arg pending calls hw _ _ hl =>
    cases hl with
    | nil =>
      simp only [List.nil_append, List.cons.injEq] at hback
      obtain ⟨rfl, rfl, rfl⟩ := hback
      exact ⟨operands, arg, pending, calls, rfl, hw⟩
    | snoc _ _ hcomma =>
      obtain ⟨rfl, -⟩ := List.cons.inj hback
      exact absurd hlp (hcomma.not_isSymbol (by simp))

end Waiting

lemma Listed.arguments {e : Expr} {es : List Expr} {ts : List Token} (h : Listed es back)
    (he : Derives e ts) :
    ∃ args : List (Expr × List Token), args.map (·.1) = (e :: es).reverse ∧
      (∀ a ∈ args, Derives a.1 a.2) ∧ Separated (args.map (·.2)) (back.reverse ++ ts) := by
  induction h generalizing e ts with
  | nil => exact ⟨[(e, ts)], rfl, by simpa using he, .single ts⟩
  | @snoc e' es ts' back comma _ he' hcomma ih =>
    obtain ⟨args, hmap, hargs, hsep⟩ := ih he'
    have hne : args.map (·.2) ≠ [] := by
      rintro hnil
      have hlen := congrArg List.length hmap
      simp [List.map_eq_nil_iff.mp hnil] at hlen
    refine ⟨args ++ [(e, ts)], by simp [hmap], ?_, ?_⟩
    · intro a ha
      rcases List.mem_append.mp ha with ha | ha
      · exact hargs a ha
      · obtain rfl := List.mem_singleton.mp ha
        exact he
    · simpa using hsep.snoc hne hcomma ts

namespace Finished

lemma afterOperand (h : Finished b back) : AfterOperand back := by
  cases h with
  | operand _ he => exact he.afterOperand _

lemma applies (h : Finished b back) (hr : Applies b b') : Finished b' back := by
  cases hr with
  | join _ =>
    obtain @⟨r, rs, _, _, _, _, hw, hr⟩ := h
    obtain ⟨l, operands, ls, back, heq, rfl, hop, hl, hw⟩ := hw.of_operator
    obtain ⟨rfl, rfl⟩ := List.cons.inj heq
    simpa using Finished.operand hw (.binary hop hl hr)

lemma reduces (h : Finished b back) (hr : Reduces b b') : Finished b' back := by
  induction hr with
  | refl => exact h
  | tail _ hstep ih => exact ih.applies hstep

lemma derives {e : Expr} (h : Finished ⟨[e], [], calls⟩ back) : Derives e back.reverse := by
  obtain @⟨_, ts, back, _, _, _, hw, he⟩ := h
  obtain ⟨-, rfl⟩ := hw.of_nil
  simpa using he

lemma not_inCall (h : Finished ⟨operands, pending, calls⟩ back) (hbelow : Below 0 pending)
    (hne : ∀ paren base arg rest, pending ≠ .paren paren base arg :: rest) : inCall 0 back = false := by
  obtain @⟨_, ts, back, operands, _, _, hw, he⟩ := h
  rw [he.closed 0 back]
  cases pending with
  | nil =>
    obtain ⟨-, rfl⟩ := hw.of_nil
    rfl
  | cons p rest =>
    cases p with
    | operator op => simp [Below] at hbelow
    | paren paren base arg => exact absurd rfl (hne paren base arg rest)
    | function f => exact absurd rfl (hw.pending_ne_function f rest)

variable {paren : Token} {base arg : Nat}

lemma closeGroup (h : Finished ⟨operands, .paren paren base arg :: pending, calls⟩ back)
    (hne : ∀ f rest, pending ≠ .function f :: rest) (ht : t.IsSymbol ")") :
    Finished ⟨operands, pending, calls⟩ (t :: back) := by
  obtain @⟨_, ts, back, _, _, _, hw, he⟩ := h
  obtain ⟨back, rfl, hlp, hw⟩ := hw.of_group hne
  simpa using Finished.operand hw (.group hlp ht he)

lemma closeCall {f : Token}
    (h : Finished ⟨operands, .paren paren base arg :: .function f :: pending, calls⟩ back)
    (ht : t.IsSymbol ")") :
    Finished ⟨.call f (operands.take (operands.length - base)).reverse ::
      operands.drop (operands.length - base), pending, calls.tail⟩ (t :: back) := by
  obtain @⟨e, ts, back, _, _, _, hw, he⟩ := h
  obtain ⟨es, us, operands, calls, back, rfl, rfl, rfl, rfl, hf, hlp, hl, hw⟩ := hw.of_call
  obtain ⟨args, hmap, hargs, hsep⟩ := hl.arguments he
  have hlen : (e :: (es ++ operands)).length - operands.length = (e :: es).length := by simp; omega
  have hcall := Finished.operand hw (.call hf hlp ht hargs hsep)
  rw [hlen, ← List.cons_append, List.take_left, List.drop_left, ← hmap]
  simpa using hcall

lemma comma (h : Finished ⟨operands, .paren paren base arg :: pending, calls⟩ back)
    (ht : t.IsSymbol ",") (hc : inCall 0 back = true) :
    Waiting ⟨operands, .paren paren base operands.length :: pending, countComma pending calls⟩
      (t :: back) := by
  obtain @⟨e, ts, back, _, _, _, hw, he⟩ := h
  by_cases hp : ∃ f rest, pending = .function f :: rest
  · obtain ⟨f, rest, rfl⟩ := hp
    obtain ⟨es, us, operands, calls, back, rfl, rfl, rfl, rfl, hf, hlp, hl, hw⟩ := hw.of_call
    simpa [countComma] using Waiting.call hw hf hlp (.snoc hl he ht)
  · obtain ⟨back, rfl, hlp, hw⟩ := hw.of_group fun f rest h => hp ⟨f, rest, h⟩
    -- the parenthesis around the operand is no call's
    rw [he.closed 0, inCall_open hlp] at hc
    obtain ⟨_, f, back, heq, -, hf⟩ := hc.exists_cons
    obtain ⟨-, rfl⟩ := List.cons.inj heq
    exact absurd hf hw.opening.kind_ne_function

end Finished

def Reads (b : Builder) (back : List Token) : Prop :=
  Waiting b back ∨ Finished b back

namespace Reads

lemma waiting (h : Reads b back) (hb : ¬ AfterOperand back) : Waiting b back :=
  h.resolve_right fun hf => hb hf.afterOperand

lemma finished (h : Reads b back) (hb : AfterOperand back) : Finished b back :=
  h.resolve_left fun hw => hw.opening.not_afterOperand hb

end Reads

lemma Reduces.eq_of_paren {paren : Token} {base arg : Nat}
    (h : Reduces ⟨operands, .paren paren base arg :: pending, calls⟩ b) :
    b = ⟨operands, .paren paren base arg :: pending, calls⟩ := by
  rcases Relation.ReflTransGen.cases_head h with rfl | ⟨b', hstep, -⟩
  · rfl
  · cases hstep

lemma Waiting.emptyCall {paren : Token} {base arg : Nat} (h : Waiting b back) (hc : AfterCallParen back)
    (ht : t.IsSymbol ")") (hr : Reduces b ⟨operands, .paren paren base arg :: pending, calls⟩) :
    ∃ f rest, pending = .function f :: rest ∧ base = operands.length ∧
      Finished ⟨.call f [] :: operands, rest, calls.tail⟩ (t :: back) := by
  obtain ⟨lp, f, back, rfl, hlp, hf⟩ := hc.exists_cons
  obtain ⟨operands, arg, pending, calls, rfl, hw⟩ := h.of_callParen hlp hf
  have heq := hr.eq_of_paren
  simp only [Builder.mk.injEq, List.cons.injEq, Pending.paren.injEq] at heq
  obtain ⟨rfl, ⟨⟨-, rfl, -⟩, rfl⟩, rfl⟩ := heq
  have hcall := Finished.operand hw (@Derives.call f lp t [] [] hf hlp ht (by simp) .nil)
  exact ⟨f, pending, rfl, rfl, hcall⟩

lemma Reads.pushes (h : Reads b back) (hp : Pushes b t b') (ht : t.kind ≠ .function)
    (hplaced : Placed back t after) : Reads b' (t :: back) := by
  cases hp with
  | operand ho =>
    have hw := h.waiting (hplaced.operand (.inl ho))
    exact .inr (.operand hw (.operand ho))
  | function hf => exact absurd hf ht
  | openParen hs =>
    have hw := h.waiting (hplaced.operand (.inr (.inr hs)))
    exact .inl (.group hw hs)
  | operator hs hr _ =>
    have hf := (h.finished (hplaced.operator hs).1).reduces hr
    obtain @⟨_, _, _, _, _, _, hw, he⟩ := hf
    exact .inl (.operator hw he hs)
  | comma hs hr =>
    rcases hplaced.part (.inl hs) with hb | ⟨hclose, -⟩
    · exact .inl (((h.finished hb).reduces hr).comma hs (hplaced.comma hs))
    · exact absurd hclose (hs.not_isSymbol (by simp))
  | strayComma hs hr hbelow hne =>
    -- no parenthesis is open, so none of a call
    rcases hplaced.part (.inl hs) with hb | ⟨hclose, -⟩
    · have hout := ((h.finished hb).reduces hr).not_inCall hbelow hne
      simp [hplaced.comma hs] at hout
    · exact absurd hclose (hs.not_isSymbol (by simp))
  | closeGroup hs hr hne =>
    rcases hplaced.part (.inr hs) with hb | ⟨-, hc⟩
    · exact .inr (((h.finished hb).reduces hr).closeGroup hne hs)
    · obtain ⟨f, rest, rfl, -⟩ := (h.waiting hc.not_afterOperand).emptyCall hc hs hr
      exact absurd rfl (hne f rest)
  | closeCall hs hr hcommas harity =>
    rcases hplaced.part (.inr hs) with hb | ⟨-, hc⟩
    · exact .inr (((h.finished hb).reduces hr).closeCall hs)
    · obtain ⟨f, rest, heq, rfl, hfin⟩ := (h.waiting hc.not_afterOperand).emptyCall hc hs hr
      obtain ⟨⟨rfl⟩, rfl⟩ := List.cons.inj heq
      exact .inr (by simpa using hfin)

lemma Reads.openCall {f lp : Token} (h : Reads b back) (hf : f.kind = .function) (hlp : lp.IsSymbol "(")
    (hplaced : Placed back f after) : Reads ((b.pushFunction f).openParen lp) (lp :: f :: back) := by
  have hw := h.waiting (hplaced.operand (.inr (.inl hf)))
  exact .inl (.call hw hf hlp .nil)

lemma Reads.runs {ts : List Token} (hc : Token.Called ts) (h : Reads b back) (hr : Runs b ts b')
    (hplaced : WellPlaced (back.reverse ++ ts)) : Reads b' (ts.reverse ++ back) := by
  induction hc generalizing b back with
  | nil =>
    cases hr
    exact h
  | @cons t us ht _ ih =>
    obtain _ | ⟨hp, hr⟩ := hr
    have hread := h.pushes hp ht (hplaced back t us rfl)
    simpa using ih hread hr (by simpa using hplaced)
  | @call f paren us hf hparen _ ih =>
    -- a function waits for its parenthesis and not for an operand, so both are read in one step
    obtain _ | ⟨hp, _ | ⟨hp', hr⟩⟩ := hr
    rw [hp.eq_pushFunction hf] at hp'
    rw [hp'.eq_openParen hparen] at hr
    have hread := h.openCall hf hparen (hplaced back f _ rfl)
    simpa using ih hread hr (by simpa using hplaced)

lemma Waiting.not_reduces {e : Expr} (h : Waiting b back)
    (hplaced : ∀ t back', back = t :: back' → Placed back' t []) : ¬ Reduces b ⟨[e], [], calls⟩ := by
  intro hr
  cases h with
  | start =>
    rcases Relation.ReflTransGen.cases_head hr with heq | ⟨b', hstep, -⟩
    · simp at heq
    · cases hstep
  | operator _ _ hop => simpa using ((hplaced _ _ rfl).operator hop).2
  | group | call => simpa using hr.eq_of_paren

lemma derives_of_ofTokens {ts : List Token} {e : Expr} (hc : Token.Called ts) (h : ofTokens ts = .ok e)
    (hplaced : WellPlaced ts) : Derives e ts := by
  obtain ⟨b, calls, hruns, hr⟩ := ofTokens_eq_ok h
  have hread : Reads b (ts.reverse ++ []) := Reads.runs hc (.inl .start) hruns hplaced
  rw [List.append_nil] at hread
  rcases hread with hw | hf
  · refine absurd hr (hw.not_reduces fun t back' hback => hplaced back' t [] ?_)
    simpa using congrArg List.reverse hback
  · simpa using (hf.reduces hr).derives

lemma derives_iff_wellPlaced {ts : List Token} {e : Expr} (hc : Token.Called ts)
    (h : ofTokens ts = .ok e) : Derives e ts ↔ WellPlaced ts :=
  ⟨Derives.wellPlaced, derives_of_ofTokens hc h⟩

end FormulaAudit.Expr.Builder
