import FormulaAudit.Proofs.Expr.Conservation
import FormulaAudit.Proofs.Token.Names
import FormulaAudit.Proofs.Token.Nesting

/-!
How far an operator or a call reaches for its operands. Open parentheses remember heights of the operand
stack; what these heights stand for is the place in the source where the parenthesis or the current
argument starts. So the stacks are split along the source: each open parenthesis has the operands of its
finished arguments, and those of its current one above them.
-/

namespace FormulaAudit.Expr

open Token

/-- The operands of an operator inside parentheses come from its own argument, and the arguments of a
call are all that stands between its parentheses. -/
def Confined (ts : List Token) : Expr → Prop
  | .leaf _ => True
  | .binary op l r => ∃ back after, ts = back.reverse ++ op :: after ∧
      (Enclosed back → l.tokens ++ r.tokens ⊆ argument back op after)
  | .call f args => ∃ before lp inner rp after, ts = before ++ f :: lp :: (inner ++ rp :: after) ∧
      lp.IsSymbol "(" ∧ rp.IsSymbol ")" ∧ Nested "(" ")" true inner ∧
      (args.flatMap tokens).Perm (inner.filter (·.MakesNode))

lemma argument_append (back after us : List Token) (t : Token) :
    argument back t after ⊆ argument back t (after ++ us) := by
  have hsub := (segment_isPrefix "(" ")" 0 after us).subset
  intro x hx
  simp only [argument, List.mem_append, List.mem_cons] at hx ⊢
  rcases hx with hx | rfl | hx
  · exact .inl hx
  · exact .inr (.inl rfl)
  · exact .inr (.inr (hsub hx))

lemma confined_behind {edge op : Token} {l r : Expr} {left right : List Token} (front : List Token)
    (hedge : edge.IsSymbol "(" ∨ edge.IsSymbol ",") (hleft : Nested "(" ")" false left)
    (hright : Nested "(" ")" false right) (hsub : l.tokens ++ r.tokens ⊆ left ++ op :: right) :
    Confined (front ++ edge :: (left ++ op :: right)) (.binary op l r) := by
  refine ⟨(front ++ edge :: left).reverse, right, by simp, fun _ => ?_⟩
  rwa [argument_of_nested hedge hleft hright]

lemma Confined.append {ts : List Token} {e : Expr} (h : Confined ts e) (us : List Token) :
    Confined (ts ++ us) e := by
  cases e with
  | leaf => trivial
  | binary op l r =>
    obtain ⟨back, after, rfl, hsub⟩ := h
    refine ⟨back, after ++ us, by simp, fun hb => ?_⟩
    exact fun x hx => argument_append back after us op (hsub hb hx)
  | call f args =>
    obtain ⟨before, lp, inner, rp, after, rfl, h⟩ := h
    exact ⟨before, lp, inner, rp, after ++ us, by simp, h⟩

namespace Builder

structure Made (commas : Bool) (es : List Expr) (ops ts : List Token) : Prop where
  nested : Nested "(" ")" commas ts
  perm : (es.flatMap tokens ++ ops).Perm (ts.filter (·.MakesNode))
  direct : ∀ op ∈ ops, ∃ left right, ts = left ++ op :: right ∧ Nested "(" ")" commas left ∧
    Nested "(" ")" commas right

namespace Made

variable {commas : Bool} {es xs : List Expr} {ops ts us : List Token} {op : Token} {l r : Expr}

lemma nil : Made commas [] [] [] :=
  ⟨.nil, .refl _, by simp⟩

lemma append (h : Made commas es ops ts) (hn : Nested "(" ")" commas us)
    (hp : (xs.flatMap tokens).Perm (us.filter (·.MakesNode))) : Made commas (xs ++ es) ops (ts ++ us) := by
  refine ⟨h.nested.append hn, ?_, ?_⟩
  · refine List.perm_iff_count.mpr fun x => ?_
    have hts := h.perm.count_eq x
    have hus := hp.count_eq x
    simp only [List.flatMap_append, List.filter_append, List.count_append] at hts hus ⊢
    omega
  · intro op hop
    obtain ⟨left, right, rfl, hl, hr⟩ := h.direct op hop
    exact ⟨left, right ++ us, by simp, hl, hr.append hn⟩

lemma operator (h : Made commas es ops ts) (hop : op.IsInfix) :
    Made commas es (op :: ops) (ts ++ [op]) := by
  refine ⟨h.nested.append hop.nested, ?_, ?_⟩
  · have hcons := List.perm_middle.trans (h.perm.cons op)
    refine hcons.trans ?_
    simpa [List.filter_append, hop.makesNode] using (List.perm_append_singleton op _).symm
  · intro op' hop'
    rcases List.mem_cons.mp hop' with rfl | hop'
    · exact ⟨ts, [], rfl, h.nested, .nil⟩
    · obtain ⟨left, right, rfl, hl, hr⟩ := h.direct op' hop'
      exact ⟨left, right ++ [op], by simp, hl, hr.append hop.nested⟩

lemma join (h : Made commas (r :: l :: es) (op :: ops) ts) : Made commas (.binary op l r :: es) ops ts := by
  refine ⟨h.nested, ?_, fun op' hop' => h.direct op' (by simp [hop'])⟩
  refine List.perm_iff_count.mpr fun x => ?_
  have hcount := h.perm.count_eq x
  simp only [List.flatMap_cons, tokens_binary, List.count_append, List.count_cons] at hcount ⊢
  omega

lemma comma (h : Made true es ops ts) {t : Token} (ht : t.IsSymbol ",") : Made true es ops (ts ++ [t]) := by
  have hnone : (([] : List Expr).flatMap tokens).Perm ([t].filter (·.MakesNode)) := by
    simp [ht.not_makesNode]
  exact h.append ht.nested_comma hnone

lemma subset (h : Made commas es ops ts) {e : Expr} (he : e ∈ es) : e.tokens ⊆ ts := by
  intro t ht
  have hmem : t ∈ es.flatMap tokens ++ ops :=
    List.mem_append_left _ (List.mem_flatMap.mpr ⟨e, he, ht⟩)
  exact (List.mem_filter.mp (h.perm.subset hmem)).1

end Made

inductive Spans : List Expr → List Pending → List Token → Prop
  | outside {es : List Expr} {ops ts : List Token} : Made true es ops ts →
      Spans es (ops.map .operator) ts
  | inside {operands es es' : List Expr} {pending : List Pending} {ts args seg ops : List Token}
      {callee : Option Token} {lp : Token} :
      Spans operands pending ts → (∀ f ∈ callee, f.kind = .function) → lp.IsSymbol "(" →
      Made true es' [] args → (args = [] ∨ ∃ front comma, args = front ++ [comma] ∧ comma.IsSymbol ",") →
      Made false es ops seg →
      Spans (es ++ (es' ++ operands))
        (ops.map .operator ++
          .paren lp operands.length (es' ++ operands).length :: (callee.toList.map .function ++ pending))
        (ts ++ (callee.toList ++ lp :: (args ++ seg)))

lemma eq_of_floor_le {l r : Expr} {es operands rest : List Expr} (h : r :: l :: operands = es ++ rest)
    (hlen : rest.length ≤ operands.length) : ∃ es', es = r :: l :: es' ∧ operands = es' ++ rest := by
  have happend : [r, l] ++ operands = es ++ rest := h
  rcases List.append_eq_append_iff.mp happend with ⟨es', rfl, rfl⟩ | ⟨more, hes, rfl⟩
  · exact ⟨es', rfl, rfl⟩
  · obtain rfl : more = [] := by
      rw [← List.length_eq_zero_iff]
      simp only [List.length_append] at hlen
      omega
    exact ⟨[], by simpa using hes.symm, by simp⟩

namespace Spans

variable {operands xs : List Expr} {pending : List Pending} {ts us : List Token} {t lp op : Token}
  {base arg : Nat}

lemma ne_function (h : Spans operands pending ts) (f : Token) (rest : List Pending) :
    pending ≠ .function f :: rest := by
  cases h with
  | @outside es ops => cases ops <;> simp
  | @inside _ _ _ _ _ _ _ ops => cases ops <;> simp

lemma extend (h : Spans operands pending ts) (hn : Nested "(" ")" false us)
    (hp : (xs.flatMap tokens).Perm (us.filter (·.MakesNode))) : Spans (xs ++ operands) pending (ts ++ us) := by
  cases h with
  | outside hmade => exact .outside (hmade.append hn.weaken hp)
  | inside h hf hlp hargs hedge hseg =>
    have h' := Spans.inside h hf hlp hargs hedge (hseg.append hn hp)
    simpa using h'

lemma operator (h : Spans operands pending ts) (hop : op.IsInfix) :
    Spans operands (.operator op :: pending) (ts ++ [op]) := by
  cases h with
  | outside hmade => exact .outside (hmade.operator hop)
  | inside h hf hlp hargs hedge hseg =>
    have h' := Spans.inside h hf hlp hargs hedge (hseg.operator hop)
    simpa using h'

lemma openParen (h : Spans operands pending ts) (callee : Option Token)
    (hf : ∀ f ∈ callee, f.kind = .function) (hlp : lp.IsSymbol "(") :
    Spans operands (.paren lp operands.length operands.length :: (callee.toList.map .function ++ pending))
      (ts ++ (callee.toList ++ [lp])) :=
  .inside h hf hlp .nil (.inl rfl) .nil

lemma of_nil (h : Spans operands [] ts) : Made true operands [] ts := by
  generalize hp : ([] : List Pending) = pending at h
  cases h with
  | outside hmade =>
    obtain rfl := List.map_eq_nil_iff.mp hp.symm
    exact hmade
  | inside => simp at hp

lemma of_paren (h : Spans operands (.paren lp base arg :: pending) ts) :
    ∃ (callee : Option Token) (xs operands' : List Expr) (inner ts' : List Token) (pending' : List Pending),
      operands = xs ++ operands' ∧ base = operands'.length ∧
      pending = callee.toList.map .function ++ pending' ∧ ts = ts' ++ (callee.toList ++ lp :: inner) ∧
      Spans operands' pending' ts' ∧ (∀ f ∈ callee, f.kind = .function) ∧ lp.IsSymbol "(" ∧
      Made true xs [] inner := by
  generalize hp : Pending.paren lp base arg :: pending = pending₀ at h
  cases h with
  | @outside es ops =>
    cases ops <;> simp at hp
  | @inside operands es es' pending' ts' args seg ops callee lp' h hf hlp hargs _ hseg =>
    cases ops with
    | cons => simp at hp
    | nil =>
      simp only [List.map_nil, List.nil_append, List.cons.injEq, Pending.paren.injEq] at hp
      obtain ⟨⟨rfl, rfl, -⟩, rfl⟩ := hp
      have hall : Made true (es ++ es') [] (args ++ seg) :=
        hargs.append hseg.nested.weaken (by simpa using hseg.perm)
      exact ⟨callee, es ++ es', operands, args ++ seg, ts', pending', by simp, rfl, rfl, rfl, h, hf, hlp,
        hall⟩

lemma comma (h : Spans operands (.paren lp base arg :: pending) ts) (ht : t.IsSymbol ",") :
    Spans operands (.paren lp base operands.length :: pending) (ts ++ [t]) := by
  obtain ⟨callee, xs, operands, inner, ts, pending, rfl, rfl, rfl, rfl, hout, hf, hlp, hmade⟩ := h.of_paren
  have h' := Spans.inside hout hf hlp (hmade.comma ht) (.inr ⟨inner, t, rfl, ht⟩) .nil
  simpa using h'

lemma pending_eq_nil (h : Spans operands pending ts) (hbelow : Below 0 pending)
    (hne : ∀ paren base arg rest, pending ≠ .paren paren base arg :: rest) : pending = [] := by
  cases pending with
  | nil => rfl
  | cons p rest =>
    cases p with
    | operator op => simp [Below] at hbelow
    | paren paren base arg => exact absurd rfl (hne paren base arg rest)
    | function f => exact absurd rfl (h.ne_function f rest)

lemma strayComma (h : Spans operands pending ts) (hbelow : Below 0 pending)
    (hne : ∀ paren base arg rest, pending ≠ .paren paren base arg :: rest) (ht : t.IsSymbol ",") :
    Spans operands pending (ts ++ [t]) := by
  obtain rfl := h.pending_eq_nil hbelow hne
  exact .outside (h.of_nil.comma ht)

lemma filter_enclose {lp rp : Token} (hlp : lp.IsSymbol "(") (hrp : rp.IsSymbol ")") (inner : List Token) :
    (lp :: (inner ++ [rp])).filter (·.MakesNode) = inner.filter (·.MakesNode) := by
  simp [hlp.not_makesNode, hrp.not_makesNode]

lemma closeGroup (h : Spans operands (.paren lp base arg :: pending) ts) (ht : t.IsSymbol ")")
    (hne : ∀ f rest, pending ≠ .function f :: rest) : Spans operands pending (ts ++ [t]) := by
  obtain ⟨callee, xs, operands, inner, ts, pending, rfl, rfl, rfl, rfl, hout, hf, hlp, hmade⟩ := h.of_paren
  cases callee with
  | some f => exact absurd rfl (hne f pending)
  | none =>
    have hperm : (xs.flatMap tokens).Perm ((lp :: (inner ++ [t])).filter (·.MakesNode)) := by
      rw [filter_enclose hlp ht]
      simpa using hmade.perm
    simpa using hout.extend (.enclose hlp ht hmade.nested) hperm

lemma closeCall {f : Token} (h : Spans operands (.paren lp base arg :: .function f :: pending) ts)
    (ht : t.IsSymbol ")") :
    let call := Expr.call f (operands.take (operands.length - base)).reverse
    Spans (call :: operands.drop (operands.length - base)) pending (ts ++ [t]) ∧
      Confined (ts ++ [t]) call := by
  obtain ⟨callee, xs, operands, inner, ts, pending', rfl, rfl, hp, rfl, hout, hf, hlp, hmade⟩ :=
    h.of_paren
  cases callee with
  | none => exact absurd hp.symm (hout.ne_function f pending)
  | some g =>
    obtain ⟨⟨rfl⟩, rfl⟩ := List.cons.inj hp
    have hk : f.kind = .function := hf f rfl
    have hlen : (xs ++ operands).length - operands.length = xs.length := by simp
    rw [hlen, List.take_left, List.drop_left]
    have hperm : (xs.reverse.flatMap tokens).Perm (inner.filter (·.MakesNode)) :=
      ((List.reverse_perm xs).flatMap_right _).trans (by simpa using hmade.perm)
    constructor
    · have hcall : ([Expr.call f xs.reverse].flatMap tokens).Perm
          ((f :: (lp :: (inner ++ [t]))).filter (·.MakesNode)) := by
        rw [List.filter_cons_of_pos (by simpa using makesNode_of_function hk), filter_enclose hlp ht]
        simpa using hperm.cons f
      have hnested : Nested "(" ")" false ([f] ++ lp :: (inner ++ [t])) :=
        (nested_of_function hk).append (.enclose hlp ht hmade.nested)
      simpa using hout.extend hnested hcall
    · exact ⟨ts, lp, inner, t, [], by simp, hlp, ht, hmade.nested, hperm⟩

lemma applies {l r : Expr} (h : Spans (r :: l :: operands) (.operator op :: pending) ts)
    (hfloor : floor pending ≤ operands.length) :
    Spans (.binary op l r :: operands) pending ts ∧ Confined ts (.binary op l r) := by
  generalize ho : r :: l :: operands = operands₀ at h
  generalize hp : Pending.operator op :: pending = pending₀ at h
  cases h with
  | @outside es ops ts hmade =>
    subst ho
    cases ops with
    | nil => simp at hp
    | cons op' ops =>
      simp only [List.map_cons, List.cons.injEq, Pending.operator.injEq] at hp
      obtain ⟨rfl, rfl⟩ := hp
      obtain ⟨left, right, rfl, hleft, -⟩ := hmade.direct op (by simp)
      refine ⟨.outside hmade.join, left.reverse, right, by simp, fun hback => ?_⟩
      exact absurd hback (not_enclosed hleft)
  | @inside outer es es' pending' ts' args seg ops callee lp hout hf hlp hargs hedge hseg =>
    cases ops with
    | nil => simp at hp
    | cons op' ops =>
      simp only [List.map_cons, List.cons_append, List.cons.injEq, Pending.operator.injEq] at hp
      obtain ⟨rfl, rfl⟩ := hp
      -- both operands lie above the floor, which is where the current argument starts
      rw [floor_operators] at hfloor
      obtain ⟨es, rfl, rfl⟩ := eq_of_floor_le ho hfloor
      obtain ⟨left, right, rfl, hleft, hright⟩ := hseg.direct op (by simp)
      have h' := Spans.inside hout hf hlp hargs hedge hseg.join
      refine ⟨by simpa using h', ?_⟩
      have hsub : l.tokens ++ r.tokens ⊆ left ++ op :: right :=
        List.append_subset.mpr ⟨hseg.subset (by simp), hseg.subset (by simp)⟩
      -- the argument starts behind a comma or behind the parenthesis itself
      rcases hedge with rfl | ⟨front, comma, rfl, hcomma⟩
      · simpa using confined_behind (ts' ++ callee.toList) (.inl hlp) hleft hright hsub
      · simpa using confined_behind (ts' ++ callee.toList ++ lp :: front) (.inr hcomma) hleft hright hsub

end Spans

structure Located (b : Builder) (ts : List Token) : Prop where
  spans : Spans b.operands b.pending ts
  confined : ∀ e ∈ b.operands, ∀ n ∈ e.nodes, Confined ts n

namespace Located

variable {b b' : Builder} {ts : List Token} {t : Token}

lemma empty : Located {} [] :=
  ⟨.outside .nil, by simp⟩

lemma of_children {operands : List Expr} {e : Expr} (h : ∀ c ∈ operands, ∀ n ∈ c.nodes, Confined ts n)
    (hc : e.children ⊆ operands) (he : Confined ts e) : ∀ n ∈ e.nodes, Confined ts n := by
  intro n hn
  rcases mem_nodes_iff.mp hn with rfl | ⟨c, hmem, hn⟩
  · exact he
  · exact h c (hc hmem) n hn

lemma applies (h : Located b ts) (hr : Applies b b') : Located b' ts := by
  obtain @⟨op, l, r, operands, pending, calls, hfloor⟩ := hr
  obtain ⟨hspans, hnode⟩ := h.spans.applies hfloor
  refine ⟨hspans, fun e he => ?_⟩
  rcases List.mem_cons.mp he with rfl | he
  · exact of_children h.confined (by simp [children]) hnode
  · exact h.confined e (by simp [he])

lemma reduces (h : Located b ts) (hr : Reduces b b') : Located b' ts := by
  induction hr with
  | refl => exact h
  | tail _ hstep ih => exact ih.applies hstep

lemma append (h : Located b ts) {pending : List Pending} {calls : List Nat}
    (hspans : Spans b.operands pending (ts ++ [t])) : Located ⟨b.operands, pending, calls⟩ (ts ++ [t]) :=
  ⟨hspans, fun e he n hn => (h.confined e he n hn).append [t]⟩

lemma operand (h : Located b ts) (ht : t.IsOperand) : Located (b.pushOperand t) (ts ++ [t]) := by
  have hperm : ([Expr.leaf t].flatMap tokens).Perm ([t].filter (·.MakesNode)) := by
    simp [ht.makesNode]
  refine ⟨h.spans.extend ht.nested hperm, fun e he => ?_⟩
  rcases List.mem_cons.mp he with rfl | he
  · simp [nodes_eq, children, Confined]
  · exact fun n hn => (h.confined e he n hn).append [t]

lemma closeCall {operands : List Expr} {paren f : Token} {base arg : Nat} {pending : List Pending}
    {calls calls' : List Nat}
    (h : Located ⟨operands, .paren paren base arg :: .function f :: pending, calls⟩ ts)
    (ht : t.IsSymbol ")") :
    Located ⟨.call f (operands.take (operands.length - base)).reverse ::
      operands.drop (operands.length - base), pending, calls'⟩ (ts ++ [t]) := by
  obtain ⟨hspans, hnode⟩ := h.spans.closeCall ht
  have hkept : ∀ e ∈ operands, ∀ n ∈ e.nodes, Confined (ts ++ [t]) n :=
    fun e he n hn => (h.confined e he n hn).append [t]
  refine ⟨hspans, fun e he => ?_⟩
  rcases List.mem_cons.mp he with rfl | he
  · apply of_children hkept _ hnode
    exact fun a ha => List.mem_of_mem_take (List.mem_reverse.mp ha)
  · exact hkept e (List.mem_of_mem_drop he)

lemma pushes (h : Located b ts) (hp : Pushes b t b') (ht : t.kind ≠ .function) : Located b' (ts ++ [t]) := by
  cases hp with
  | operand ho => exact h.operand ho
  | function hf => exact absurd hf ht
  | openParen hs => exact h.append (h.spans.openParen none (by simp) hs)
  | operator hs hr _ =>
    have h' := h.reduces hr
    exact h'.append (h'.spans.operator hs)
  | comma hs hr =>
    have h' := h.reduces hr
    exact h'.append (h'.spans.comma hs)
  | strayComma hs hr hbelow hne =>
    have h' := h.reduces hr
    exact h'.append (h'.spans.strayComma hbelow hne hs)
  | closeGroup hs hr hne =>
    have h' := h.reduces hr
    exact h'.append (h'.spans.closeGroup hs hne)
  | closeCall hs hr _ _ => exact (h.reduces hr).closeCall hs

lemma openCall {f lp : Token} (h : Located b ts) (hf : f.kind = .function) (hlp : lp.IsSymbol "(") :
    Located ((b.pushFunction f).openParen lp) (ts ++ [f, lp]) := by
  refine ⟨h.spans.openParen (some f) (by simpa using hf) hlp, ?_⟩
  exact fun e he n hn => (h.confined e he n hn).append [f, lp]

lemma runs {ts' : List Token} (hc : Called ts') (h : Located b ts) (hr : Runs b ts' b') :
    Located b' (ts ++ ts') := by
  induction hc generalizing b ts with
  | nil =>
    cases hr
    simpa using h
  | cons ht _ ih =>
    obtain _ | ⟨hp, hr⟩ := hr
    simpa using ih (h.pushes hp ht) hr
  | @call f paren us hf hparen _ ih =>
    -- a function waits for its parenthesis, which makes the two of them one step
    obtain _ | ⟨hp, _ | ⟨hp', hr⟩⟩ := hr
    rw [hp.eq_pushFunction hf] at hp'
    rw [hp'.eq_openParen hparen] at hr
    simpa using ih (h.openCall hf hparen) hr

end Located

lemma nested_and_confined {ts : List Token} {e : Expr} (hc : Called ts) (h : ofTokens ts = .ok e) :
    Nested "(" ")" true ts ∧ ∀ n ∈ e.nodes, Confined ts n := by
  obtain ⟨b, calls, hruns, hr⟩ := ofTokens_eq_ok h
  have hend := (Located.empty.runs hc hruns).reduces hr
  exact ⟨hend.spans.of_nil.nested, hend.confined e (by simp)⟩

end Builder

end FormulaAudit.Expr
