import FormulaAudit.Proofs.Expr.Confinement
import FormulaAudit.Proofs.Formula.References
import FormulaAudit.Proofs.Token.Coverage
import Mathlib.Data.List.Basic
import Mathlib.Data.List.Nodup

/-!
In an accepted formula every operator and every call has operands from its own part of the source only.
The tokens of a text differ from each other, so that each node of the expression has one place in it.
-/

namespace FormulaAudit

open Token

namespace Expr

variable {e n c : Expr} {t : Token}

lemma tokens_subset_of_mem_children (h : c ∈ e.children) : c.tokens ⊆ e.tokens := by
  rw [tokens_eq e]
  intro t ht
  exact List.mem_cons_of_mem _ (List.mem_flatMap.mpr ⟨c, h, ht⟩)

lemma tokens_subset_of_mem_nodes (h : n ∈ e.nodes) : n.tokens ⊆ e.tokens := by
  induction e using children_induction with
  | step e ih =>
    rcases mem_nodes_iff.mp h with rfl | ⟨c, hc, hn⟩
    · exact List.Subset.refl _
    · exact List.Subset.trans (ih c hc hn) (tokens_subset_of_mem_children hc)

lemma token_mem_tokens (e : Expr) : e.token ∈ e.tokens := by
  rw [tokens_eq]
  exact List.mem_cons_self

lemma nodup_children (h : e.tokens.Nodup) : (e.children.flatMap tokens).Nodup := by
  rw [tokens_eq] at h
  exact (List.nodup_cons.mp h).2

lemma nodup_of_mem_children (h : e.tokens.Nodup) (hc : c ∈ e.children) : c.tokens.Nodup :=
  (List.nodup_flatMap.mp (nodup_children h)).1 c hc

lemma eq_of_nodup_flatMap {es : List Expr} {c' : Expr} (h : (es.flatMap tokens).Nodup) (hc : c ∈ es)
    (hc' : c' ∈ es) (ht : t ∈ c.tokens) (ht' : t ∈ c'.tokens) : c = c' := by
  induction es with
  | nil => simp at hc
  | cons x es ih =>
    rw [List.flatMap_cons, List.nodup_append'] at h
    obtain ⟨-, hes, hdisjoint⟩ := h
    rcases List.mem_cons.mp hc with rfl | hmem
    · rcases List.mem_cons.mp hc' with rfl | hmem'
      · rfl
      · exact absurd (List.mem_flatMap.mpr ⟨c', hmem', ht'⟩) (hdisjoint ht)
    · rcases List.mem_cons.mp hc' with rfl | hmem'
      · exact absurd (List.mem_flatMap.mpr ⟨c, hmem, ht⟩) (hdisjoint ht')
      · exact ih hes hmem hmem'

lemma function_mem_of_mem {f : Token} {args : List Expr} (hnodup : e.tokens.Nodup)
    (hcall : .call f args ∈ e.nodes) (hn : n ∈ e.nodes) (hout : n.token ∉ f :: args.flatMap tokens)
    (hc : c ∈ n.children) (ht : t ∈ c.tokens) (harg : t ∈ args.flatMap tokens) : f ∈ c.tokens := by
  -- down to the node where the ways to the call and to `n` part: there the call lies within `c` whole
  induction e using children_induction with
  | step e ih =>
    rcases mem_nodes_iff.mp hcall with rfl | ⟨x, hx, hcall⟩
    · -- the node is the call or lies in one of its arguments
      have hmem := tokens_subset_of_mem_nodes hn (token_mem_tokens n)
      rw [tokens_call] at hmem
      exact absurd hmem hout
    · have hsub : (Expr.call f args).tokens ⊆ x.tokens := tokens_subset_of_mem_nodes hcall
      rw [tokens_call] at hsub
      have htx : t ∈ x.tokens := hsub (List.mem_cons_of_mem f harg)
      rcases mem_nodes_iff.mp hn with rfl | ⟨y, hy, hn⟩
      · obtain rfl := eq_of_nodup_flatMap (nodup_children hnodup) hc hx ht htx
        exact hsub List.mem_cons_self
      · have hty : t ∈ y.tokens :=
          tokens_subset_of_mem_nodes hn (tokens_subset_of_mem_children hc ht)
        obtain rfl := eq_of_nodup_flatMap (nodup_children hnodup) hx hy htx hty
        exact ih x hx (nodup_of_mem_children hnodup hx) hcall hn

end Expr

namespace Formula

lemma nodup_tokens (s : String) : (tokens s).Nodup :=
  (Token.scans_scanFrom 0 (body s)).nodup

lemma tokens_of_parse {s : String} {e : Expr} (h : parse s = .ok e) :
    e.tokens.Perm ((tokens s).filter (·.MakesNode)) :=
  Expr.Builder.tokens_of_ofTokens (ofTokens_of_parse h)

theorem reach_of_parse {s : String} {e : Expr} (h : parse s = .ok e) :
    (tokens s).Nodup ∧ Nested "(" ")" true (tokens s) ∧
    (∀ op l r, .binary op l r ∈ e.nodes → ∃ back after, tokens s = back.reverse ++ op :: after ∧
      (Enclosed back → l.tokens ++ r.tokens ⊆ argument back op after)) ∧
    ∀ f args, .call f args ∈ e.nodes → ∃ before lp inner rp after,
      tokens s = before ++ f :: lp :: (inner ++ rp :: after) ∧ lp.IsSymbol "(" ∧ rp.IsSymbol ")" ∧
      Nested "(" ")" true inner ∧ (∀ a ∈ args, a.tokens ⊆ inner) ∧
      ∀ n ∈ e.nodes, n.token ∉ f :: inner → ∀ c ∈ n.children, (∃ t ∈ c.tokens, t ∈ inner) →
        f ∈ c.tokens := by
  obtain ⟨hnested, hconfined⟩ :=
    Expr.Builder.nested_and_confined (called_scanFrom 0 (body s)) (ofTokens_of_parse h)
  have hperm := tokens_of_parse h
  have hnodup : e.tokens.Nodup := hperm.nodup_iff.mpr ((nodup_tokens s).filter _)
  refine ⟨nodup_tokens s, hnested, fun op l r hn => hconfined _ hn, fun f args hcall => ?_⟩
  obtain ⟨before, lp, inner, rp, after, hts, hlp, hrp, hinner, hargs⟩ := hconfined _ hcall
  have hsub : args.flatMap Expr.tokens ⊆ inner := fun t ht => (List.mem_filter.mp (hargs.subset ht)).1
  refine ⟨before, lp, inner, rp, after, hts, hlp, hrp, hinner, ?_, ?_⟩
  · exact fun a ha t ht => hsub (List.mem_flatMap.mpr ⟨a, ha, ht⟩)
  · rintro n hn hout c hc ⟨t, ht, hin⟩
    have hnode : t ∈ e.tokens :=
      Expr.tokens_subset_of_mem_nodes hn (Expr.tokens_subset_of_mem_children hc ht)
    have hmakes := (List.mem_filter.mp (hperm.subset hnode)).2
    have harg : t ∈ args.flatMap Expr.tokens := hargs.symm.subset (List.mem_filter.mpr ⟨hin, hmakes⟩)
    refine Expr.function_mem_of_mem hnodup hcall hn (fun hmem => hout ?_) hc ht harg
    rcases List.mem_cons.mp hmem with hf | hmem
    · exact hf ▸ List.mem_cons_self
    · exact List.mem_cons_of_mem _ (hsub hmem)

theorem reach_of_parse_second_argument :
    let s := "=B1*SUM(A1,(C1+2)*NOW())"
    let times : Token := ⟨.operator, "*", 16, 17⟩
    let sum := Expr.binary ⟨.operator, "+", 13, 14⟩ (.leaf ⟨.cellRef, "C1", 11, 13⟩)
      (.leaf ⟨.number, "2", 14, 15⟩)
    let now := Expr.call ⟨.function, "NOW", 17, 20⟩ []
    let product := Expr.binary times sum now
    let e := Expr.binary ⟨.operator, "*", 2, 3⟩ (.leaf ⟨.cellRef, "B1", 0, 2⟩)
      (.call ⟨.function, "SUM", 3, 6⟩ [.leaf ⟨.cellRef, "A1", 7, 9⟩, product])
    parse s = .ok e ∧ ∃ back after, tokens s = back.reverse ++ times :: after ∧ Enclosed back ∧
      (argument back times after).map Token.value = ["(", "C1", "+", "2", ")", "*", "NOW", "(", ")"] ∧
      sum.tokens ++ now.tokens ⊆ argument back times after := by
  intro s times sum now product e
  let front : List Token := [⟨.cellRef, "B1", 0, 2⟩, ⟨.operator, "*", 2, 3⟩, ⟨.function, "SUM", 3, 6⟩,
    ⟨.operator, "(", 6, 7⟩, ⟨.cellRef, "A1", 7, 9⟩, ⟨.operator, ",", 9, 10⟩, ⟨.operator, "(", 10, 11⟩,
    ⟨.cellRef, "C1", 11, 13⟩, ⟨.operator, "+", 13, 14⟩, ⟨.number, "2", 14, 15⟩, ⟨.operator, ")", 15, 16⟩]
  let behind : List Token := [⟨.function, "NOW", 17, 20⟩, ⟨.operator, "(", 20, 21⟩,
    ⟨.operator, ")", 21, 22⟩, ⟨.operator, ")", 22, 23⟩]
  have hts : tokens s = front ++ times :: behind := by decide +kernel
  have h : parse s = .ok e := by
    rw [parse, if_neg (by decide +kernel), hts]
    dsimp only [e, product, sum, now, front, times, behind]
    with_unfolding_all rfl
  have hmem : product ∈ e.nodes := by
    refine Expr.mem_nodes_iff.mpr (.inr ⟨_, List.mem_cons_of_mem _ List.mem_cons_self, ?_⟩)
    refine Expr.mem_nodes_iff.mpr (.inr ⟨_, List.mem_cons_of_mem _ List.mem_cons_self, ?_⟩)
    exact Expr.mem_nodes_iff.mpr (.inl rfl)
  obtain ⟨-, -, hoperators, -⟩ := reach_of_parse h
  obtain ⟨back, after, hsplit, hsub⟩ := hoperators times sum now hmem
  have hne : times ∉ front ∧ times ∉ behind := by decide
  obtain ⟨hback, -, rfl⟩ := (List.append_cons_inj_of_notMem hne.1 hne.2).mp (hts.symm.trans hsplit)
  obtain rfl : back = front.reverse := by rw [hback, List.reverse_reverse]
  have hin : Enclosed front.reverse := by decide
  exact ⟨h, _, _, hsplit, hin, by decide, hsub hin⟩

end Formula

end FormulaAudit
