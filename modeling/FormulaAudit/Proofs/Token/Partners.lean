import FormulaAudit.Proofs.Token.Nesting

/-!
Which parentheses have a partner, and which of those without one comes first. A closing parenthesis
looks for its partner among the tokens before it, read backwards, and an opening one among those after
it.
-/

namespace FormulaAudit.Token

def Partnered (enter leave : String) (rest : List Token) : Prop :=
  ∃ inner u rest', rest = inner ++ u :: rest' ∧ u.IsSymbol leave ∧ Nested enter leave true inner

def StrayClose (before : List Token) (t : Token) (_ : List Token) : Prop :=
  t.IsSymbol ")" ∧ ¬ Partnered ")" "(" before.reverse

def Unclosed (_ : List Token) (t : Token) (after : List Token) : Prop :=
  t.IsSymbol "(" ∧ ¬ Partnered "(" ")" after

def IsFirst (p : List Token → Token → List Token → Prop) (ts : List Token) (t : Token) : Prop :=
  ∃ before after, ts = before ++ t :: after ∧ p before t after ∧
    ∀ before' t' after', before = before' ++ t' :: after' → ¬ p before' t' (after' ++ t :: after)

variable {enter leave : String} {t lp : Token} {ts us before after rest lps : List Token} {commas : Bool}

lemma append_eq_split (h : ts ++ us = before ++ t :: after) :
    (∃ after', ts = before ++ t :: after' ∧ after = after' ++ us) ∨
      ∃ before', before = ts ++ before' ∧ us = before' ++ t :: after := by
  rcases List.append_eq_append_iff.mp h with ⟨before', hbefore, hus⟩ | ⟨ts', rfl, htail⟩
  · exact .inr ⟨before', hbefore, hus⟩
  · cases ts' with
    | nil => exact .inr ⟨[], by simp, by simpa using htail.symm⟩
    | cons u ts' =>
      obtain ⟨rfl, rfl⟩ := List.cons.inj htail
      exact .inl ⟨ts', rfl, rfl⟩

namespace Partnered

lemma append (h : Partnered enter leave rest) (us : List Token) : Partnered enter leave (rest ++ us) := by
  obtain ⟨inner, u, rest, rfl, hu, hinner⟩ := h
  exact ⟨inner, u, rest ++ us, by simp, hu, hinner⟩

lemma leaves (hne : enter ≠ leave) (h : Partnered enter leave rest) :
    Token.leaves enter leave 0 rest = true := by
  obtain ⟨inner, u, rest, rfl, hu, hinner⟩ := h
  rw [leaves_append hne hinner, Token.leaves, if_neg (hu.not_isSymbol hne.symm), if_pos hu]

end Partnered

namespace Nested

lemma partnered_leave (hne : enter ≠ leave) (h : Nested enter leave commas ts)
    (hts : ts = before ++ t :: after) (ht : t.IsSymbol leave) : Partnered leave enter before.reverse := by
  -- outside of the pair or part that holds the token, more tokens only stand further away from it
  induction h generalizing before after with
  | nil => simp at hts
  | @single _ u _ hl _ =>
    have hmem : t ∈ [u] := hts ▸ List.mem_append_right before List.mem_cons_self
    exact absurd (List.mem_singleton.mp hmem ▸ ht) hl
  | @append _ ts us _ _ ih ih' =>
    rcases append_eq_split hts with ⟨after', hts, -⟩ | ⟨before', rfl, hus⟩
    · exact ih hts
    · rw [List.reverse_append]
      exact (ih' hus).append ts.reverse
  | @enclose _ lp rp inner hlp hrp hinner ih =>
    rcases List.cons_eq_append_iff.mp hts with ⟨-, hhead⟩ | ⟨before', rfl, htail⟩
    · obtain ⟨rfl, -⟩ := List.cons.inj hhead
      exact absurd ht (hlp.not_isSymbol hne)
    · rw [List.reverse_cons]
      rcases append_eq_split htail with ⟨after', hin, -⟩ | ⟨before'', rfl, hlast⟩
      · exact (ih hin).append [lp]
      · have hlen := congrArg List.length hlast
        obtain rfl : before'' = [] := by
          rw [← List.length_eq_zero_iff]
          simp only [List.length_cons, List.length_append, List.length_nil] at hlen
          omega
        exact ⟨inner.reverse, lp, [], by simp, hlp, hinner.reverse⟩

lemma partnered_enter (hne : enter ≠ leave) (h : Nested enter leave commas ts)
    (hts : ts = before ++ t :: after) (ht : t.IsSymbol enter) : Partnered enter leave after := by
  have hreverse : ts.reverse = after.reverse ++ t :: before.reverse := by simp [hts]
  simpa using h.reverse.partnered_leave hne.symm hreverse ht

lemma not_strayClose (h : Nested "(" ")" commas (before ++ t :: after)) : ¬ StrayClose before t after :=
  fun ht => ht.2 (h.partnered_leave (by simp) rfl ht.1)

lemma not_unclosed (h : Nested "(" ")" commas (before ++ t :: after)) : ¬ Unclosed before t after :=
  fun ht => ht.2 (h.partnered_enter (by simp) rfl ht.1)

lemma isFirst_strayClose (h : Nested "(" ")" commas before) (ht : t.IsSymbol ")") (after : List Token) :
    IsFirst StrayClose (before ++ t :: after) t := by
  refine ⟨before, after, rfl, ⟨ht, fun hp => ?_⟩, fun before' t' after' hbefore hstray => ?_⟩
  · exact not_enclosed h (hp.leaves (by simp))
  · exact hstray.2 (h.partnered_leave (by simp) hbefore hstray.1)

end Nested

lemma IsFirst.not_nested_of_strayClose (h : IsFirst StrayClose ts t) : ¬ Nested "(" ")" commas ts := by
  obtain ⟨before, after, rfl, hstray, -⟩ := h
  exact fun hn => hn.not_strayClose hstray

lemma IsFirst.not_nested_of_unclosed (h : IsFirst Unclosed ts t) : ¬ Nested "(" ")" commas ts := by
  obtain ⟨before, after, rfl, hopen, -⟩ := h
  exact fun hn => hn.not_unclosed hopen

/-- The parentheses `lps` of the tokens are still open at their end, and no others. The innermost one
comes first. -/
inductive LeavesOpen : List Token → List Token → Prop
  | nested {ts : List Token} : Nested "(" ")" true ts → LeavesOpen [] ts
  | inside {lps ts us : List Token} {lp : Token} : LeavesOpen lps ts → lp.IsSymbol "(" →
      Nested "(" ")" true us → LeavesOpen (lp :: lps) (ts ++ lp :: us)

namespace LeavesOpen

lemma append (h : LeavesOpen lps ts) (hus : Nested "(" ")" true us) : LeavesOpen lps (ts ++ us) := by
  cases h with
  | nested hts => exact .nested (hts.append hus)
  | inside h hlp hin => simpa using h.inside hlp (hin.append hus)

lemma leaves_append (h : LeavesOpen lps ts) (depth : Nat) (rest : List Token) :
    leaves "(" ")" depth (ts ++ rest) = leaves "(" ")" (depth + lps.length) rest := by
  induction h generalizing depth rest with
  | nested hts => exact Token.leaves_append (by simp) hts depth rest
  | @inside lps ts us lp _ hlp hus ih =>
    calc leaves "(" ")" depth (ts ++ lp :: us ++ rest)
        = leaves "(" ")" (depth + lps.length) (lp :: (us ++ rest)) := by
          rw [List.append_assoc, ih, List.cons_append]
      _ = leaves "(" ")" (depth + lps.length + 1) (us ++ rest) := by
          rw [leaves.eq_def]
          exact if_pos hlp
      _ = leaves "(" ")" (depth + (lp :: lps).length) rest :=
          Token.leaves_append (by simp) hus _ rest

lemma not_partnered (h : LeavesOpen lps ts) : ¬ Partnered "(" ")" ts := by
  intro hp
  have hleaves := h.leaves_append 0 []
  rw [List.append_nil, hp.leaves (by simp)] at hleaves
  simp [leaves] at hleaves

lemma not_strayClose (h : LeavesOpen lps ts) (hts : ts = before ++ t :: after) :
    ¬ StrayClose before t after := by
  rintro ⟨ht, hstray⟩
  induction h generalizing before after with
  | nested hn => exact hstray (hn.partnered_leave (by simp) hts ht)
  | @inside lps ts us lp _ hlp hus ih =>
    rcases append_eq_split hts with ⟨after', hts, -⟩ | ⟨before', rfl, htail⟩
    · exact ih hts hstray
    · have hclosed : Partnered ")" "(" before'.reverse := by
        rcases List.cons_eq_append_iff.mp htail with ⟨-, hhead⟩ | ⟨before'', rfl, hus'⟩
        · obtain ⟨rfl, -⟩ := List.cons.inj hhead
          exact absurd ht (hlp.not_isSymbol (by simp))
        · rw [List.reverse_cons]
          exact (hus.partnered_leave (by simp) hus' ht).append [lp]
      rw [List.reverse_append] at hstray
      exact hstray (hclosed.append ts.reverse)

lemma exists_outermost (h : LeavesOpen lps ts) (hlp : lp ∈ lps.getLast?) :
    ∃ before after lps', ts = before ++ lp :: after ∧ lp.IsSymbol "(" ∧ Nested "(" ")" true before ∧
      LeavesOpen lps' after := by
  induction h with
  | nested => simp at hlp
  | @inside lps ts us lp' h hlp' hus ih =>
    cases h with
    | nested hts =>
      obtain rfl : lp' = lp := by simpa using hlp
      exact ⟨ts, us, [], rfl, hlp', hts, .nested hus⟩
    | @inside lps ts _ inner h _ _ =>
      obtain ⟨before, after, lps', hsplit, hsymbol, hbefore, hafter⟩ := ih (by simpa using hlp)
      exact ⟨before, after ++ lp' :: us, lp' :: lps', by simp [hsplit], hsymbol, hbefore,
        hafter.inside hlp' hus⟩

lemma isFirst_unclosed (h : LeavesOpen lps ts) (hlp : lp ∈ lps.getLast?) : IsFirst Unclosed ts lp := by
  obtain ⟨before, after, lps', rfl, hsymbol, hbefore, hafter⟩ := h.exists_outermost hlp
  refine ⟨before, after, rfl, ⟨hsymbol, hafter.not_partnered⟩, ?_⟩
  intro before' t' after' hsplit hopen
  exact hopen.2 ((hbefore.partnered_enter (by simp) hsplit hopen.1).append _)

end LeavesOpen

end FormulaAudit.Token
