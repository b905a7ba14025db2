import FormulaAudit.Proofs.Expr.Unmatched
import FormulaAudit.Proofs.Formula.References
import FormulaAudit.Proofs.Token.Coverage

/-!
Parentheses and the expressions of formulas. Those of an accepted formula are nested; in a formula that
is refused for its parentheses, the place of the error is that of a parenthesis without a partner.
-/

namespace FormulaAudit

open Token

namespace Token

lemma Scans.exists_char {pos : Nat} {cs : List Char} {ts : List Token} (h : Scans pos cs ts) {t : Token}
    (ht : t ∈ ts) {c : Char} (hc : t.IsSymbol (.singleton c)) :
    ∃ front rest, cs = front ++ c :: rest ∧ t.start = pos + byteSize front := by
  obtain ⟨front, l, rest, rfl, hl, rfl⟩ := h.exists_longest ht
  obtain ⟨hkind, hvalue⟩ : l.kind = .operator ∧ String.ofList l.value = .singleton c := hc
  have hs := hl.spells
  rw [hkind] at hs
  have hsource : l.source = [c] := by
    rw [← (Lexeme.spells_operator.mp hs).2, ← String.ofList_inj, hvalue, String.singleton_eq_ofList]
  exact ⟨front, rest, by simp [hsource], rfl⟩

lemma Scans.abuts {pos : Nat} {cs : List Char} {ts : List Token} (h : Scans pos cs ts) : Abuts ts := by
  intro before f t after hts hf
  obtain ⟨rest, hrest⟩ := h.next_of_function hts hf
  obtain ⟨rfl, -⟩ := List.cons.inj hrest
  rfl

lemma IsFirst.mem {p : List Token → Token → List Token → Prop} {ts : List Token} {t : Token}
    (h : IsFirst p ts t) : t ∈ ts ∧ ∃ before after, p before t after := by
  obtain ⟨before, after, rfl, hp, -⟩ := h
  exact ⟨by simp, before, after, hp⟩

end Token

namespace Formula

def HasAt (s : String) (c : Char) (position : Nat) : Prop :=
  ∃ front rest, body s = front ++ c :: rest ∧ position = (String.ofList front).utf8ByteSize

lemma hasAt_of_mem {s : String} {t : Token} (ht : t ∈ tokens s) {c : Char}
    (hc : t.IsSymbol (.singleton c)) : HasAt s c t.start := by
  obtain ⟨front, rest, hbody, hstart⟩ := (scans_scanFrom 0 (body s)).exists_char ht hc
  refine ⟨front, rest, hbody, ?_⟩
  rw [hstart, Nat.zero_add, byteSize_eq_utf8ByteSize]

lemma ofTokens_of_parse_unmatched {s : String} {position : Nat}
    (h : parse s = .error (.unmatchedParentheses position)) :
    Expr.ofTokens (tokens s) = .error (.unmatchedParentheses position) := by
  unfold parse at h
  split at h
  · simp at h
  · exact h

lemma nested_of_parse {s : String} {e : Expr} (h : parse s = .ok e) : Nested "(" ")" true (tokens s) :=
  (Expr.Builder.nested_and_confined (called_scanFrom 0 (body s)) (ofTokens_of_parse h)).1

/-- The parentheses of an accepted formula are nested. If a formula is refused for its parentheses they
are not, and the error stands at the first closing one without a partner; if there is none such, at the
first opening one without a partner, be it that of a call or not. -/
theorem parentheses_of_parse (s : String) :
    (∀ e, parse s = .ok e → Nested "(" ")" true (tokens s)) ∧
    ∀ position, parse s = .error (.unmatchedParentheses position) →
      ¬ Nested "(" ")" true (tokens s) ∧
      ((∃ t, IsFirst StrayClose (tokens s) t ∧ position = t.start ∧ HasAt s ')' position) ∨
        (∀ before t after, tokens s = before ++ t :: after → ¬ StrayClose before t after) ∧
          ∃ t, IsFirst Unclosed (tokens s) t ∧ position = t.start ∧ HasAt s '(' position) := by
  refine ⟨fun e h => nested_of_parse h, fun position h => ?_⟩
  have hscans := scans_scanFrom 0 (body s)
  rcases Expr.Builder.unmatched_position (called_scanFrom 0 (body s)) hscans.abuts
    (ofTokens_of_parse_unmatched h) with ⟨t, hfirst, rfl⟩ | ⟨hnone, t, hfirst, rfl⟩
  · obtain ⟨hmem, before, after, hstray⟩ := hfirst.mem
    exact ⟨hfirst.not_nested_of_strayClose, .inl ⟨t, hfirst, rfl, hasAt_of_mem hmem hstray.1⟩⟩
  · obtain ⟨hmem, before, after, hopen⟩ := hfirst.mem
    exact ⟨hfirst.not_nested_of_unclosed, .inr ⟨hnone, t, hfirst, rfl, hasAt_of_mem hmem hopen.1⟩⟩

theorem parentheses_of_parse_call :
    let s := "=\"é(\"&SUM((A1)"
    parse s = .error (.unmatchedParentheses 9) ∧ ¬ Nested "(" ")" true (tokens s) ∧
      ∃ t, IsFirst Unclosed (tokens s) t ∧ t.start = 9 ∧ HasAt s '(' 9 := by
  intro s
  have hts : tokens s = [⟨.text, "é(", 0, 5⟩, ⟨.operator, "&", 5, 6⟩, ⟨.function, "SUM", 6, 9⟩,
      ⟨.operator, "(", 9, 10⟩, ⟨.operator, "(", 10, 11⟩, ⟨.cellRef, "A1", 11, 13⟩,
      ⟨.operator, ")", 13, 14⟩] := by decide +kernel
  have h : parse s = .error (.unmatchedParentheses 9) := by
    rw [parse, if_neg (by decide +kernel), hts]
    with_unfolding_all rfl
  have hat : ∀ t ∈ tokens s, t.start = 9 → t.value ≠ ")" := by simp [hts]
  obtain ⟨hnested, ⟨t, hfirst, hstart, -⟩ | ⟨-, t, hfirst, hstart, hchar⟩⟩ :=
    (parentheses_of_parse s).2 9 h
  · obtain ⟨hmem, before, after, hstray⟩ := hfirst.mem
    exact absurd hstray.1.2 (hat t hmem hstart.symm)
  · exact ⟨h, hnested, t, hfirst, hstart.symm, hchar⟩

end Formula

end FormulaAudit
