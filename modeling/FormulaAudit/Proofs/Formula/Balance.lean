import FormulaAudit.Proofs.Formula.Parentheses

/-!
The count of parentheses over the whole text of a formula. Each of them is a token of its own or stands
in a literal, so that the count goes wrong on an accepted formula only for what its literals hold.
-/

namespace FormulaAudit

open Token

namespace Text

variable {c : Char}

lemma count_dropWhile_isBlank (hc : isBlank c = false) (cs : List Char) :
    (cs.dropWhile isBlank).count c = cs.count c := by
  have htake : (cs.takeWhile isBlank).count c = 0 := by
    rw [List.count_eq_zero]
    intro hmem
    simp [List.mem_takeWhile_imp hmem] at hc
  calc (cs.dropWhile isBlank).count c
      = (cs.takeWhile isBlank).count c + (cs.dropWhile isBlank).count c := by rw [htake, Nat.zero_add]
    _ = cs.count c := by rw [← List.count_append, List.takeWhile_append_dropWhile]

lemma count_trimChars (hc : isBlank c = false) (cs : List Char) : (trimChars cs).count c = cs.count c := by
  rw [trimChars, trimEnd, List.count_reverse, count_dropWhile_isBlank hc, List.count_reverse, trimStart,
    count_dropWhile_isBlank hc]

end Text

namespace Lexeme

def isParen (c : Char) : Bool :=
  c == '(' || c == ')'

lemma isParen_iff {c : Char} : isParen c = true ↔ c = '(' ∨ c = ')' := by
  simp [isParen]

variable {kind : Token.Kind} {source value : List Char} {c : Char}

lemma count_eq_zero_of_forall {p : Char → Prop} (hp : ¬ p c) (h : ∀ d ∈ source, p d) :
    source.count c = 0 :=
  List.count_eq_zero.mpr fun hmem => hp (h c hmem)

lemma count_operatorTexts (hc : isParen c = true) (h : source ∈ operatorTexts) :
    source.count c = if source = [c] then 1 else 0 := by
  have hopen : ∀ cs ∈ operatorTexts, cs.count '(' = if cs = ['('] then 1 else 0 := by decide
  have hclose : ∀ cs ∈ operatorTexts, cs.count ')' = if cs = [')'] then 1 else 0 := by decide
  rcases isParen_iff.mp hc with rfl | rfl
  · exact hopen source h
  · exact hclose source h

lemma Spells.count_paren (h : Spells kind source value) (hc : isParen c = true) :
    source.count c = (if kind = .operator ∧ value = [c] then 1 else 0) +
      if kind = .text then value.count c else 0 := by
  have hquote (q : Char) (hq : isQuote q = true) : q ≠ c := by
    rintro rfl
    rcases isParen_iff.mp hc with rfl | rfl <;> simp [isQuote] at hq
  cases h with
  | number hs =>
    have hnot : ¬ IsNumberChar c := by
      rcases isParen_iff.mp hc with rfl | rfl <;> decide
    simp [count_eq_zero_of_forall hnot hs.chars]
  | operator hs => simp [count_operatorTexts hc hs]
  | name hk hs =>
    have hnot : ¬ isNameChar c = true := by
      rcases isParen_iff.mp hc with rfl | rfl <;> decide
    rcases hk with rfl | rfl | rfl <;> simp [count_eq_zero_of_forall hnot hs.chars]
  | literal hq _ | unclosed hq _ => simp [hquote _ hq]

end Lexeme

namespace Token

def literalCount (c : Char) (ts : List Token) : Nat :=
  ((values .text ts).flatMap String.toList).count c

variable {c : Char} {ts : List Token}

lemma literalCount_cons (t : Token) (ts : List Token) :
    literalCount c (t :: ts) =
      (if t.kind = .text then t.value.toList.count c else 0) + literalCount c ts := by
  by_cases ht : t.kind = .text
  · simp [literalCount, values, ht]
  · simp [literalCount, values, ht]

lemma Scans.count_paren {pos : Nat} {cs : List Char} (h : Scans pos cs ts) (hc : Lexeme.isParen c = true) :
    cs.count c = ts.countP (·.IsSymbol (.singleton c)) + literalCount c ts := by
  induction h with
  | nil => rfl
  | @skip pos d cs ts hd _ ih =>
    have hne : d ≠ c := by
      rintro rfl
      rcases Lexeme.isParen_iff.mp hc with rfl | rfl <;> simp [Lexeme.isStart] at hd
    simpa [List.count_cons, hne] using ih
  | @token pos l rest ts hl _ ih =>
    have hsymbol : IsSymbol ⟨l.kind, .ofList l.value, pos, pos + byteSize l.source⟩ (.singleton c) ↔
        l.kind = .operator ∧ l.value = [c] := by
      rw [IsSymbol, String.singleton_eq_ofList, String.ofList_inj]
    rw [List.count_append, hl.spells.count_paren hc, ih, List.countP_cons, literalCount_cons,
      String.toList_ofList]
    simp only [decide_eq_true_eq, hsymbol]
    omega

lemma Nested.countP_eq {enter leave : String} {commas : Bool} (hne : enter ≠ leave)
    (h : Nested enter leave commas ts) :
    ts.countP (·.IsSymbol enter) = ts.countP (·.IsSymbol leave) := by
  induction h with
  | nil => rfl
  | single he hl _ => simp [he, hl]
  | append _ _ ih ih' => rw [List.countP_append, List.countP_append, ih, ih']
  | enclose ht hu _ ih =>
    simp [ht, hu, ht.not_isSymbol hne, hu.not_isSymbol hne.symm, ih]

end Token

namespace Formula

variable {s : String} {c : Char}

lemma count_body (hblank : Text.isBlank c = false) (hc : c ≠ '=') (s : String) :
    (body s).count c = s.toList.count c := by
  rw [← Text.count_trimChars hblank s.toList, body]
  split
  · next cs hcs => simp [hcs, hc.symm]
  · rfl

lemma count_paren (hc : Lexeme.isParen c = true) (s : String) :
    s.toList.count c = (tokens s).countP (·.IsSymbol (.singleton c)) + literalCount c (tokens s) := by
  have hbody : (body s).count c = s.toList.count c := by
    rcases Lexeme.isParen_iff.mp hc with rfl | rfl <;> exact count_body (by decide) (by decide) s
  rw [← hbody]
  exact (scans_scanFrom 0 (body s)).count_paren hc

lemma isBalanced_iff : isBalanced s = true ↔ s.toList.count '(' = s.toList.count ')' := by
  simp [isBalanced]

lemma isBalanced_eq_false_iff : isBalanced s = false ↔ s.toList.count '(' ≠ s.toList.count ')' := by
  rw [← Bool.not_eq_true, isBalanced_iff]

lemma isBalanced_of_parse {e : Expr} (h : parse s = .ok e) :
    isBalanced s = true ↔ literalCount '(' (tokens s) = literalCount ')' (tokens s) := by
  have hnested : (tokens s).countP (·.IsSymbol (.singleton '(')) =
      (tokens s).countP (·.IsSymbol (.singleton ')')) := (nested_of_parse h).countP_eq (by simp)
  rw [isBalanced_iff, count_paren rfl, count_paren rfl]
  omega

end Formula

end FormulaAudit
