import FormulaAudit.Proofs.Expr.WellFormed
import FormulaAudit.Proofs.Text.Characters
import FormulaAudit.Token.Scan

/-!
The names among the tokens of a text: what their characters are, and that a function name stands
directly before its opening parenthesis.
-/

namespace FormulaAudit

open Text

namespace Lexeme

def IsNameKind (kind : Token.Kind) : Prop :=
  kind = .function ∨ kind = .cellRef ∨ kind = .rangeRef

lemma comparison_kind (c : Char) (cs : List Char) : (comparison c cs).kind = .operator := by
  unfold comparison
  split
  · rfl
  · split <;> rfl

lemma eq_name_of_first? {c : Char} {cs : List Char} {l : Lexeme} (h : first? c cs = some l)
    (hk : IsNameKind l.kind) : l = name c cs ∧ isNameStart c = true := by
  have hne (l' : Lexeme) (hl : some l' = some l) (hk' : ¬ IsNameKind l'.kind) : False :=
    hk' (Option.some.inj hl ▸ hk)
  unfold first? at h
  split at h
  · exact (hne _ h (by simp [IsNameKind, plain])).elim
  · split at h
    · exact (hne _ h (by simp [IsNameKind, comparison_kind])).elim
    · split at h
      · exact (hne _ h (by simp [IsNameKind, text])).elim
      · split at h
        · exact (hne _ h (by simp [IsNameKind, number, plain])).elim
        · split at h
          · exact ⟨(Option.some.inj h).symm, by assumption⟩
          · simp at h

lemma isNameChar_of_isNameStart {c : Char} (h : isNameStart c = true) : isNameChar c = true := by
  simp only [isNameStart, Bool.or_eq_true] at h
  rcases h with h | h <;> simp [isNameChar, h]

lemma not_isBlank_of_isNameChar {c : Char} (h : isNameChar c = true) : isBlank c = false := by
  simp only [isNameChar, Bool.or_eq_true, beq_iff_eq] at h
  rcases h with (((h | h) | rfl) | rfl) | rfl
  · exact not_isBlank_of_isAlpha h
  · exact not_isBlank_of_isDigit h
  · rfl
  · rfl
  · rfl

lemma isNameChar_of_mem {c : Char} {cs : List Char} {l : Lexeme} (h : first? c cs = some l)
    (hk : IsNameKind l.kind) : ∀ d ∈ l.value, isNameChar d = true := by
  obtain ⟨rfl, hc⟩ := eq_name_of_first? h hk
  intro d hd
  rcases List.mem_cons.mp hd with rfl | hd
  · exact isNameChar_of_isNameStart hc
  · exact List.mem_takeWhile_imp hd

lemma drop_of_function {c : Char} {cs : List Char} {l : Lexeme} (h : first? c cs = some l)
    (hk : l.kind = .function) : ∃ rest, cs.drop (l.source.length - 1) = '(' :: rest := by
  obtain ⟨rfl, -⟩ := eq_name_of_first? h (.inl hk)
  have hdrop : cs.drop ((name c cs).source.length - 1) = cs.dropWhile isNameChar := by
    have happend : (cs.takeWhile isNameChar ++ cs.dropWhile isNameChar).drop
        (cs.takeWhile isNameChar).length = cs.dropWhile isNameChar := List.drop_left
    rwa [List.takeWhile_append_dropWhile] at happend
  rw [hdrop]
  simp only [name, plain, nameKind] at hk
  split at hk
  · simp at hk
  · split at hk
    · next hparen =>
      cases hd : cs.dropWhile isNameChar with
      | nil => simp [hd] at hparen
      | cons d rest =>
        obtain rfl : d = '(' := by simpa [hd] using hparen
        exact ⟨rest, rfl⟩
    · simp at hk

end Lexeme

namespace Token

inductive Called : List Token → Prop
  | nil : Called []
  | cons {t : Token} {ts : List Token} : t.kind ≠ .function → Called ts → Called (t :: ts)
  | call {f paren : Token} {ts : List Token} :
      f.kind = .function → paren.IsSymbol "(" → Called ts → Called (f :: paren :: ts)

lemma Called.tail {t : Token} {ts : List Token} (h : Called (t :: ts)) (ht : t.kind ≠ .function) :
    Called ts := by
  cases h with
  | cons _ h => exact h
  | call hf => exact absurd hf ht

lemma scanFrom_paren (pos : Nat) (cs : List Char) :
    scanFrom pos ('(' :: cs) = ⟨.operator, "(", pos, pos + 1⟩ :: scanFrom (pos + 1) cs := by
  rw [scanFrom]
  rfl

lemma called_scanFrom (pos : Nat) (cs : List Char) : Called (scanFrom pos cs) := by
  fun_induction scanFrom pos cs with
  | case1 => exact .nil
  | case2 pos c cs h ih => exact ih
  | case3 pos c cs l h stop ih =>
    by_cases hk : l.kind = .function
    · obtain ⟨rest, hrest⟩ := Lexeme.drop_of_function h hk
      -- the rest starts with the parenthesis, so that is the next token
      rw [hrest, scanFrom_paren] at ih ⊢
      exact .call hk ⟨rfl, rfl⟩ (ih.tail (by simp))
    · exact .cons hk ih

lemma exists_lexeme {pos : Nat} {cs : List Char} {t : Token} (h : t ∈ scanFrom pos cs) :
    ∃ c cs' l, Lexeme.first? c cs' = some l ∧ t.kind = l.kind ∧ t.value.toList = l.value := by
  fun_induction scanFrom pos cs with
  | case1 => simp at h
  | case2 pos c cs _ ih => exact ih h
  | case3 pos c cs l hl stop ih =>
    rcases List.mem_cons.mp h with rfl | h
    · exact ⟨c, cs, l, hl, rfl, by simp⟩
    · exact ih h

lemma isNameChar_of_mem_scanFrom {pos : Nat} {cs : List Char} {t : Token} (h : t ∈ scanFrom pos cs)
    (hk : Lexeme.IsNameKind t.kind) : ∀ d ∈ t.value.toList, Lexeme.isNameChar d = true := by
  obtain ⟨c, cs', l, hl, hkind, hvalue⟩ := exists_lexeme h
  rw [hvalue]
  exact Lexeme.isNameChar_of_mem hl (hkind ▸ hk)

end Token

end FormulaAudit
