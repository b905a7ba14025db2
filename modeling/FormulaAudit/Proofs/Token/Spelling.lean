import FormulaAudit.Proofs.Token.Names
import Mathlib.Data.List.Chain

/-! What a text must look like to be a token: numbers, names, operators and literals. -/

namespace FormulaAudit.Lexeme

open Text

def operatorTexts : List (List Char) :=
  [[','], ['('], [')'], ['+'], ['-'], ['*'], ['/'], ['^'], ['&'], ['='], [':'], ['<'], ['>'],
    ['<', '='], ['>', '='], ['<', '>']]

def isQuote (c : Char) : Bool :=
  c == '"' || c == '\x27'

def isMark (c : Char) : Bool :=
  c == 'e' || c == 'E'

def isSign (c : Char) : Bool :=
  c == '+' || c == '-'

def IsNumberChar (c : Char) : Prop :=
  c.isDigit = true ∨ c = '.' ∨ isMark c = true ∨ isSign c = true
  deriving Decidable

/-- A digit, then digits, at most one point and at most one exponent mark; a sign stands only right
after the mark. -/
@[mk_iff]
structure IsNumber (cs : List Char) : Prop where
  first : ∃ d ∈ cs.head?, d.isDigit = true
  chars : ∀ c ∈ cs, IsNumberChar c
  points : cs.count '.' ≤ 1
  marks : cs.countP isMark ≤ 1
  signs : cs.IsChain fun m c => isSign c = true → isMark m = true

@[mk_iff]
structure IsName (cs : List Char) : Prop where
  first : ∃ c ∈ cs.head?, isNameStart c = true
  chars : ∀ c ∈ cs, isNameChar c = true

-- the characters are tested one by one, as a search for instances would run through all there are
instance (cs : List Char) : Decidable (IsNumber cs) :=
  decidable_of_iff (cs.head?.any Char.isDigit = true ∧ cs.all (fun c => decide (IsNumberChar c)) = true ∧
    cs.count '.' ≤ 1 ∧ cs.countP isMark ≤ 1 ∧ cs.IsChain fun m c => isSign c = true → isMark m = true)
    (by simp [isNumber_iff, Option.any_eq_true])

instance (cs : List Char) : Decidable (IsName cs) :=
  decidable_of_iff (cs.head?.any isNameStart = true ∧ cs.all isNameChar = true)
    (by simp [isName_iff, Option.any_eq_true])

inductive Spells : Token.Kind → List Char → List Char → Prop
  | number {cs : List Char} : IsNumber cs → Spells .number cs cs
  | operator {cs : List Char} : cs ∈ operatorTexts → Spells .operator cs cs
  | name {kind : Token.Kind} {cs : List Char} : IsNameKind kind → IsName cs → Spells kind cs cs
  | literal {q : Char} {cs : List Char} : isQuote q = true → q ∉ cs → Spells .text (q :: (cs ++ [q])) cs
  | unclosed {q : Char} {cs : List Char} : isQuote q = true → q ∉ cs → Spells .text (q :: cs) cs

section Number

structure Continues (s : NumberState) (cs : List Char) : Prop where
  chars : ∀ c ∈ cs, IsNumberChar c
  points : s.point.toNat + cs.count '.' ≤ 1
  marks : s.exponent.toNat + cs.countP isMark ≤ 1
  first : ∀ c ∈ cs.head?, isSign c = true → s.atSign = true
  signs : cs.IsChain fun m c => isSign c = true → isMark m = true

lemma continues_nil (s : NumberState) : Continues s [] :=
  ⟨by simp, by cases s.point <;> simp, by cases s.exponent <;> simp, by simp, .nil⟩

lemma digit_ne {c : Char} (h : c.isDigit = true) : c ≠ '.' ∧ isMark c = false ∧ isSign c = false := by
  refine ⟨?_, ?_, ?_⟩
  · rintro rfl
    simp [Char.isDigit] at h
  · rw [Bool.eq_false_iff]
    intro hm
    simp only [isMark, Bool.or_eq_true, beq_iff_eq] at hm
    rcases hm with rfl | rfl <;> simp [Char.isDigit] at h
  · rw [Bool.eq_false_iff]
    intro hs
    simp only [isSign, Bool.or_eq_true, beq_iff_eq] at hs
    rcases hs with rfl | rfl <;> simp [Char.isDigit] at h

lemma next_eq_some_iff {s s' : NumberState} {c : Char} : s.next c = some s' ↔
    IsNumberChar c ∧ (c = '.' → s.point = false) ∧ (isMark c = true → s.exponent = false) ∧
      (isSign c = true → s.atSign = true) ∧
      s' = ⟨s.point || c == '.', s.exponent || isMark c, isMark c⟩ := by
  obtain ⟨point, exponent, atSign⟩ := s
  -- the classes of characters exclude one another, so each is looked at alone
  by_cases hd : c.isDigit = true
  · obtain ⟨hp, hm, hs⟩ := digit_ne hd
    simp [NumberState.next, IsNumberChar, hd, hp, hm, hs, beq_false_of_ne hp, eq_comm]
  · by_cases hp : c = '.'
    · subst hp
      cases point <;> simp [NumberState.next, IsNumberChar, Char.isDigit, isMark, isSign, eq_comm]
    · by_cases hm : isMark c = true
      · have hm' := hm
        simp only [isMark, Bool.or_eq_true, beq_iff_eq] at hm'
        cases exponent <;> rcases hm' with rfl | rfl <;>
          simp [NumberState.next, IsNumberChar, Char.isDigit, isMark, isSign, eq_comm]
      · by_cases hs : isSign c = true
        · have hs' := hs
          simp only [isSign, Bool.or_eq_true, beq_iff_eq] at hs'
          cases atSign <;> rcases hs' with rfl | rfl <;>
            simp [NumberState.next, IsNumberChar, Char.isDigit, isMark, isSign, eq_comm]
        · have hc : ¬ IsNumberChar c := by simp [IsNumberChar, hd, hp, hm, hs]
          simp only [isMark, isSign] at hm hs
          simp [NumberState.next, hd, hp, hm, hs, hc]

lemma budget_cons (a b : Bool) (n : ℕ) : a.toNat + (n + if b = true then 1 else 0) ≤ 1 ↔
    (b = true → a = false) ∧ (a || b).toNat + n ≤ 1 := by
  have hb : (if b = true then 1 else 0) = b.toNat := by cases b <;> rfl
  rw [hb]
  cases a with
  | false => simp [Nat.add_comm]
  | true => cases b <;> simp

lemma continues_cons {s : NumberState} {c : Char} {cs : List Char} :
    Continues s (c :: cs) ↔ ∃ s', s.next c = some s' ∧ Continues s' cs := by
  simp only [next_eq_some_iff]
  constructor
  · rintro ⟨hchars, hpoints, hmarks, hfirst, hsigns⟩
    rw [List.isChain_cons] at hsigns
    rw [List.count_cons, budget_cons, beq_iff_eq] at hpoints
    rw [List.countP_cons, budget_cons] at hmarks
    refine ⟨_, ⟨hchars c (by simp), hpoints.1, hmarks.1, hfirst c rfl, rfl⟩, ?_⟩
    exact ⟨fun d hd => hchars d (by simp [hd]), hpoints.2, hmarks.2, hsigns.1, hsigns.2⟩
  · rintro ⟨_, ⟨hc, hp, hm, hs, rfl⟩, hcs⟩
    refine ⟨by simpa using ⟨hc, hcs.chars⟩, ?_, ?_, by simpa using hs, ?_⟩
    · rw [List.count_cons, budget_cons, beq_iff_eq]
      exact ⟨hp, hcs.points⟩
    · rw [List.countP_cons, budget_cons]
      exact ⟨hm, hcs.marks⟩
    · rw [List.isChain_cons]
      exact ⟨hcs.first, hcs.signs⟩

lemma isNumber_cons {c : Char} {cs : List Char} :
    IsNumber (c :: cs) ↔ c.isDigit = true ∧ Continues {} cs := by
  have hnext (hd : c.isDigit = true) : Continues {} (c :: cs) ↔ Continues {} cs := by
    have hs : NumberState.next {} c = some {} := by simp [NumberState.next, hd]
    simp [continues_cons, hs]
  constructor
  · intro h
    obtain ⟨d, hmem, hd⟩ := h.first
    obtain rfl : c = d := by simpa using hmem
    refine ⟨hd, (hnext hd).mp ⟨h.chars, by simpa using h.points, by simpa using h.marks, ?_, h.signs⟩⟩
    simp [(digit_ne hd).2.2]
  · rintro ⟨hd, h⟩
    have h' := (hnext hd).mpr h
    exact ⟨⟨c, rfl, hd⟩, h'.chars, by simpa using h'.points, by simpa using h'.marks, h'.signs⟩

lemma numberRun_append_iff {s : NumberState} {cs rest : List Char} :
    numberRun s (cs ++ rest) = cs ↔
      Continues s cs ∧ ∀ d ∈ rest.head?, ¬ Continues s (cs ++ [d]) := by
  induction cs generalizing s with
  | nil =>
    cases rest with
    | nil => simp [numberRun, continues_nil]
    | cons d rest =>
      rw [List.nil_append, numberRun]
      cases hd : s.next d <;> simp [continues_cons, continues_nil, hd]
  | cons c cs ih =>
    rw [List.cons_append, numberRun]
    cases hc : s.next c with
    | none => simp [continues_cons, hc]
    | some s' => simp [continues_cons, hc, ih]

lemma isPrefix_numberRun (s : NumberState) (cs : List Char) : numberRun s cs <+: cs := by
  induction cs generalizing s with
  | nil => simp [numberRun]
  | cons c cs ih =>
    rw [numberRun]
    split
    · simpa using ih _
    · simp

end Number

section Spelling

variable {kind : Token.Kind} {cs value : List Char}

lemma Spells.source_ne_nil (h : Spells kind cs value) : cs ≠ [] := by
  cases h with
  | number h | name _ h =>
    rintro rfl
    simpa using h.first
  | operator h =>
    rintro rfl
    simp [operatorTexts] at h
  | literal | unclosed => simp

lemma spells_number : Spells .number cs value ↔ IsNumber cs ∧ value = cs := by
  constructor
  · intro h
    cases h with
    | number h => exact ⟨h, rfl⟩
    | name hk _ => simp [IsNameKind] at hk
  · rintro ⟨h, rfl⟩
    exact .number h

lemma spells_operator : Spells .operator cs value ↔ cs ∈ operatorTexts ∧ value = cs := by
  constructor
  · intro h
    cases h with
    | operator h => exact ⟨h, rfl⟩
    | name hk _ => simp [IsNameKind] at hk
  · rintro ⟨h, rfl⟩
    exact .operator h

lemma spells_name (hk : IsNameKind kind) : Spells kind cs value ↔ IsName cs ∧ value = cs := by
  constructor
  · intro h
    cases h with
    | name _ h => exact ⟨h, rfl⟩
    | number | operator | literal | unclosed => simp [IsNameKind] at hk
  · rintro ⟨h, rfl⟩
    exact .name hk h

lemma spells_text : Spells .text cs value ↔
    ∃ q, isQuote q = true ∧ q ∉ value ∧ (cs = q :: (value ++ [q]) ∨ cs = q :: value) := by
  constructor
  · intro h
    cases h with
    | name hk _ => simp [IsNameKind] at hk
    | literal hq hcs => exact ⟨_, hq, hcs, .inl rfl⟩
    | unclosed hq hcs => exact ⟨_, hq, hcs, .inr rfl⟩
  · rintro ⟨q, hq, hcs, rfl | rfl⟩
    · exact .literal hq hcs
    · exact .unclosed hq hcs

lemma single_mem_operatorTexts {c : Char} :
    [c] ∈ operatorTexts ↔ c ∈ singleOperators ∨ c = '<' ∨ c = '>' := by
  simp [operatorTexts, singleOperators, or_assoc]

lemma pair_mem_operatorTexts {c d : Char} : [c, d] ∈ operatorTexts ↔ joinsComparison c d = true := by
  simp [operatorTexts, joinsComparison]
  tauto

lemma operatorTexts_cases {cs : List Char} (h : cs ∈ operatorTexts) :
    (∃ c ∈ singleOperators, cs = [c]) ∨ (∃ c, (c = '<' ∨ c = '>') ∧ cs = [c]) ∨
      ∃ c d, joinsComparison c d = true ∧ cs = [c, d] := by
  have hlength : ∀ cs ∈ operatorTexts, cs.length = 1 ∨ cs.length = 2 := by decide
  rcases hlength cs h with hlen | hlen
  · obtain ⟨c, rfl⟩ := List.length_eq_one_iff.mp hlen
    rcases single_mem_operatorTexts.mp h with hc | hc
    · exact .inl ⟨c, hc, rfl⟩
    · exact .inr (.inl ⟨c, hc, rfl⟩)
  · obtain ⟨c, d, rfl⟩ := List.length_eq_two.mp hlen
    exact .inr (.inr ⟨c, d, pair_mem_operatorTexts.mp h, rfl⟩)

lemma comparison_of_joins {c d : Char} (h : joinsComparison c d = true) : c = '<' ∨ c = '>' := by
  simp only [joinsComparison, Bool.or_eq_true, Bool.and_eq_true, beq_iff_eq] at h
  rcases h with h | h
  · exact .inl h.1
  · exact .inr h.1

lemma isName_cons {c : Char} : IsName (c :: cs) ↔ isNameStart c = true ∧ ∀ d ∈ cs, isNameChar d = true := by
  constructor
  · intro h
    obtain ⟨d, hmem, hd⟩ := h.first
    obtain rfl : c = d := by simpa using hmem
    exact ⟨hd, fun e he => h.chars e (by simp [he])⟩
  · rintro ⟨hc, hcs⟩
    exact ⟨⟨c, rfl, hc⟩, by simpa [isNameChar_of_isNameStart hc] using hcs⟩

lemma not_spells_literal_append {q d : Char} :
    ¬ Spells .text (q :: (cs ++ [q]) ++ [d]) value := by
  rw [spells_text]
  rintro ⟨q', -, hvalue, h | h⟩
  · obtain ⟨rfl, h⟩ := List.cons.inj h
    have hinit := (List.append_inj' h rfl).1
    exact hvalue (by simp [← hinit])
  · obtain ⟨rfl, rfl⟩ := List.cons.inj h
    exact hvalue (by simp)

end Spelling

end FormulaAudit.Lexeme
