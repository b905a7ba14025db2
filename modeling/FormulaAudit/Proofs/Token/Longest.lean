import FormulaAudit.Proofs.Token.Spelling

/-!
The first lexeme of a text is the longest one: a number, a name, an operator or a literal that the
next character does not continue.
-/

namespace FormulaAudit.Lexeme

open Text

def isStart (c : Char) : Bool :=
  c.isAlpha || c.isDigit || c == '$' || isQuote c ||
    [',', '(', ')', '+', '-', '*', '/', '^', '&', '=', ':', '<', '>'].contains c

structure Longest (l : Lexeme) (rest : List Char) : Prop where
  spells : Spells l.kind l.source l.value
  maximal : ∀ d ∈ rest.head?, ∀ value, ¬ Spells l.kind (l.source ++ [d]) value
  kind_eq : IsNameKind l.kind → l.kind = nameKind l.source rest

section First

variable {c : Char} {cs : List Char}

lemma first?_single (h : c ∈ singleOperators) : first? c cs = some (plain .operator [c]) := by
  simp [first?, h]

lemma not_single_of_comparison (h : c = '<' ∨ c = '>') : c ∉ singleOperators := by
  rcases h with rfl | rfl <;> decide

lemma first?_comparison (h : c = '<' ∨ c = '>') : first? c cs = some (comparison c cs) := by
  have hs := not_single_of_comparison h
  simp [first?, hs, h]

lemma first?_quote (h : isQuote c = true) : first? c cs = some (text c cs) := by
  simp only [isQuote, Bool.or_eq_true, beq_iff_eq] at h
  rcases h with rfl | rfl <;> simp [first?, singleOperators]

lemma first?_digit (h : c.isDigit = true) : first? c cs = some (number c cs) := by
  have hsymbols : ∀ d ∈ singleOperators ++ ['<', '>', '"', '\x27'], d.isDigit = false := by
    simp [singleOperators, Char.isDigit]
  have hc : c ∉ singleOperators ++ ['<', '>', '"', '\x27'] := fun hmem => by simp [hsymbols c hmem] at h
  simp only [List.mem_append, List.mem_cons, List.not_mem_nil, or_false, not_or] at hc
  simp [first?, hc, h]

lemma not_isDigit_of_isNameStart (h : isNameStart c = true) : c.isDigit = false := by
  rw [Bool.eq_false_iff]
  intro hd
  simp only [isNameStart, Bool.or_eq_true, beq_iff_eq] at h
  rcases h with h | rfl
  · simp [not_isAlpha_of_isDigit hd] at h
  · exact absurd hd (by decide)

lemma first?_nameStart (h : isNameStart c = true) : first? c cs = some (name c cs) := by
  have hsymbols : ∀ d ∈ singleOperators ++ ['<', '>', '"', '\x27'], isNameStart d = false := by
    simp [singleOperators, isNameStart, Char.isAlpha]
  have hc : c ∉ singleOperators ++ ['<', '>', '"', '\x27'] := fun hmem => by simp [hsymbols c hmem] at h
  simp only [List.mem_append, List.mem_cons, List.not_mem_nil, or_false, not_or] at hc
  simp [first?, hc, h, not_isDigit_of_isNameStart h]

lemma isStart_iff : isStart c = true ↔ c ∈ singleOperators ∨ (c = '<' ∨ c = '>') ∨ isQuote c = true ∨
    c.isDigit = true ∨ isNameStart c = true := by
  simp only [isStart, isNameStart, singleOperators, Bool.or_eq_true, beq_iff_eq, List.contains_iff_mem,
    List.mem_cons, List.not_mem_nil, or_false]
  grind

lemma first?_eq_none_iff : first? c cs = none ↔ isStart c = false := by
  constructor
  · intro h
    rw [Bool.eq_false_iff, Ne, isStart_iff]
    rintro (hc | hc | hc | hc | hc)
    · simp [first?_single hc] at h
    · simp [first?_comparison hc] at h
    · simp [first?_quote hc] at h
    · simp [first?_digit hc] at h
    · simp [first?_nameStart hc] at h
  · intro h
    rw [Bool.eq_false_iff, Ne, isStart_iff] at h
    simp only [isQuote, not_or] at h
    simp [first?, h]

end First

section Longest

variable {c : Char} {cs rest source : List Char}

lemma longest_number : Longest (plain .number (c :: cs)) rest ↔
    c.isDigit = true ∧ numberRun {} (cs ++ rest) = cs := by
  rw [numberRun_append_iff]
  constructor
  · intro h
    have hc := isNumber_cons.mp (spells_number.mp h.spells).1
    refine ⟨hc.1, hc.2, fun d hd hnext => h.maximal d hd _ (.number ?_)⟩
    exact isNumber_cons.mpr ⟨hc.1, hnext⟩
  · rintro ⟨hd, hcs, hmax⟩
    refine ⟨.number (isNumber_cons.mpr ⟨hd, hcs⟩), fun d hmem value hs => ?_, fun hk => ?_⟩
    · exact hmax d hmem (isNumber_cons.mp (spells_number.mp hs).1).2
    · simp [plain, IsNameKind] at hk

lemma longest_operator : Longest (plain .operator cs) rest ↔
    cs ∈ operatorTexts ∧ ∀ d ∈ rest.head?, cs ++ [d] ∉ operatorTexts := by
  constructor
  · intro h
    exact ⟨(spells_operator.mp h.spells).1, fun d hd hmem => h.maximal d hd _ (.operator hmem)⟩
  · rintro ⟨hcs, hmax⟩
    refine ⟨.operator hcs, fun d hmem value hs => ?_, fun hk => ?_⟩
    · exact hmax d hmem (spells_operator.mp hs).1
    · simp [plain, IsNameKind] at hk

lemma longest_name {kind : Token.Kind} (hk : IsNameKind kind) : Longest (plain kind (c :: cs)) rest ↔
    isNameStart c = true ∧ (cs ++ rest).takeWhile isNameChar = cs ∧ kind = nameKind (c :: cs) rest := by
  rw [takeWhile_append_eq_iff]
  constructor
  · intro h
    have hc := isName_cons.mp ((spells_name hk).mp h.spells).1
    refine ⟨hc.1, ⟨hc.2, fun d hd => ?_⟩, h.kind_eq hk⟩
    rw [Bool.eq_false_iff]
    intro hname
    refine h.maximal d hd _ (.name hk (isName_cons.mpr ⟨hc.1, ?_⟩))
    intro e he
    rcases List.mem_append.mp he with he | he
    · exact hc.2 e he
    · exact List.mem_singleton.mp he ▸ hname
  · rintro ⟨hc, ⟨hcs, hmax⟩, hkind⟩
    refine ⟨.name hk (isName_cons.mpr ⟨hc, hcs⟩), fun d hmem value hs => ?_, fun _ => hkind⟩
    have hd := (isName_cons.mp ((spells_name hk).mp hs).1).2 d (by simp)
    simp [hmax d hmem] at hd

lemma longest_text {source value : List Char} : Longest ⟨.text, source, value⟩ rest ↔
    ∃ q, isQuote q = true ∧ q ∉ value ∧
      (source = q :: (value ++ [q]) ∨ source = q :: value ∧ rest = []) := by
  constructor
  · intro h
    obtain ⟨q, hq, hvalue, hs | hs⟩ := spells_text.mp h.spells
    · exact ⟨q, hq, hvalue, .inl hs⟩
    · refine ⟨q, hq, hvalue, .inr ⟨hs, ?_⟩⟩
      -- a character after an open literal would belong to it
      cases rest with
      | nil => rfl
      | cons d rest =>
        simp only at hs
        subst hs
        by_cases hd : d = q
        · subst hd
          exact (h.maximal d rfl _ (.literal hq hvalue)).elim
        · have hnext : q ∉ value ++ [d] := by simp [hvalue, Ne.symm hd]
          exact (h.maximal d rfl _ (.unclosed hq hnext)).elim
  · rintro ⟨q, hq, hvalue, rfl | ⟨rfl, rfl⟩⟩
    · exact ⟨.literal hq hvalue, fun d _ v => not_spells_literal_append, fun hk => by simp [IsNameKind] at hk⟩
    · exact ⟨.unclosed hq hvalue, by simp, fun hk => by simp [IsNameKind] at hk⟩

lemma longest_comparison (h : c = '<' ∨ c = '>') :
    ∃ rest, c :: cs = (comparison c cs).source ++ rest ∧ Longest (comparison c cs) rest := by
  have hc : [c] ∈ operatorTexts := single_mem_operatorTexts.mpr (.inr h)
  cases cs with
  | nil => exact ⟨[], rfl, longest_operator.mpr ⟨hc, by simp⟩⟩
  | cons d cs =>
    rw [comparison]
    by_cases hd : joinsComparison c d = true
    · rw [if_pos hd]
      refine ⟨cs, rfl, longest_operator.mpr ⟨pair_mem_operatorTexts.mpr hd, ?_⟩⟩
      simp [operatorTexts]
    · rw [if_neg hd]
      refine ⟨d :: cs, rfl, longest_operator.mpr ⟨hc, ?_⟩⟩
      simpa [pair_mem_operatorTexts] using hd

lemma text_append {q : Char} {value : List Char} (hvalue : q ∉ value) (hrest : ∀ d ∈ rest.head?, d = q) :
    text q (value ++ rest) = ⟨.text, q :: (value ++ rest.take 1), value⟩ := by
  have htake := takeWhile_ne_append hvalue hrest
  simp [text, htake, dropWhile_append_eq htake]

lemma longest_literal (h : isQuote c = true) :
    ∃ rest, c :: cs = (text c cs).source ++ rest ∧ Longest (text c cs) rest := by
  by_cases hmem : c ∈ cs
  · obtain ⟨value, rest, rfl, hvalue⟩ := List.eq_append_cons_of_mem hmem
    rw [text_append hvalue (by simp)]
    exact ⟨rest, by simp, longest_text.mpr ⟨c, h, hvalue, .inl rfl⟩⟩
  · have htext : text c (cs ++ []) = ⟨.text, c :: (cs ++ []), cs⟩ := text_append hmem (by simp)
    rw [List.append_nil] at htext
    rw [htext]
    exact ⟨[], by simp, longest_text.mpr ⟨c, h, hmem, .inr ⟨rfl, rfl⟩⟩⟩

section Kind

variable {name rest : List Char}

lemma isNameKind_nameKind (name rest : List Char) : IsNameKind (nameKind name rest) := by
  unfold nameKind IsNameKind
  split
  · simp
  · split <;> simp

lemma nameKind_eq_rangeRef : nameKind name rest = .rangeRef ↔ ':' ∈ name := by
  unfold nameKind
  split
  · simp_all
  · split <;> simp_all

lemma nameKind_eq_function : nameKind name rest = .function ↔ ':' ∉ name ∧ rest.head? = some '(' := by
  unfold nameKind
  split
  · simp_all
  · split <;> simp_all

end Kind

lemma longest_of_first? {l : Lexeme} (h : first? c cs = some l) :
    ∃ rest, c :: cs = l.source ++ rest ∧ Longest l rest := by
  by_cases hc : isStart c = true
  · rcases isStart_iff.mp hc with hc | hc | hc | hc | hc
    · rw [first?_single hc] at h
      obtain rfl := Option.some.inj h
      refine ⟨cs, rfl, longest_operator.mpr ⟨single_mem_operatorTexts.mpr (.inl hc), fun d _ hd => ?_⟩⟩
      have hjoin := comparison_of_joins (pair_mem_operatorTexts.mp hd)
      exact not_single_of_comparison hjoin hc
    · rw [first?_comparison hc] at h
      exact Option.some.inj h ▸ longest_comparison hc
    · rw [first?_quote hc] at h
      exact Option.some.inj h ▸ longest_literal hc
    · rw [first?_digit hc] at h
      obtain rfl := Option.some.inj h
      obtain ⟨rest, hrest⟩ := isPrefix_numberRun {} cs
      refine ⟨rest, by simp [number, plain, hrest], longest_number.mpr ⟨hc, ?_⟩⟩
      rw [hrest]
    · rw [first?_nameStart hc] at h
      obtain rfl := Option.some.inj h
      refine ⟨cs.dropWhile isNameChar, by simp [name, plain], ?_⟩
      refine (longest_name (isNameKind_nameKind _ _)).mpr ⟨hc, ?_, rfl⟩
      rw [List.takeWhile_append_dropWhile]
  · simp [first?_eq_none_iff.mpr (Bool.eq_false_iff.mpr hc)] at h

lemma first?_of_longest_operator (happend : c :: cs = source ++ rest)
    (h : Longest (plain .operator source) rest) : first? c cs = some (plain .operator source) := by
  obtain ⟨hs, hmax⟩ := longest_operator.mp h
  rcases operatorTexts_cases hs with ⟨c', hc, rfl⟩ | ⟨c', hc, rfl⟩ | ⟨c', d, hjoin, rfl⟩
  · obtain ⟨rfl, rfl⟩ := List.cons.inj happend
    exact first?_single hc
  · obtain ⟨rfl, rfl⟩ := List.cons.inj happend
    rw [first?_comparison hc]
    cases cs with
    | nil => rfl
    | cons d cs =>
      have hd : ¬ joinsComparison c d = true := fun hd => hmax d rfl (pair_mem_operatorTexts.mpr hd)
      simp [comparison, hd]
  · obtain ⟨rfl, rfl⟩ := List.cons.inj happend
    rw [first?_comparison (comparison_of_joins hjoin)]
    simp [comparison, hjoin]

lemma first?_of_longest_text {value : List Char} (happend : c :: cs = source ++ rest)
    (h : Longest ⟨.text, source, value⟩ rest) : first? c cs = some ⟨.text, source, value⟩ := by
  obtain ⟨q, hq, hvalue, rfl | ⟨rfl, rfl⟩⟩ := longest_text.mp h
  · obtain ⟨rfl, rfl⟩ : c = q ∧ cs = value ++ q :: rest := by simpa using happend
    rw [first?_quote hq, text_append hvalue (by simp)]
    rfl
  · obtain ⟨rfl, rfl⟩ : c = q ∧ cs = value ++ [] := by simpa using happend
    rw [first?_quote hq, text_append hvalue (by simp)]
    simp

lemma first?_of_longest {l : Lexeme} (happend : c :: cs = l.source ++ rest) (h : Longest l rest) :
    first? c cs = some l := by
  obtain ⟨kind, source, value⟩ := l
  have hs := h.spells
  simp only at hs happend
  cases hs with
  | number hs =>
    obtain ⟨c', source, rfl⟩ := List.exists_cons_of_ne_nil h.spells.source_ne_nil
    obtain ⟨rfl, rfl⟩ : c = c' ∧ cs = source ++ rest := by simpa using happend
    obtain ⟨hd, hrun⟩ := longest_number.mp h
    rw [first?_digit hd, number, hrun]
    rfl
  | operator hs => exact first?_of_longest_operator happend h
  | name hk hs =>
    obtain ⟨c', source, rfl⟩ := List.exists_cons_of_ne_nil h.spells.source_ne_nil
    obtain ⟨rfl, rfl⟩ : c = c' ∧ cs = source ++ rest := by simpa using happend
    obtain ⟨hc, htake, hkind⟩ := (longest_name hk).mp h
    rw [first?_nameStart hc, name]
    simp only [htake, dropWhile_append_eq htake, ← hkind]
    rfl
  | literal | unclosed => exact first?_of_longest_text happend h

lemma Longest.rest_of_function {l : Lexeme} (h : Longest l rest) (hk : l.kind = .function) :
    ∃ rest', rest = '(' :: rest' := by
  have hkind := h.kind_eq (.inl hk)
  rw [hk, eq_comm, nameKind_eq_function] at hkind
  cases rest with
  | nil => simp at hkind
  | cons d rest => exact ⟨rest, by simpa using hkind.2⟩

lemma first?_eq_some_iff {l : Lexeme} :
    first? c cs = some l ↔ ∃ rest, c :: cs = l.source ++ rest ∧ Longest l rest := by
  constructor
  · exact longest_of_first?
  · rintro ⟨rest, happend, h⟩
    exact first?_of_longest happend h

end Longest

end FormulaAudit.Lexeme
