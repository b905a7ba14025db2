import FormulaAudit.Proofs.Formula.DivisionPattern
import FormulaAudit.Proofs.Token.Coverage

/-!
The check for divisions reads the raw text, not its tokens. It still finds every division by a zero, a
cell or a parenthesis that the tokens show, if only white space stands between them.
-/

namespace FormulaAudit

open Text

namespace Text

lemma not_inRanges_of_disjoint {rs qs : List (Nat × Nat)} {c : Char}
    (h : (rs.all fun r => qs.all fun q => decide (r.2 < q.1) || decide (q.2 < r.1)) = true)
    (hc : inRanges rs c = true) : inRanges qs c = false := by
  obtain ⟨r, hr, hlow, hhigh⟩ := inRanges_iff.mp hc
  rw [Bool.eq_false_iff]
  intro hq
  obtain ⟨q, hq, hlow', hhigh'⟩ := inRanges_iff.mp hq
  have hdisjoint := List.all_eq_true.mp (List.all_eq_true.mp h r hr) q hq
  simp only [Bool.or_eq_true, decide_eq_true_eq] at hdisjoint
  omega

lemma not_isDecimal_of_isBlank {c : Char} (h : isBlank c = true) : isDecimal c = false :=
  not_inRanges_of_disjoint (by decide) h

lemma isDecimal_of_isDigit {c : Char} (h : c.isDigit = true) : isDecimal c = true :=
  forall_digit (P := fun c => isDecimal c = true) (by decide) h

end Text

namespace Lexeme

lemma IsNumber.append_digit {cs : List Char} {d : Char} (h : IsNumber cs) (hd : d.isDigit = true) :
    IsNumber (cs ++ [d]) := by
  obtain ⟨hpoint, hmark, hsign⟩ := digit_ne hd
  refine ⟨?_, ?_, ?_, ?_, ?_⟩
  · obtain ⟨c, hc, hdigit⟩ := h.first
    exact ⟨c, by simp [Option.mem_def.mp hc], hdigit⟩
  · intro c hc
    rcases List.mem_append.mp hc with hc | hc
    · exact h.chars c hc
    · exact .inl (List.mem_singleton.mp hc ▸ hd)
  · simpa [List.count_singleton, hpoint] using h.points
  · simpa [hmark] using h.marks
  · rw [List.isChain_append]
    exact ⟨h.signs, .singleton d, by simp [hsign]⟩

lemma not_number_of_isStart {c : Char} (h : isStart c = true) (hd : c.isDigit = false) :
    isDecimal c = false ∧ c ≠ '.' := by
  have hsymbols : (singleOperators ++ ['<', '>', '"', '\x27', '$']).all
      (fun c => !isDecimal c && c != '.') = true := by decide
  have hsymbol (hc : c ∈ singleOperators ++ ['<', '>', '"', '\x27', '$']) : isDecimal c = false ∧ c ≠ '.' := by
    simpa using List.all_eq_true.mp hsymbols c hc
  rcases isStart_iff.mp h with hc | hc | hc | hc | hc
  · exact hsymbol (by simp [hc])
  · exact hsymbol (by rcases hc with rfl | rfl <;> simp)
  · simp only [isQuote, Bool.or_eq_true, beq_iff_eq] at hc
    exact hsymbol (by rcases hc with rfl | rfl <;> simp)
  · simp [hc] at hd
  · simp only [isNameStart, Bool.or_eq_true, beq_iff_eq] at hc
    rcases hc with hc | rfl
    · exact forall_alpha (P := fun c => isDecimal c = false ∧ c ≠ '.') (by decide) hc
    · exact hsymbol (by simp)

lemma Spells.value_eq {kind : Token.Kind} {source value : List Char} (h : Spells kind source value)
    (hk : kind ≠ .text) : value = source := by
  cases h with
  | number | operator | name => rfl
  | literal | unclosed => exact absurd rfl hk

end Lexeme

namespace Token

open Lexeme (Longest isStart)

inductive Spaced : List Char → List Token → Prop
  | nil : Spaced [] []
  | blank {c : Char} {cs : List Char} {ts : List Token} : isBlank c = true → Spaced cs ts → Spaced (c :: cs) ts
  | token {l : Lexeme} {rest : List Char} {t : Token} {ts : List Token} : Longest l rest → t.kind = l.kind →
      t.value = .ofList l.value → Spaced rest ts → Spaced (l.source ++ rest) (t :: ts)

lemma Scans.spaced {pos : Nat} {cs : List Char} {ts : List Token} (h : Scans pos cs ts)
    (hblank : ∀ before c after, cs = before ++ c :: after →
      (∀ t ∈ ts, ¬ (t.start ≤ pos + byteSize before ∧ pos + byteSize before < t.stop)) → isBlank c = true) :
    Spaced cs ts := by
  induction h with
  | nil => exact .nil
  | @skip pos c cs ts _ hscans ih =>
    refine .blank (hblank [] c cs rfl ?_) (ih ?_)
    · intro t ht hspan
      have hstart := hscans.le_start ht
      have hsize := c.utf8Size_pos
      simp only [byteSize_nil] at hspan
      omega
    · intro before d after hcs hout
      refine hblank (c :: before) d after (by rw [hcs, List.cons_append]) ?_
      simpa [Nat.add_assoc] using hout
  | @token pos l rest ts hl hscans ih =>
    refine .token hl rfl rfl (ih ?_)
    intro before d after hcs hout
    refine hblank (l.source ++ before) d after (by rw [hcs, List.append_assoc]) ?_
    intro t ht
    rcases List.mem_cons.mp ht with rfl | ht
    · simp only [byteSize_append]
      omega
    · simpa [Nat.add_assoc] using hout t ht

namespace Spaced

variable {cs : List Char} {t : Token} {ts us : List Token}

lemma exists_lexeme (h : Spaced cs (t :: ts)) : ∃ blanks l rest, cs = blanks ++ (l.source ++ rest) ∧
    (∀ c ∈ blanks, isBlank c = true) ∧ Longest l rest ∧ t.kind = l.kind ∧ t.value = .ofList l.value ∧
    Spaced rest ts := by
  generalize hws : t :: ts = ws at h
  induction h with
  | nil => simp at hws
  | @blank c cs ws hc _ ih =>
    obtain ⟨blanks, l, rest, rfl, hblanks, hl⟩ := ih hws
    exact ⟨c :: blanks, l, rest, rfl, by simpa [hc] using hblanks, hl⟩
  | @token l rest u ws hl hkind hvalue hrest =>
    obtain ⟨rfl, rfl⟩ := List.cons.inj hws
    exact ⟨[], l, rest, rfl, by simp, hl, hkind, hvalue, hrest⟩

lemma exists_suffix (h : Spaced cs (us ++ ts)) : ∃ before rest, cs = before ++ rest ∧ Spaced rest ts := by
  induction us generalizing cs with
  | nil => exact ⟨[], cs, rfl, h⟩
  | cons u us ih =>
    obtain ⟨blanks, l, rest, rfl, -, -, -, -, hrest⟩ := h.exists_lexeme
    obtain ⟨before, rest', rfl, hrest'⟩ := ih hrest
    exact ⟨blanks ++ (l.source ++ before), rest', by simp, hrest'⟩

lemma isBlank_or_isStart (h : Spaced cs ts) : ∀ c ∈ cs.head?, isBlank c = true ∨ isStart c = true := by
  cases h with
  | nil => simp
  | blank hc => simp [hc]
  | @token l rest _ _ hl =>
    intro c hc
    obtain ⟨cs', hcs⟩ := List.head?_eq_some_iff.mp hc
    right
    by_contra hstart
    have hfirst := Lexeme.first?_of_longest hcs.symm hl
    rw [Lexeme.first?_eq_none_iff.mpr (Bool.eq_false_iff.mpr hstart)] at hfirst
    simp at hfirst

end Spaced

def IsDivisor (t : Token) : Prop :=
  t.IsSymbol "(" ∨ (t.kind = .cellRef ∧ ∃ c, Address.Cell.parse t.value = .ok c) ∨
    t.kind = .number ∧ Formula.Division.IsZero (t.value.toList.takeWhile (!Lexeme.isMark ·))

end Token

namespace Formula.Division

open Lexeme (Longest isMark)

section Divisor

variable {l : Lexeme} {rest : List Char} {t : Token}

lemma toList_value (hl : Longest l rest) (hkind : t.kind = l.kind) (hvalue : t.value = .ofList l.value)
    (hk : t.kind ≠ .text) : t.value.toList = l.source := by
  rw [hvalue, String.toList_ofList, hl.spells.value_eq (hkind ▸ hk)]

lemma source_of_isSymbol {symbol : String} (hl : Longest l rest) (hkind : t.kind = l.kind)
    (hvalue : t.value = .ofList l.value) (h : t.IsSymbol symbol) : l.source = symbol.toList := by
  rw [← toList_value hl hkind hvalue (by simp [h.1]), h.2]

lemma suspect_cell {c : Address.Cell} (hl : Longest l rest) (hk : l.kind = .cellRef)
    (hparse : Address.Cell.parse (.ofList l.source) = .ok c) : Suspect (l.source ++ rest) := by
  have hspells := hl.spells
  rw [hk, Lexeme.spells_name (.inr (.inl rfl))] at hspells
  have hblank : ∀ ch ∈ l.source, isBlank ch = false := fun ch hch =>
    Lexeme.not_isBlank_of_isNameChar (hspells.1.chars ch hch)
  rw [Address.Cell.parse, String.toList_ofList, trimChars_eq_self hblank] at hparse
  obtain ⟨letters, digits, hspelled⟩ := Address.Cell.spelled_of_parseChars hparse
  obtain ⟨d, ds, rfl⟩ := List.exists_cons_of_ne_nil hspelled.digits_ne
  have hd : isDecimal d = true := isDecimal_of_isDigit (hspelled.isDigit_of_mem d (by simp))
  rw [hspelled.append_eq]
  simpa using .cell c.colAbsolute c.rowAbsolute hspelled.letters_ne hspelled.isAlpha_of_mem hd

lemma suspect_number {ts : List Token} (hl : Longest l rest) (hk : l.kind = .number)
    (hrest : Token.Spaced rest ts) (hzero : IsZero (l.source.takeWhile (!isMark ·))) :
    Suspect (l.source ++ rest) := by
  obtain ⟨hspells, hmaximal, -⟩ := hl
  rw [hk] at hspells hmaximal
  rw [← List.takeWhile_append_dropWhile (p := (!isMark ·)) (l := l.source), List.append_assoc]
  refine .zero hzero fun c hc => ?_
  cases hdrop : l.source.dropWhile (!isMark ·) with
  | nil =>
    -- the number ends here, so no digit follows
    rw [hdrop, List.nil_append] at hc
    rcases hrest.isBlank_or_isStart c hc with hblank | hstart
    · refine ⟨not_isDecimal_of_isBlank hblank, ?_⟩
      rintro rfl
      exact absurd hblank (by decide)
    · refine Lexeme.not_number_of_isStart hstart (Bool.eq_false_iff.mpr fun hdigit => ?_)
      exact hmaximal c hc _ (.number ((Lexeme.spells_number.mp hspells).1.append_digit hdigit))
  | cons m more =>
    -- the exponent mark follows
    have hmark := List.head?_dropWhile_not (!isMark ·) l.source
    rw [hdrop] at hmark hc
    obtain rfl : m = c := by simpa using hc
    simp only [List.head?_cons, Bool.not_eq_false', isMark, Bool.or_eq_true, beq_iff_eq] at hmark
    rcases hmark with rfl | rfl <;> exact ⟨by decide, by decide⟩

lemma suspect_of_isDivisor {ts : List Token} (hl : Longest l rest) (hkind : t.kind = l.kind)
    (hvalue : t.value = .ofList l.value) (hrest : Token.Spaced rest ts) (h : t.IsDivisor) :
    Suspect (l.source ++ rest) := by
  rcases h with hparen | ⟨hk, c, hparse⟩ | ⟨hk, hzero⟩
  · rw [source_of_isSymbol hl hkind hvalue hparen]
    exact .paren
  · apply suspect_cell hl (hkind.symm.trans hk)
    rwa [← toList_value hl hkind hvalue (by simp [hk]), String.ofList_toList]
  · apply suspect_number hl (hkind.symm.trans hk) hrest
    rwa [← toList_value hl hkind hvalue (by simp [hk])]

end Divisor

theorem mayDivideByZero_of_divisor {s : String} {before after : List Token} {slash t : Token}
    (hblank : ∀ pre c post, s.toList = pre ++ c :: post →
      (∀ u ∈ Token.scan s, ¬ (u.start ≤ (String.ofList pre).utf8ByteSize ∧
        (String.ofList pre).utf8ByteSize < u.stop)) → isBlank c = true)
    (htokens : Token.scan s = before ++ slash :: t :: after) (hslash : slash.IsSymbol "/")
    (ht : t.IsDivisor) (hguard : ¬ Guarded s.toList) : mayDivideByZero s = true := by
  have hscans : Token.Scans 0 s.toList (Token.scan s) := Token.scans_scanFrom 0 s.toList
  have hspaced : Token.Spaced s.toList (Token.scan s) := by
    apply hscans.spaced
    intro pre c post hs hout
    apply hblank pre c post hs
    simpa [← Token.byteSize_eq_utf8ByteSize] using hout
  rw [htokens] at hspaced
  obtain ⟨pre, cs, hs, hcs⟩ := hspaced.exists_suffix
  obtain ⟨gap, l, rest, rfl, -, hl, hkind, hvalue, hrest⟩ := hcs.exists_lexeme
  obtain ⟨blanks, l', rest', rfl, hblanks, hl', hkind', hvalue', hrest'⟩ := hrest.exists_lexeme
  have hdivides : Divides s.toList := by
    refine ⟨pre ++ gap, blanks, l'.source ++ rest', ?_, hblanks, ?_⟩
    · rw [hs, source_of_isSymbol hl hkind hvalue hslash]
      simp
    · exact suspect_of_isDivisor hl' hkind' hvalue' hrest' ht
  exact mayDivideByZero_iff.mpr ⟨hdivides, hguard⟩

theorem mayDivideByZero_of_divisor_exponent :
    Token.scan "1/\u00a000E" = [⟨.number, "1", 0, 1⟩, ⟨.operator, "/", 1, 2⟩, ⟨.number, "00E", 4, 7⟩] ∧
      (⟨.number, "00E", 4, 7⟩ : Token).IsDivisor ∧ ¬ Guarded "1/\u00a000E".toList ∧
      mayDivideByZero "1/\u00a000E" = true := by
  have hscan : Token.scan "1/\u00a000E" =
      [⟨.number, "1", 0, 1⟩] ++ ⟨.operator, "/", 1, 2⟩ :: ⟨.number, "00E", 4, 7⟩ :: [] := by decide +kernel
  have hdivisor : (⟨.number, "00E", 4, 7⟩ : Token).IsDivisor :=
    .inr (.inr ⟨rfl, ['0', '0'], [], by decide, by decide, by simp, .inl rfl⟩)
  have hguard : ¬ Guarded "1/\u00a000E".toList := by
    rw [guarded_iff]
    decide +kernel
  refine ⟨hscan, hdivisor, hguard, mayDivideByZero_of_divisor ?_ hscan ⟨rfl, rfl⟩ hdivisor hguard⟩
  intro pre c post hs hout
  rcases (Token.scans_scanFrom 0 "1/\u00a000E".toList).covers_or_skips hs with ⟨u, hu, hspan⟩ | hskip
  · exact absurd (by simpa [← Token.byteSize_eq_utf8ByteSize] using hspan) (hout u hu)
  · have hchars : "1/\u00a000E".toList.all (fun c => Lexeme.isStart c || isBlank c) = true := by decide +kernel
    have hc := List.all_eq_true.mp hchars c (by rw [hs]; simp)
    simpa [hskip] using hc

end Formula.Division

end FormulaAudit
