import FormulaAudit.Proofs.Token.Coverage

/-!
Tokens written as text, with a space between them where they need not touch. Scanning undoes writing,
and every scanned list of tokens can be written.
-/

namespace FormulaAudit.Token

open Lexeme (Longest Spells IsNumber IsName IsNameKind isQuote operatorTexts)

def IsValue : Kind → List Char → Prop
  | .number, cs => IsNumber cs
  | .text, cs => '"' ∉ cs ∨ '\x27' ∉ cs
  | .operator, cs => cs ∈ operatorTexts
  | .rangeRef, cs => IsName cs ∧ ':' ∈ cs
  | .function, cs => IsName cs ∧ ':' ∉ cs
  | .cellRef, cs => IsName cs ∧ ':' ∉ cs

instance : ∀ kind cs, Decidable (IsValue kind cs)
  | .number, cs => inferInstanceAs (Decidable (IsNumber cs))
  | .text, cs => inferInstanceAs (Decidable ('"' ∉ cs ∨ '\x27' ∉ cs))
  | .operator, cs => inferInstanceAs (Decidable (cs ∈ operatorTexts))
  | .rangeRef, cs => inferInstanceAs (Decidable (IsName cs ∧ ':' ∈ cs))
  | .function, cs => inferInstanceAs (Decidable (IsName cs ∧ ':' ∉ cs))
  | .cellRef, cs => inferInstanceAs (Decidable (IsName cs ∧ ':' ∉ cs))

def IsLexical (t : Token) : Prop :=
  IsValue t.kind t.value.toList
  deriving Decidable

inductive Writes : Token → List Char → Prop
  | literal {t : Token} {q : Char} : t.kind = .text → isQuote q = true → q ∉ t.value.toList →
      Writes t (q :: (t.value.toList ++ [q]))
  | plain {t : Token} : t.kind ≠ .text → Writes t t.value.toList

def gap (t : Token) : List Char :=
  if t.kind = .function then [] else [' ']

inductive Written : List Token → List Char → Prop
  | nil : Written [] []
  | single {t : Token} {cs : List Char} : Writes t cs → Written [t] cs
  | cons {t u : Token} {us : List Token} {cs rest : List Char} : Writes t cs →
      Written (u :: us) rest → Written (t :: u :: us) (cs ++ gap t ++ rest)

def label (t : Token) : Kind × String :=
  (t.kind, t.value)

lemma IsLexical.exists_writes {t : Token} (h : t.IsLexical) : ∃ cs, Writes t cs := by
  by_cases hk : t.kind = .text
  · simp only [IsLexical, hk, IsValue] at h
    rcases h with h | h
    · exact ⟨_, .literal hk rfl h⟩
    · exact ⟨_, .literal hk rfl h⟩
  · exact ⟨_, .plain hk⟩

lemma exists_written {ts : List Token} (h : ∀ t ∈ ts, t.IsLexical) : ∃ cs, Written ts cs := by
  induction ts with
  | nil => exact ⟨[], .nil⟩
  | cons t ts ih =>
    obtain ⟨cs, hcs⟩ := (h t (by simp)).exists_writes
    cases ts with
    | nil => exact ⟨cs, .single hcs⟩
    | cons u us =>
      obtain ⟨rest, hrest⟩ := ih fun v hv => h v (by simp [hv])
      exact ⟨_, .cons hcs hrest⟩

section Writes

variable {t : Token} {cs rest : List Char}

lemma Writes.spells (ht : t.IsLexical) (h : Writes t cs) : Spells t.kind cs t.value.toList := by
  cases h with
  | literal hk hq hvalue => exact hk ▸ .literal hq hvalue
  | plain hk =>
    unfold IsLexical at ht
    generalize t.kind = kind at ht hk
    cases kind with
    | text => exact absurd rfl hk
    | number => exact .number ht
    | operator => exact .operator ht
    | function | cellRef | rangeRef => exact .name (by simp [IsNameKind]) ht.1

lemma Writes.not_spells (h : Writes t cs) {d : Char}
    (hd : d = ' ' ∨ d = '(' ∧ IsNameKind t.kind) (value : List Char) :
    ¬ Spells t.kind (cs ++ [d]) value := by
  cases h with
  | literal hk _ _ =>
    rw [hk]
    exact Lexeme.not_spells_literal_append
  | plain hk =>
    intro hs
    have hmem : d ∈ t.value.toList ++ [d] := by simp
    generalize t.value.toList ++ [d] = source at hs hmem
    generalize t.kind = kind at hk hd hs
    cases hs with
    | number hs =>
      have hspace : d = ' ' := by simpa [IsNameKind] using hd
      have hnot : ¬ Lexeme.IsNumberChar ' ' := by decide
      exact hnot (hspace ▸ hs.chars d hmem)
    | operator hs =>
      have hspace : d = ' ' := by simpa [IsNameKind] using hd
      have hnone : ∀ o ∈ operatorTexts, ' ' ∉ o := by decide
      exact hnone _ hs (hspace ▸ hmem)
    | name _ hs =>
      have hname := hs.chars d hmem
      rcases hd with rfl | ⟨rfl, -⟩ <;> simp [Lexeme.isNameChar, Char.isAlpha, Char.isDigit] at hname
    | literal | unclosed => exact hk rfl

lemma IsLexical.kind_eq (ht : t.IsLexical) (hk : IsNameKind t.kind)
    (hcall : t.kind = .function ↔ rest.head? = some '(') :
    t.kind = Lexeme.nameKind t.value.toList rest := by
  unfold IsLexical at ht
  rcases hk with hk | hk | hk
  · rw [hk] at ht
    rw [hk, Lexeme.nameKind_eq_function.mpr ⟨ht.2, hcall.mp hk⟩]
  · rw [hk] at ht
    have hparen : rest.head? ≠ some '(' := fun h => by simpa [hk] using hcall.mpr h
    simp [hk, Lexeme.nameKind, ht.2, hparen]
  · rw [hk] at ht
    rw [hk, Lexeme.nameKind_eq_rangeRef.mpr ht.2]

lemma Writes.eq_value (h : Writes t cs) (hk : t.kind ≠ .text) : cs = t.value.toList := by
  cases h with
  | literal ht => exact absurd ht hk
  | plain => rfl

lemma Writes.longest (ht : t.IsLexical) (h : Writes t cs)
    (hspace : t.kind ≠ .function → ∀ d ∈ rest.head?, d = ' ')
    (hcall : t.kind = .function → rest.head? = some '(') : Longest ⟨t.kind, cs, t.value.toList⟩ rest := by
  refine ⟨h.spells ht, fun d hd value => h.not_spells ?_ value, fun hk => ?_⟩
  · by_cases hf : t.kind = .function
    · rw [hcall hf] at hd
      exact .inr ⟨(Option.some.inj hd).symm, .inl hf⟩
    · exact .inl (hspace hf d hd)
  · have hvalue : cs = t.value.toList := h.eq_value (by
      intro htext
      simp [IsNameKind, htext] at hk)
    subst hvalue
    refine ht.kind_eq hk ⟨hcall, fun hparen => ?_⟩
    by_contra hf
    simpa using hspace hf '(' hparen

lemma scans_of_longest {pos : Nat} {us : List Token}
    (hl : Longest ⟨t.kind, cs, t.value.toList⟩ rest) (hs : Scans (pos + byteSize cs) rest us) :
    Scans pos (cs ++ rest) (⟨t.kind, t.value, pos, pos + byteSize cs⟩ :: us) := by
  simpa using Scans.token hl hs

end Writes

lemma Written.head_of_open {ts : List Token} {t : Token} {cs : List Char} (h : Written (t :: ts) cs)
    (ht : t.IsSymbol "(") : cs.head? = some '(' := by
  have hvalue {ds : List Char} (hw : Writes t ds) : ds = ['('] := by
    simp [hw.eq_value (by simp [ht.1]), ht.2]
  cases h with
  | single h => simp [hvalue h]
  | cons h _ => simp [hvalue h]

lemma Written.scans {ts : List Token} {cs : List Char} (h : Written ts cs) (hts : ∀ t ∈ ts, t.IsLexical)
    (hc : Called ts) (pos : Nat) : ∃ us, Scans pos cs us ∧ us.map label = ts.map label := by
  induction h generalizing pos with
  | nil => exact ⟨[], .nil pos, rfl⟩
  | @single t cs hw =>
    have hf : t.kind ≠ .function := by
      cases hc with
      | cons hf => exact hf
    have hl : Longest ⟨t.kind, cs, t.value.toList⟩ [] :=
      hw.longest (hts t (by simp)) (by simp) (fun h => absurd h hf)
    refine ⟨[⟨t.kind, t.value, pos, pos + byteSize cs⟩], ?_, rfl⟩
    simpa using scans_of_longest hl (.nil (pos + byteSize cs))
  | @cons t u us cs rest hw hrest ih =>
    have ht := hts t (by simp)
    have hus : ∀ v ∈ u :: us, v.IsLexical := fun v hv => hts v (by simp [hv])
    by_cases hf : t.kind = .function
    · obtain ⟨hparen, hc⟩ : u.IsSymbol "(" ∧ Called us := by
        cases hc with
        | cons h => exact absurd hf h
        | call _ hparen hc => exact ⟨hparen, hc⟩
      -- the name ends at its parenthesis, which makes it a function
      obtain ⟨vs, hvs, hlabel⟩ := ih hus (.cons (by simp [hparen.1]) hc) (pos + byteSize cs)
      have hl := hw.longest ht (fun h => absurd hf h) fun _ => hrest.head_of_open hparen
      refine ⟨⟨t.kind, t.value, pos, pos + byteSize cs⟩ :: vs, ?_, by simp [label, hlabel]⟩
      rw [gap, if_pos hf, List.append_nil]
      exact scans_of_longest hl hvs
    · -- the space ends the token and starts none
      obtain ⟨vs, hvs, hlabel⟩ := ih hus (hc.tail hf) (pos + byteSize cs + ' '.utf8Size)
      have hl : Longest ⟨t.kind, cs, t.value.toList⟩ (' ' :: rest) :=
        hw.longest ht (by simp) (fun h => absurd h hf)
      refine ⟨⟨t.kind, t.value, pos, pos + byteSize cs⟩ :: vs, ?_, by simp [label, hlabel]⟩
      rw [gap, if_neg hf, List.append_assoc]
      exact scans_of_longest hl (.skip (by decide) hvs)

lemma isLexical_of_longest {l : Lexeme} {rest : List Char} (h : Longest l rest) (start stop : Nat) :
    IsLexical ⟨l.kind, .ofList l.value, start, stop⟩ := by
  obtain ⟨kind, source, value⟩ := l
  have hs := h.spells
  have hkind := h.kind_eq
  simp only at hs hkind
  cases hs with
  | number hs | operator hs => simpa [IsLexical, IsValue] using hs
  | name hk hs =>
    have hk' := hkind hk
    rcases hk with rfl | rfl | rfl
    · have hcolon := (Lexeme.nameKind_eq_function.mp hk'.symm).1
      simpa [IsLexical, IsValue] using ⟨hs, hcolon⟩
    · have hcolon : ':' ∉ source := fun hmem => by simp [Lexeme.nameKind_eq_rangeRef.mpr hmem] at hk'
      simpa [IsLexical, IsValue] using ⟨hs, hcolon⟩
    · simpa [IsLexical, IsValue] using ⟨hs, Lexeme.nameKind_eq_rangeRef.mp hk'.symm⟩
  | literal hq hvalue | unclosed hq hvalue =>
    simp only [isQuote, Bool.or_eq_true, beq_iff_eq] at hq
    rcases hq with rfl | rfl <;> simp [IsLexical, IsValue, hvalue]

theorem scan_of_written :
    (∀ ts : List Token, (∀ t ∈ ts, t.IsLexical) → Called ts → (∃ text, Written ts text) ∧
      ∀ text : String, Written ts text.toList → (scan text).map label = ts.map label) ∧
    (∀ s, (∀ t ∈ scan s, t.IsLexical) ∧ Called (scan s)) ∧
    ∀ s text, Written (scan s) text.toList → (scan text).map label = (scan s).map label := by
  have hwrite (ts : List Token) (hts : ∀ t ∈ ts, t.IsLexical) (hc : Called ts) (text : String)
      (h : Written ts text.toList) : (scan text).map label = ts.map label := by
    obtain ⟨us, hus, hlabel⟩ := h.scans hts hc 0
    rw [← hlabel, ← hus.eq_scanFrom]
    rfl
  have hscan (s : String) : (∀ t ∈ scan s, t.IsLexical) ∧ Called (scan s) := by
    refine ⟨fun t ht => ?_, called_scanFrom 0 s.toList⟩
    obtain ⟨before, l, after, -, hl, rfl⟩ := (scans_scanFrom 0 s.toList).exists_longest ht
    exact isLexical_of_longest hl _ _
  refine ⟨fun ts hts hc => ⟨exists_written hts, hwrite ts hts hc⟩, hscan, fun s text h => ?_⟩
  exact hwrite (scan s) (hscan s).1 (hscan s).2 text h

theorem scan_of_written_exponent :
    let ts : List Token := [⟨.number, "1e", 0, 0⟩, ⟨.operator, "+", 0, 0⟩, ⟨.function, "SUM", 0, 0⟩,
      ⟨.operator, "(", 0, 0⟩, ⟨.text, "it's", 0, 0⟩, ⟨.operator, ")", 0, 0⟩]
    (∀ t ∈ ts, t.IsLexical) ∧ Called ts ∧ Written ts "1e + SUM( \"it's\" )".toList ∧
      (scan "1e + SUM( \"it's\" )").map label = ts.map label := by
  intro ts
  have hts : ∀ t ∈ ts, t.IsLexical := by
    simp only [ts, List.forall_mem_cons, List.not_mem_nil, false_imp_iff, implies_true, and_true]
    refine ⟨?_, ?_, ?_, ?_, ?_, ?_⟩ <;> decide +kernel
  have hc : Called ts := by
    refine .cons (by decide) (.cons (by decide) (.call rfl ⟨rfl, rfl⟩ (.cons (by decide) ?_)))
    exact .cons (by decide) .nil
  have hw : Written ts "1e + SUM( \"it's\" )".toList := by
    have hliteral : Writes ⟨.text, "it's", 0, 0⟩ ('"' :: ("it's".toList ++ ['"'])) :=
      .literal rfl rfl (by decide)
    refine .cons (.plain (by decide)) (.cons (.plain (by decide)) (.cons (.plain (by decide)) ?_))
    exact .cons (.plain (by decide)) (.cons hliteral (.single (.plain (by decide))))
  exact ⟨hts, hc, hw, (scan_of_written.1 ts hts hc).2 _ hw⟩

end FormulaAudit.Token
