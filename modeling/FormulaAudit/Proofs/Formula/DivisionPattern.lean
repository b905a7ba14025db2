import FormulaAudit.Formula.Division
import FormulaAudit.Proofs.Address.Cell

/-!
What the check for divisions looks for in a text: a `/` with white space perhaps, then a zero, a cell or
a parenthesis; and nowhere a word that catches errors, with white space perhaps, then a parenthesis.
-/

namespace FormulaAudit.Formula.Division

open Text
open Address (splitMarker append_splitMarker splitMarker_append)
open Address.Cell (marker head_ne_dollar takeWhile_letters)

def IsFraction (cs : List Char) : Prop :=
  cs = [] ∨ ∃ zeros, (∀ c ∈ zeros, c = '0') ∧ cs = '.' :: zeros

def IsZero (cs : List Char) : Prop :=
  ∃ zeros fraction, cs = zeros ++ fraction ∧ zeros ≠ [] ∧ (∀ c ∈ zeros, c = '0') ∧ IsFraction fraction

inductive Suspect : List Char → Prop
  | zero {numeral rest : List Char} : IsZero numeral → (∀ c ∈ rest.head?, isDecimal c = false ∧ c ≠ '.') →
      Suspect (numeral ++ rest)
  | cell {letters rest : List Char} {d : Char} (colAbsolute rowAbsolute : Bool) : letters ≠ [] →
      (∀ c ∈ letters, c.isAlpha = true) → isDecimal d = true →
      Suspect ((marker colAbsolute).toList ++ (letters ++ ((marker rowAbsolute).toList ++ d :: rest)))
  | paren {rest : List Char} : Suspect ('(' :: rest)

inductive Guard : List Char → Prop
  | call {word : String} {written blanks rest : List Char} : word = "IFERROR" ∨ word = "IFNA" →
      written.map Char.toUpper = word.toList → (∀ c ∈ blanks, isBlank c = true) →
      Guard (written ++ (blanks ++ '(' :: rest))

def Guarded (cs : List Char) : Prop :=
  ∃ before rest, cs = before ++ rest ∧ Guard rest ∧ ∀ c ∈ before.getLast?, isWord c = false

def Divides (cs : List Char) : Prop :=
  ∃ before blanks divisor, cs = before ++ '/' :: (blanks ++ divisor) ∧
    (∀ c ∈ blanks, isBlank c = true) ∧ Suspect divisor

section Zero

variable {zeros fraction rest : List Char}

lemma dropWhile_zeros (hzeros : ∀ c ∈ zeros, c = '0') (hrest : ∀ c ∈ rest.head?, c ≠ '0') :
    (zeros ++ rest).dropWhile (· == '0') = rest := by
  apply dropWhile_append_eq
  rw [takeWhile_append_eq_iff]
  exact ⟨by simpa using hzeros, by simpa using hrest⟩

lemma zero_ne_of_not_isDecimal {c : Char} (h : isDecimal c = false) : c ≠ '0' := by
  rintro rfl
  exact absurd h (by decide)

def afterFraction : List Char → List Char
  | '.' :: ds => ds.dropWhile (· == '0')
  | ds => ds

lemma afterFraction_eq_self {cs : List Char} (h : ∀ ds, cs = '.' :: ds → False) : afterFraction cs = cs := by
  unfold afterFraction
  split
  · next ds => exact (h ds rfl).elim
  · rfl

lemma startsWithZero_iff {cs : List Char} : startsWithZero cs = true ↔ cs.head? = some '0' ∧
    ∀ c ∈ (afterFraction (cs.dropWhile (· == '0'))).head?, isDecimal c = false ∧ c ≠ '.' := by
  unfold startsWithZero
  split
  · next hhead =>
    rw [and_iff_right hhead]
    split
    · next ds hpoint =>
      rw [hpoint, afterFraction]
      cases ds.dropWhile (· == '0') <;> simp
    · next hpoint =>
      rw [afterFraction_eq_self hpoint]
      cases cs.dropWhile (· == '0') <;> simp
  · next hhead => simpa using fun h => absurd h hhead

lemma afterFraction_append (hfraction : IsFraction fraction) (hrest : ∀ c ∈ rest.head?, c ≠ '0' ∧ c ≠ '.') :
    afterFraction (fraction ++ rest) = rest := by
  rcases hfraction with rfl | ⟨more, hmore, rfl⟩
  · apply afterFraction_eq_self
    rintro ds rfl
    simp at hrest
  · exact dropWhile_zeros hmore fun c hc => (hrest c hc).1

lemma exists_fraction (cs : List Char) : ∃ fraction, IsFraction fraction ∧ cs = fraction ++ afterFraction cs := by
  unfold afterFraction
  split
  · next ds =>
    refine ⟨'.' :: ds.takeWhile (· == '0'), .inr ⟨_, fun c hc => ?_, rfl⟩, by simp⟩
    simpa using List.mem_takeWhile_imp hc
  · exact ⟨[], .inl rfl, rfl⟩

lemma startsWithZero_append {numeral : List Char} (h : IsZero numeral)
    (hrest : ∀ c ∈ rest.head?, isDecimal c = false ∧ c ≠ '.') : startsWithZero (numeral ++ rest) = true := by
  obtain ⟨zeros, fraction, rfl, hne, hzeros, hfraction⟩ := h
  have hrest' : ∀ c ∈ rest.head?, c ≠ '0' ∧ c ≠ '.' := fun c hc =>
    ⟨zero_ne_of_not_isDecimal (hrest c hc).1, (hrest c hc).2⟩
  have hnext : ∀ c ∈ (fraction ++ rest).head?, c ≠ '0' := by
    rcases hfraction with rfl | ⟨more, -, rfl⟩
    · exact fun c hc => (hrest' c hc).1
    · simp
  rw [startsWithZero_iff, List.append_assoc, dropWhile_zeros hzeros hnext, afterFraction_append hfraction hrest']
  obtain ⟨c, zeros, rfl⟩ := List.exists_cons_of_ne_nil hne
  obtain rfl : c = '0' := hzeros c (by simp)
  exact ⟨rfl, hrest⟩

lemma suspect_of_startsWithZero {cs : List Char} (h : startsWithZero cs = true) : Suspect cs := by
  obtain ⟨hhead, hrest⟩ := startsWithZero_iff.mp h
  obtain ⟨fraction, hfraction, hdrop⟩ := exists_fraction (cs.dropWhile (· == '0'))
  have hne : cs.takeWhile (· == '0') ≠ [] := by
    cases cs with
    | nil => simp at hhead
    | cons c cs => simp_all
  rw [← List.takeWhile_append_dropWhile (p := (· == '0')) (l := cs), hdrop, ← List.append_assoc]
  exact .zero ⟨_, _, rfl, hne, fun c hc => by simpa using List.mem_takeWhile_imp hc, hfraction⟩ hrest

end Zero

section Cell

lemma not_isAlpha_of_isDecimal {c : Char} (h : isDecimal c = true) : c.isAlpha = false := by
  rw [Bool.eq_false_iff]
  intro hletter
  have hnot : isDecimal c = false := forall_alpha (P := fun c => isDecimal c = false) (by decide) hletter
  simp [hnot] at h

lemma startsWithCell_append {letters rest : List Char} {d : Char} (colAbsolute rowAbsolute : Bool)
    (hne : letters ≠ []) (hletters : ∀ c ∈ letters, c.isAlpha = true) (hd : isDecimal d = true) :
    startsWithCell ((marker colAbsolute).toList ++
      (letters ++ ((marker rowAbsolute).toList ++ d :: rest))) = true := by
  have hcol := splitMarker_append colAbsolute
    (head_ne_dollar hne hletters rfl ((marker rowAbsolute).toList ++ d :: rest))
  have hrow : splitMarker ((marker rowAbsolute).toList ++ d :: rest) = (rowAbsolute, d :: rest) := by
    apply splitMarker_append
    rintro c hc rfl
    obtain rfl : d = '$' := by simpa using hc
    exact absurd hd (by decide)
  have htake : (letters ++ ((marker rowAbsolute).toList ++ d :: rest)).takeWhile Char.isAlpha = letters :=
    takeWhile_letters rowAbsolute hletters (by simpa using not_isAlpha_of_isDecimal hd)
  simp only [startsWithCell, hcol, htake, dropWhile_append_eq htake, hrow, hd]
  simpa using hne

lemma suspect_of_startsWithCell {cs : List Char} (h : startsWithCell cs = true) : Suspect cs := by
  rcases hcol : splitMarker cs with ⟨colAbsolute, body⟩
  rcases hrow : splitMarker (body.dropWhile Char.isAlpha) with ⟨rowAbsolute, digits⟩
  simp only [startsWithCell, hcol, hrow, Bool.and_eq_true, Bool.not_eq_true', List.isEmpty_eq_false_iff] at h
  cases digits with
  | nil => simp at h
  | cons d rest =>
    have hcs := append_splitMarker cs
    have hrest := append_splitMarker (body.dropWhile Char.isAlpha)
    rw [hcol] at hcs
    rw [hrow] at hrest
    rw [← hcs, ← List.takeWhile_append_dropWhile (p := Char.isAlpha) (l := body), ← hrest]
    exact .cell colAbsolute rowAbsolute h.1 (fun c hc => List.mem_takeWhile_imp hc) h.2

end Cell

section Search

variable {cs : List Char}

lemma isSuspect_iff : isSuspect cs = true ↔ Suspect cs := by
  constructor
  · intro h
    simp only [isSuspect, Bool.or_eq_true] at h
    rcases h with (h | h) | h
    · exact suspect_of_startsWithZero h
    · exact suspect_of_startsWithCell h
    · cases cs with
      | nil => simp [startsWithParen] at h
      | cons c cs =>
        obtain rfl : c = '(' := by simpa [startsWithParen] using h
        exact .paren
  · intro h
    simp only [isSuspect, Bool.or_eq_true]
    cases h with
    | zero hzero hrest => exact .inl (.inl (startsWithZero_append hzero hrest))
    | cell colAbsolute rowAbsolute hne hletters hd =>
      exact .inl (.inr (startsWithCell_append colAbsolute rowAbsolute hne hletters hd))
    | paren => exact .inr rfl

lemma Suspect.not_isBlank (h : Suspect cs) : ∀ c ∈ cs.head?, isBlank c = false := by
  cases h with
  | zero hzero =>
    obtain ⟨zeros, fraction, rfl, hne, hzeros, -⟩ := hzero
    obtain ⟨d, zeros, rfl⟩ := List.exists_cons_of_ne_nil hne
    obtain rfl : d = '0' := hzeros d (by simp)
    simp [isBlank, inRanges, blankRanges]
  | cell colAbsolute _ hne hletters =>
    obtain ⟨d, letters, rfl⟩ := List.exists_cons_of_ne_nil hne
    have hd := not_isBlank_of_isAlpha (hletters d (by simp))
    cases colAbsolute with
    | true => simp [isBlank, inRanges, blankRanges]
    | false => simpa using hd
  | paren => simp [isBlank, inRanges, blankRanges]

lemma isSuspect_trimStart_iff : isSuspect (trimStart cs) = true ↔
    ∃ blanks divisor, cs = blanks ++ divisor ∧ (∀ c ∈ blanks, isBlank c = true) ∧ Suspect divisor := by
  rw [isSuspect_iff]
  constructor
  · intro h
    exact ⟨_, _, List.takeWhile_append_dropWhile.symm, fun c hc => List.mem_takeWhile_imp hc, h⟩
  · rintro ⟨blanks, divisor, rfl, hblanks, h⟩
    rwa [trimStart, dropWhile_append_eq (takeWhile_append_eq_iff.mpr ⟨hblanks, h.not_isBlank⟩)]

lemma hasSuspect_iff : hasSuspect cs = true ↔ Divides cs := by
  induction cs with
  | nil => simp [hasSuspect, Divides]
  | cons c cs ih =>
    rw [hasSuspect, Bool.or_eq_true, Bool.and_eq_true, beq_iff_eq, isSuspect_trimStart_iff, ih]
    constructor
    · rintro (⟨rfl, blanks, divisor, rfl, h⟩ | ⟨before, blanks, divisor, rfl, h⟩)
      · exact ⟨[], blanks, divisor, rfl, h⟩
      · exact ⟨c :: before, blanks, divisor, rfl, h⟩
    · rintro ⟨before, blanks, divisor, happend, h⟩
      cases before with
      | nil =>
        obtain ⟨rfl, rfl⟩ := List.cons.inj happend
        exact .inl ⟨rfl, blanks, divisor, rfl, h⟩
      | cons d before =>
        obtain ⟨rfl, rfl⟩ := List.cons.inj happend
        exact .inr ⟨before, blanks, divisor, rfl, h⟩

end Search

section Guards

variable {cs : List Char}

lemma afterWord_eq_some_iff {word rest : List Char} :
    afterWord word cs = some rest ↔ ∃ written, cs = written ++ rest ∧ written.map Char.toUpper = word := by
  induction word generalizing cs with
  | nil => simp [afterWord, eq_comm]
  | cons w word ih =>
    cases cs with
    | nil => simp [afterWord]
    | cons c cs =>
      simp only [afterWord, beq_iff_eq]
      constructor
      · intro h
        split at h
        · next hc =>
          obtain ⟨written, rfl, hwritten⟩ := ih.mp h
          exact ⟨c :: written, rfl, by rw [List.map_cons, hc, hwritten]⟩
        · simp at h
      · rintro ⟨written, happend, hwritten⟩
        obtain ⟨d, written, rfl⟩ : ∃ d tail, written = d :: tail := by
          cases written with
          | nil => simp at hwritten
          | cons d tail => exact ⟨d, tail, rfl⟩
        obtain ⟨rfl, rfl⟩ := List.cons.inj happend
        obtain ⟨hd, hwritten⟩ := List.cons.inj hwritten
        rw [if_pos hd]
        exact ih.mpr ⟨written, rfl, hwritten⟩

lemma startsWithParen_trimStart_iff : startsWithParen (trimStart cs) = true ↔
    ∃ blanks rest, cs = blanks ++ '(' :: rest ∧ ∀ c ∈ blanks, isBlank c = true := by
  simp only [startsWithParen, beq_iff_eq, List.head?_eq_some_iff]
  constructor
  · rintro ⟨rest, hrest⟩
    refine ⟨cs.takeWhile isBlank, rest, ?_, fun c hc => List.mem_takeWhile_imp hc⟩
    rw [← hrest, trimStart, List.takeWhile_append_dropWhile]
  · rintro ⟨blanks, rest, rfl, hblanks⟩
    have hparen : ∀ c ∈ ('(' :: rest).head?, isBlank c = false := by simp [isBlank, inRanges, blankRanges]
    exact ⟨rest, dropWhile_append_eq (takeWhile_append_eq_iff.mpr ⟨hblanks, hparen⟩)⟩

lemma startsWithGuard_iff : startsWithGuard cs = true ↔ Guard cs := by
  simp only [startsWithGuard, List.any_eq_true, List.mem_cons, List.not_mem_nil, or_false]
  constructor
  · rintro ⟨word, hword, h⟩
    split at h
    · next rest hrest =>
      obtain ⟨written, rfl, hwritten⟩ := afterWord_eq_some_iff.mp hrest
      obtain ⟨blanks, rest, rfl, hblanks⟩ := startsWithParen_trimStart_iff.mp h
      exact .call hword hwritten hblanks
    · simp at h
  · rintro ⟨hword, hwritten, hblanks⟩
    refine ⟨_, hword, ?_⟩
    rw [afterWord_eq_some_iff.mpr ⟨_, rfl, hwritten⟩]
    exact startsWithParen_trimStart_iff.mpr ⟨_, _, rfl, hblanks⟩

lemma Guard.ne_nil (h : Guard cs) : cs ≠ [] := by
  obtain ⟨-, -, -⟩ := h
  simp

lemma hasGuard_iff {start : Bool} : hasGuard start cs = true ↔ ∃ before rest, cs = before ++ rest ∧
    Guard rest ∧ (before = [] → start = true) ∧ ∀ c ∈ before.getLast?, isWord c = false := by
  induction cs generalizing start with
  | nil =>
    refine iff_of_false (by simp [hasGuard]) ?_
    rintro ⟨before, rest, hnil, hguard, -⟩
    exact hguard.ne_nil (List.append_eq_nil_iff.mp hnil.symm).2
  | cons c cs ih =>
    rw [hasGuard, Bool.or_eq_true, Bool.and_eq_true, startsWithGuard_iff, ih, Bool.not_eq_true']
    constructor
    · rintro (⟨hstart, hguard⟩ | ⟨before, rest, rfl, hguard, hnil, hlast⟩)
      · exact ⟨[], c :: cs, rfl, hguard, fun _ => hstart, by simp⟩
      · refine ⟨c :: before, rest, rfl, hguard, by simp, ?_⟩
        cases before with
        | nil => simpa using hnil rfl
        | cons d before => simpa using hlast
    · rintro ⟨before, rest, happend, hguard, hnil, hlast⟩
      cases before with
      | nil => exact .inl ⟨hnil rfl, by simpa [happend] using hguard⟩
      | cons d before =>
        obtain ⟨rfl, rfl⟩ := List.cons.inj happend
        refine .inr ⟨before, rest, rfl, hguard, ?_, ?_⟩
        · rintro rfl
          simpa using hlast
        · intro e he
          apply hlast
          cases before with
          | nil => simp at he
          | cons f before => simpa using he

lemma guarded_iff : Guarded cs ↔ hasGuard true cs = true := by
  simp [hasGuard_iff, Guarded]

end Guards

lemma mayDivideByZero_iff {s : String} :
    mayDivideByZero s = true ↔ Divides s.toList ∧ ¬ Guarded s.toList := by
  rw [mayDivideByZero, Bool.and_eq_true, hasSuspect_iff, Bool.not_eq_true', guarded_iff, Bool.not_eq_true]

end FormulaAudit.Formula.Division
