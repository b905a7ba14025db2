import FormulaAudit.Address.Cell
import FormulaAudit.Proofs.Address.Column

/-!
The texts of a cell: which texts are read as one, and what is written for it. Reading what is written
gives the cell back, and writing what was read gives the text back in upper case, without white space
and without zeros in front of the row.
-/

namespace FormulaAudit

namespace Text

section Decimal

variable {ds : List Char}

lemma digitsValue_eq_ofDigitChars (ds : List Char) : digitsValue ds = Nat.ofDigitChars 10 ds 0 := by
  simp only [digitsValue, Nat.ofDigitChars_eq_foldl, Nat.mul_comm]

lemma digit_lt_ten {c : Char} (h : c.isDigit = true) : c.toNat - '0'.toNat < 10 :=
  forall_digit (P := fun c => c.toNat - '0'.toNat < 10) (by decide) h

lemma digitChar_digit {c : Char} (h : c.isDigit = true) : Nat.digitChar (c.toNat - '0'.toNat) = c :=
  forall_digit (P := fun c => Nat.digitChar (c.toNat - '0'.toNat) = c) (by decide) h

lemma toDigits_ofDigitChars {n : Nat} (hn : 0 < n) (hds : ∀ c ∈ ds, c.isDigit = true) :
    Nat.toDigits 10 (Nat.ofDigitChars 10 ds n) = Nat.toDigits 10 n ++ ds := by
  induction ds generalizing n with
  | nil => simp
  | cons c ds ih =>
    have hlt := digit_lt_ten (hds c (by simp))
    have hchar := digitChar_digit (hds c (by simp))
    rw [Nat.ofDigitChars_cons, ih (by omega) fun d hd => hds d (by simp [hd]),
      ← Nat.toDigits_append_toDigits (by decide) hn hlt, Nat.toDigits_of_lt_base hlt, hchar,
      List.append_assoc, List.singleton_append]

lemma dropWhile_zero_eq_toDigits (hds : ∀ c ∈ ds, c.isDigit = true) (hpos : 0 < Nat.ofDigitChars 10 ds 0) :
    ds.dropWhile (· == '0') = Nat.toDigits 10 (Nat.ofDigitChars 10 ds 0) := by
  induction ds with
  | nil => simp at hpos
  | cons c ds ih =>
    have hrest : ∀ d ∈ ds, d.isDigit = true := fun d hd => hds d (by simp [hd])
    have hlt := digit_lt_ten (hds c (by simp))
    have hchar := digitChar_digit (hds c (by simp))
    rw [Nat.ofDigitChars_cons, Nat.mul_zero, Nat.zero_add] at hpos ⊢
    by_cases hc : c = '0'
    · subst hc
      exact ih hrest hpos
    · have hne : 0 < c.toNat - '0'.toNat := by
        refine Nat.pos_of_ne_zero fun hzero => hc ?_
        rw [← hchar, hzero]
        rfl
      rw [toDigits_ofDigitChars hne hrest, Nat.toDigits_of_lt_base hlt, hchar,
        List.dropWhile_cons_of_neg (by simpa using hc), List.singleton_append]

end Decimal

end Text

namespace Address

open Text

lemma bind_eq_ok_iff {α β : Type} {x : Except Error α} {f : α → Except Error β} {b : β} :
    x >>= f = .ok b ↔ ∃ a, x = .ok a ∧ f a = .ok b := by
  cases x <;> simp [bind, Except.bind]

section Marker

@[simp] lemma toList_marker_true : (Cell.marker true).toList = ['$'] := by
  simp [Cell.marker]

@[simp] lemma toList_marker_false : (Cell.marker false).toList = [] := by
  simp [Cell.marker]

lemma append_splitMarker (cs : List Char) :
    (Cell.marker (splitMarker cs).1).toList ++ (splitMarker cs).2 = cs := by
  unfold splitMarker
  split <;> simp

lemma splitMarker_append (absolute : Bool) {cs : List Char} (h : ∀ c ∈ cs.head?, c ≠ '$') :
    splitMarker ((Cell.marker absolute).toList ++ cs) = (absolute, cs) := by
  cases absolute with
  | true => simp [splitMarker]
  | false =>
    rw [toList_marker_false, List.nil_append]
    unfold splitMarker
    split
    · simp at h
    · rfl

end Marker

lemma rowIndex_eq_ok_iff {text : String} {ds : List Char} {n : Nat} : rowIndex text ds = .ok n ↔
    ds ≠ [] ∧ (∀ c ∈ ds, c.isDigit = true) ∧ Nat.ofDigitChars 10 ds 0 = n + 1 ∧ n < maxRows := by
  rw [← digitsValue_eq_ofDigitChars]
  constructor
  · intro h
    unfold rowIndex at h
    split at h
    · simp at h
    · next hds =>
      simp only at h
      split at h
      · simp at h
      · split at h
        · obtain rfl := Except.ok.inj h
          have hds' : ds ≠ [] ∧ ∀ c ∈ ds, c.isDigit = true := by simpa using hds
          exact ⟨hds'.1, hds'.2, by omega, by omega⟩
        · split at h <;> simp at h
  · rintro ⟨hne, hds, hrow, hn⟩
    have hnot : (ds.isEmpty || !ds.all Char.isDigit) = false := by simpa [hne] using hds
    rw [rowIndex, hnot]
    simp only [Bool.false_eq_true, if_false, hrow]
    rw [if_neg (by omega), if_pos (by omega), Nat.add_sub_cancel]

namespace Cell

structure Spelled (cs : List Char) (c : Cell) (letters digits : List Char) : Prop where
  append_eq : cs = (marker c.colAbsolute).toList ++ letters ++ (marker c.rowAbsolute).toList ++ digits
  letters_ne : letters ≠ []
  isAlpha_of_mem : ∀ ch ∈ letters, ch.isAlpha = true
  digits_ne : digits ≠ []
  isDigit_of_mem : ∀ ch ∈ digits, ch.isDigit = true
  col_eq : Column.value letters = c.col + 1
  col_lt : c.col < maxColumns
  row_eq : Nat.ofDigitChars 10 digits 0 = c.row + 1
  row_lt : c.row < maxRows

lemma spelled_of_parseChars {cs : List Char} {c : Cell} (h : parseChars cs = .ok c) :
    ∃ letters digits, Spelled cs c letters digits := by
  rcases hcol : splitMarker cs with ⟨colAbsolute, body⟩
  rcases hrow : splitMarker (body.dropWhile Char.isAlpha) with ⟨rowAbsolute, digits⟩
  simp only [parseChars, hcol, hrow] at h
  split at h
  · obtain ⟨_, hthrow, -⟩ := bind_eq_ok_iff.mp h
    cases hthrow
  · obtain ⟨col, hindex, h⟩ := bind_eq_ok_iff.mp h
    obtain ⟨row, hindex', h⟩ := bind_eq_ok_iff.mp h
    obtain rfl := Except.ok.inj h
    obtain ⟨hletters_ne, hletters, hvalue, hcol_lt⟩ := Column.index_eq_ok_iff.mp hindex
    obtain ⟨hdigits_ne, hdigits, hvalue', hrow_lt⟩ := rowIndex_eq_ok_iff.mp hindex'
    refine ⟨body.takeWhile Char.isAlpha, digits, ?_, hletters_ne, hletters, hdigits_ne, hdigits, hvalue, hcol_lt,
      hvalue', hrow_lt⟩
    have hcs := append_splitMarker cs
    have hrest := append_splitMarker (body.dropWhile Char.isAlpha)
    rw [hcol] at hcs
    rw [hrow] at hrest
    rw [List.append_assoc, hrest, List.append_assoc, List.takeWhile_append_dropWhile, hcs]

lemma head_ne_dollar {p : Char → Bool} {cs : List Char} (hne : cs ≠ []) (hcs : ∀ c ∈ cs, p c = true)
    (hp : p '$' = false) (rest : List Char) : ∀ c ∈ (cs ++ rest).head?, c ≠ '$' := by
  obtain ⟨d, ds, rfl⟩ := List.exists_cons_of_ne_nil hne
  intro c hc
  obtain rfl : d = c := by simpa using hc
  rintro rfl
  simp [hp] at hcs

lemma takeWhile_letters {letters rest : List Char} (rowAbsolute : Bool)
    (hletters : ∀ ch ∈ letters, ch.isAlpha = true) (hrest : ∀ ch ∈ rest.head?, ch.isAlpha = false) :
    (letters ++ ((marker rowAbsolute).toList ++ rest)).takeWhile Char.isAlpha = letters := by
  refine takeWhile_append_eq_iff.mpr ⟨hletters, fun ch hch => ?_⟩
  cases rowAbsolute with
  | true =>
    obtain rfl : '$' = ch := by simpa using hch
    rfl
  | false => exact hrest ch (by simpa using hch)

lemma parseChars_of_spelled {cs letters digits : List Char} {c : Cell} (h : Spelled cs c letters digits) :
    parseChars cs = .ok c := by
  obtain ⟨hcs, hletters_ne, hletters, hdigits_ne, hdigits, hvalue, hcol_lt, hvalue', hrow_lt⟩ := h
  have hcol : splitMarker cs = (c.colAbsolute, letters ++ ((marker c.rowAbsolute).toList ++ digits)) := by
    rw [hcs, List.append_assoc, List.append_assoc]
    exact splitMarker_append _ (head_ne_dollar hletters_ne hletters rfl _)
  have hrow : splitMarker ((marker c.rowAbsolute).toList ++ digits) = (c.rowAbsolute, digits) := by
    apply splitMarker_append
    simpa using head_ne_dollar hdigits_ne hdigits rfl []
  have htake := takeWhile_letters c.rowAbsolute hletters fun ch hch =>
    not_isAlpha_of_isDigit (hdigits ch (List.mem_of_mem_head? hch))
  have hindex : Column.index letters = .ok c.col :=
    Column.index_eq_ok_iff.mpr ⟨hletters_ne, hletters, hvalue, hcol_lt⟩
  have hindex' : rowIndex (.ofList cs) digits = .ok c.row :=
    rowIndex_eq_ok_iff.mpr ⟨hdigits_ne, hdigits, hvalue', hrow_lt⟩
  simp only [parseChars, hcol, htake, dropWhile_append_eq htake, hrow]
  rw [if_neg (by simpa using hletters_ne)]
  exact bind_eq_ok_iff.mpr ⟨_, hindex, bind_eq_ok_iff.mpr ⟨_, hindex', rfl⟩⟩

lemma parseChars_eq_ok_iff {cs : List Char} {c : Cell} :
    parseChars cs = .ok c ↔ ∃ letters digits, Spelled cs c letters digits :=
  ⟨spelled_of_parseChars, fun ⟨_, _, h⟩ => parseChars_of_spelled h⟩

section Written

variable {cs letters digits : List Char} {c : Cell}

lemma toList_text (c : Cell) : c.text.toList = (marker c.colAbsolute).toList ++ Column.letters c.col ++
    (marker c.rowAbsolute).toList ++ Nat.toDigits 10 (c.row + 1) := by
  simp [text, Column.toList_name]

lemma spelled_text (hrow : c.row < maxRows) (hcol : c.col < maxColumns) :
    Spelled c.text.toList c (Column.letters c.col) (Nat.toDigits 10 (c.row + 1)) where
  append_eq := toList_text c
  letters_ne := Column.letters_ne_nil _
  isAlpha_of_mem := Column.isAlpha_of_mem_letters _
  digits_ne := Nat.toDigits_ne_nil
  isDigit_of_mem := fun _ => Nat.isDigit_of_mem_toDigits (by decide) (by decide)
  col_eq := Column.value_letters _
  col_lt := hcol
  row_eq := Nat.ofDigitChars_ten_toDigits
  row_lt := hrow

lemma Spelled.forall_mem {P : Char → Prop} (h : Spelled cs c letters digits) (hdollar : P '$')
    (hletter : ∀ ch, ch.isAlpha = true → P ch) (hdigit : ∀ ch, ch.isDigit = true → P ch) :
    ∀ ch ∈ cs, P ch := by
  have hmarker (b : Bool) : ∀ ch ∈ (marker b).toList, P ch := by
    cases b <;> simp [hdollar]
  intro ch hch
  rw [h.append_eq] at hch
  simp only [List.mem_append] at hch
  rcases hch with ((hch | hch) | hch) | hch
  · exact hmarker _ ch hch
  · exact hletter ch (h.isAlpha_of_mem ch hch)
  · exact hmarker _ ch hch
  · exact hdigit ch (h.isDigit_of_mem ch hch)

lemma Spelled.not_isBlank (h : Spelled cs c letters digits) : ∀ ch ∈ cs, isBlank ch = false :=
  h.forall_mem (by decide) (fun _ => not_isBlank_of_isAlpha) fun _ => not_isBlank_of_isDigit

lemma Spelled.parseChars_trimChars (h : Spelled cs c letters digits) : parseChars (trimChars cs) = .ok c := by
  rw [trimChars_eq_self h.not_isBlank]
  exact parseChars_of_spelled h

lemma parse_text (hrow : c.row < maxRows) (hcol : c.col < maxColumns) : parse c.text = .ok c :=
  (spelled_text hrow hcol).parseChars_trimChars

lemma Spelled.map_toUpper_letters (h : Spelled cs c letters digits) :
    letters.map Char.toUpper = Column.letters c.col :=
  (Column.map_toUpper_eq_letters_iff h.letters_ne h.isAlpha_of_mem).mpr h.col_eq

lemma Spelled.dropWhile_zero (h : Spelled cs c letters digits) :
    digits.dropWhile (· == '0') = Nat.toDigits 10 (c.row + 1) := by
  rw [dropWhile_zero_eq_toDigits h.isDigit_of_mem (by rw [h.row_eq]; omega), h.row_eq]

lemma Spelled.toList_text (h : Spelled cs c letters digits) : c.text.toList =
    ((marker c.colAbsolute).toList ++ letters ++ (marker c.rowAbsolute).toList ++
      digits.dropWhile (· == '0')).map Char.toUpper := by
  have hmarker (b : Bool) : (marker b).toList.map Char.toUpper = (marker b).toList := by
    cases b <;> simp [Char.toUpper]
  have hdigits : (Nat.toDigits 10 (c.row + 1)).map Char.toUpper = Nat.toDigits 10 (c.row + 1) :=
    map_toUpper_of_isDigit fun _ => Nat.isDigit_of_mem_toDigits (by decide) (by decide)
  rw [Cell.toList_text, h.dropWhile_zero, List.map_append, List.map_append, List.map_append, hmarker, hmarker,
    hdigits, h.map_toUpper_letters]

end Written

theorem parse_eq_ok_iff_spelled :
    (∀ s c, parse s = .ok c ↔ ∃ letters digits, Spelled (trim s).toList c letters digits) ∧
    (∀ s c letters digits, Spelled (trim s).toList c letters digits → c.text = upper (.ofList
      ((marker c.colAbsolute).toList ++ letters ++ (marker c.rowAbsolute).toList ++
        digits.dropWhile (· == '0')))) ∧
    ∀ c : Cell, c.row < maxRows → c.col < maxColumns → parse c.text = .ok c := by
  refine ⟨fun s c => ?_, fun s c letters digits h => ?_, fun c => parse_text⟩
  · rw [parse, toList_trim, parseChars_eq_ok_iff]
  · rw [← String.toList_inj, h.toList_text, toList_upper, String.toList_ofList]

theorem parse_eq_ok_iff_spelled_last :
    Spelled (trim "\u00a0$xfd$0001048576 ").toList ⟨1048575, 16383, true, true⟩ "xfd".toList
        "0001048576".toList ∧
      parse "\u00a0$xfd$0001048576 " = .ok ⟨1048575, 16383, true, true⟩ ∧
      text ⟨1048575, 16383, true, true⟩ = "$XFD$1048576" ∧
      parse (text ⟨1048575, 16383, true, true⟩) = .ok ⟨1048575, 16383, true, true⟩ := by
  have hspelled : Spelled (trim "\u00a0$xfd$0001048576 ").toList ⟨1048575, 16383, true, true⟩ "xfd".toList
      "0001048576".toList :=
    ⟨by decide +kernel, by decide, by simp [Char.isAlpha], by decide, by simp [Char.isDigit], by decide, by decide,
      by decide, by decide⟩
  obtain ⟨hparse, htext, hwritten⟩ := parse_eq_ok_iff_spelled
  refine ⟨hspelled, (hparse _ _).mpr ⟨_, _, hspelled⟩, ?_, hwritten _ (by decide) (by decide)⟩
  rw [htext _ _ _ _ hspelled]
  decide +kernel

end Cell

end Address

end FormulaAudit
