import FormulaAudit.Address.Range
import FormulaAudit.Proofs.Address.Cell
import Mathlib.Order.Interval.Set.UnorderedInterval
import Mathlib.Order.Lattice.Nat

/-!
Every range, read from a text or spanned by two cells of the sheet, is a rectangle of cells of the sheet
that is given by its top left and its bottom right corner. It does not matter in which order the two
sides of a range are given.
-/

namespace FormulaAudit.Address

open Text

def Cell.InSheet (c : Cell) : Prop :=
  c.row < maxRows ∧ c.col < maxColumns

lemma Cell.inSheet_of_parseChars {cs : List Char} {c : Cell} (h : parseChars cs = .ok c) : c.InSheet := by
  obtain ⟨letters, digits, hspelled⟩ := spelled_of_parseChars h
  exact ⟨hspelled.row_lt, hspelled.col_lt⟩

namespace Range

section Rectangle

structure InSheet (r : Range) : Prop where
  row_le : r.first.row ≤ r.last.row
  row_lt : r.last.row < maxRows
  col_le : r.first.col ≤ r.last.col
  col_lt : r.last.col < maxColumns

structure SameCells (r q : Range) : Prop where
  rowCount_eq : r.rowCount = q.rowCount
  colCount_eq : r.colCount = q.colCount
  contains_eq : ∀ c, r.contains c = q.contains c

variable {a b : Cell} {r : Range}

lemma inSheet_ofCorners (ha : a.InSheet) (hb : b.InSheet) : (ofCorners a b).InSheet where
  row_le := min_le_max
  row_lt := max_lt ha.1 hb.1
  col_le := min_le_max
  col_lt := max_lt ha.2 hb.2

lemma InSheet.ofCorners_eq (h : r.InSheet) : ofCorners r.first r.last = r := by
  obtain ⟨first, last⟩ := r
  simp [ofCorners, min_eq_left h.row_le, min_eq_left h.col_le, max_eq_right h.row_le, max_eq_right h.col_le]

lemma contains_iff {c : Cell} : r.contains c = true ↔
    c.row ∈ Set.Icc r.first.row r.last.row ∧ c.col ∈ Set.Icc r.first.col r.last.col := by
  simp [contains, Set.mem_Icc, and_assoc]

lemma contains_ofCorners {c : Cell} : (ofCorners a b).contains c = true ↔
    c.row ∈ Set.uIcc a.row b.row ∧ c.col ∈ Set.uIcc a.col b.col :=
  contains_iff

lemma sameCells_of_edges {q : Range} (htop : r.first.row = q.first.row) (hbottom : r.last.row = q.last.row)
    (hleft : r.first.col = q.first.col) (hright : r.last.col = q.last.col) : SameCells r q where
  rowCount_eq := by rw [rowCount, htop, hbottom, rowCount]
  colCount_eq := by rw [colCount, hleft, hright, colCount]
  contains_eq c := by rw [contains, htop, hbottom, hleft, hright, contains]

lemma sameCells_ofCorners (a b : Cell) : SameCells (ofCorners a b) (ofCorners b a) :=
  sameCells_of_edges (min_comm _ _) (max_comm _ _) (min_comm _ _) (max_comm _ _)

lemma InSheet.counts (h : r.InSheet) :
    (r.rowCount + r.first.row = r.last.row + 1 ∧ 1 ≤ r.rowCount ∧ r.rowCount ≤ maxRows) ∧
      r.colCount + r.first.col = r.last.col + 1 ∧ 1 ≤ r.colCount ∧ r.colCount ≤ maxColumns := by
  obtain ⟨hrow, hrow_lt, hcol, hcol_lt⟩ := h
  simp only [rowCount, colCount]
  omega

lemma InSheet.contains_corners (h : r.InSheet) : r.contains r.first = true ∧ r.contains r.last = true := by
  rw [contains_iff, contains_iff]
  exact ⟨⟨⟨le_rfl, h.row_le⟩, le_rfl, h.col_le⟩, ⟨h.row_le, le_rfl⟩, h.col_le, le_rfl⟩

end Rectangle

section Reading

variable {x y : List Char}

lemma endpointChars_append (hx : ':' ∉ x) (hy : ':' ∉ y) : endpointChars (x ++ ':' :: y) = some (x, y) := by
  have hreverse : (x ++ ':' :: y).reverse = y.reverse ++ ':' :: x.reverse := by simp
  rw [endpointChars, if_pos (by simp), hreverse, takeWhile_ne_append hx (by simp),
    takeWhile_ne_append (by simpa using hy) (by simp), List.reverse_reverse]

lemma of_isColumnOnly (h : isColumnOnly x = true) : ∀ c ∈ x, c = '$' ∨ c.isAlpha = true := by
  intro c hc
  have hletters : ∀ d ∈ (splitMarker x).2, d.isAlpha = true := by
    simp only [isColumnOnly, Bool.and_eq_true, List.all_eq_true] at h
    exact h.2
  rw [← append_splitMarker x, List.mem_append] at hc
  rcases hc with hc | hc
  · cases hb : (splitMarker x).1 <;> simp [hb] at hc
    exact .inl hc
  · exact .inr (hletters c hc)

lemma not_isColumnOnly {a : Cell} (h : Cell.parseChars (trimChars x) = .ok a) : isColumnOnly x = false := by
  obtain ⟨letters, digits, hspelled⟩ := Cell.spelled_of_parseChars h
  obtain ⟨d, ds, hds⟩ := List.exists_cons_of_ne_nil hspelled.digits_ne
  have hdigit : d.isDigit = true := hspelled.isDigit_of_mem d (by simp [hds])
  have hmem : d ∈ x := trimChars_subset x (by simp [hspelled.append_eq, hds])
  rw [Bool.eq_false_iff]
  intro honly
  rcases of_isColumnOnly honly d hmem with rfl | hletter
  · exact absurd hdigit (by decide)
  · exact absurd hletter (by simp [not_isAlpha_of_isDigit hdigit])

lemma corner_eq_ok_iff {text part : List Char} {a : Cell} :
    corner text part = .ok a ↔ Cell.parseChars (trimChars part) = .ok a := by
  rw [corner]
  cases Cell.parseChars (trimChars part) <;> simp [Except.mapError]

inductive Sides : List Char → List Char → Cell → Cell → Prop
  | columns {x y : List Char} {m n : Nat} : isColumnOnly x = true → isColumnOnly y = true →
      Column.index (splitMarker x).2 = .ok m → Column.index (splitMarker y).2 = .ok n →
      Sides x y { row := 0, col := m } { row := maxRows - 1, col := n }
  | cells {x y : List Char} {a b : Cell} : Cell.parseChars (trimChars x) = .ok a →
      Cell.parseChars (trimChars y) = .ok b → Sides x y a b

lemma parseChars_eq_ok_iff {cs : List Char} {r : Range} : parseChars cs = .ok r ↔
    ∃ x y a b, endpointChars cs = some (x, y) ∧ Sides x y a b ∧ r = ofCorners a b := by
  constructor
  · intro h
    unfold parseChars at h
    split at h
    · simp at h
    · next x y hends =>
      split at h
      · next honly =>
        obtain ⟨m, hm, h⟩ := bind_eq_ok_iff.mp h
        obtain ⟨n, hn, h⟩ := bind_eq_ok_iff.mp h
        rw [Bool.and_eq_true] at honly
        exact ⟨x, y, _, _, hends, .columns honly.1 honly.2 hm hn, (Except.ok.inj h).symm⟩
      · obtain ⟨a, ha, h⟩ := bind_eq_ok_iff.mp h
        obtain ⟨b, hb, h⟩ := bind_eq_ok_iff.mp h
        rw [corner_eq_ok_iff] at ha hb
        exact ⟨x, y, a, b, hends, .cells ha hb, (Except.ok.inj h).symm⟩
  · rintro ⟨x, y, a, b, hends, hsides, rfl⟩
    rw [parseChars, hends]
    cases hsides with
    | columns hx hy hm hn =>
      simp only [hx, hy, Bool.and_self, if_true]
      exact bind_eq_ok_iff.mpr ⟨_, hm, bind_eq_ok_iff.mpr ⟨_, hn, rfl⟩⟩
    | cells ha hb =>
      simp only [not_isColumnOnly ha, Bool.false_and, Bool.false_eq_true, if_false]
      exact bind_eq_ok_iff.mpr ⟨a, corner_eq_ok_iff.mpr ha, bind_eq_ok_iff.mpr ⟨b, corner_eq_ok_iff.mpr hb, rfl⟩⟩

lemma Sides.inSheet {a b : Cell} (h : Sides x y a b) : a.InSheet ∧ b.InSheet := by
  cases h with
  | columns _ _ hm hn =>
    have hm_lt := (Column.index_eq_ok_iff.mp hm).2.2.2
    have hn_lt := (Column.index_eq_ok_iff.mp hn).2.2.2
    have hlast : maxRows - 1 < maxRows := by decide
    exact ⟨⟨Nat.zero_lt_of_lt hlast, hm_lt⟩, hlast, hn_lt⟩
  | cells ha hb => exact ⟨Cell.inSheet_of_parseChars ha, Cell.inSheet_of_parseChars hb⟩

lemma not_isBlank_of_isColumnOnly (h : isColumnOnly x = true) : ∀ c ∈ x, isBlank c = false := by
  intro c hc
  rcases of_isColumnOnly h c hc with rfl | hletter
  · decide
  · exact not_isBlank_of_isAlpha hletter

lemma Sides.exchange {a b : Cell} (h : Sides x y a b) :
    ∃ p q, Sides (trimStart y) (trimEnd x) p q ∧ SameCells (ofCorners a b) (ofCorners p q) := by
  cases h with
  | columns hx hy hm hn =>
    have hy_trim : trimStart y = y := dropWhile_isBlank_eq_self (not_isBlank_of_isColumnOnly hy)
    rw [trimEnd_eq_self (not_isBlank_of_isColumnOnly hx), hy_trim]
    exact ⟨_, _, .columns hy hx hn hm, sameCells_of_edges rfl rfl (min_comm _ _) (max_comm _ _)⟩
  | cells ha hb =>
    refine ⟨b, a, .cells ?_ ?_, sameCells_ofCorners a b⟩
    · rwa [trimChars_trimStart]
    · rwa [trimChars_trimEnd]

lemma parseChars_append {a b : Cell} (hx : ':' ∉ x) (hy : ':' ∉ y) (h : Sides x y a b) :
    parseChars (x ++ ':' :: y) = .ok (ofCorners a b) :=
  parseChars_eq_ok_iff.mpr ⟨x, y, a, b, endpointChars_append hx hy, h, rfl⟩

end Reading

inductive Obtained : Range → Prop
  | parsed {s : String} {r : Range} : parse s = .ok r → Obtained r
  | spanned {a b : Cell} : a.InSheet → b.InSheet → Obtained (ofCorners a b)

lemma Obtained.inSheet {r : Range} (h : Obtained r) : r.InSheet := by
  cases h with
  | parsed h =>
    obtain ⟨x, y, a, b, -, hsides, rfl⟩ := parseChars_eq_ok_iff.mp h
    exact inSheet_ofCorners hsides.inSheet.1 hsides.inSheet.2
  | spanned ha hb => exact inSheet_ofCorners ha hb

lemma InSheet.corners {r : Range} (h : r.InSheet) : r.first.InSheet ∧ r.last.InSheet :=
  ⟨⟨h.row_le.trans_lt h.row_lt, h.col_le.trans_lt h.col_lt⟩, h.row_lt, h.col_lt⟩

lemma toList_text (r : Range) : r.text.toList = r.first.text.toList ++ ':' :: r.last.text.toList := by
  simp [text]

lemma colon_notMem {cs letters digits : List Char} {c : Cell} (h : Cell.Spelled cs c letters digits) :
    ':' ∉ cs := by
  have hne : ∀ ch ∈ cs, ch ≠ ':' := by
    refine h.forall_mem (P := (· ≠ ':')) (by decide) ?_ ?_
    · rintro ch hletter rfl
      simp [Char.isAlpha] at hletter
    · rintro ch hdigit rfl
      simp [Char.isDigit] at hdigit
  exact fun hmem => hne _ hmem rfl

lemma parse_text {r : Range} (h : r.InSheet) : parse r.text = .ok r := by
  have hfirst := Cell.spelled_text h.corners.1.1 h.corners.1.2
  have hlast := Cell.spelled_text h.corners.2.1 h.corners.2.2
  have hstart : trimStart r.first.text.toList = r.first.text.toList :=
    dropWhile_isBlank_eq_self hfirst.not_isBlank
  rw [parse, toList_text, trimChars_append (by decide), hstart, trimEnd_eq_self hlast.not_isBlank]
  rw [parseChars_append (colon_notMem hfirst) (colon_notMem hlast)
    (.cells hfirst.parseChars_trimChars hlast.parseChars_trimChars), h.ofCorners_eq]

lemma parse_exchange {x y : List Char} {r : Range} (hx : ':' ∉ x) (hy : ':' ∉ y)
    (h : parseChars (x ++ ':' :: y) = .ok r) :
    ∃ q, parseChars (trimChars (y ++ ':' :: x)) = .ok q ∧ SameCells r q := by
  obtain ⟨x', y', a, b, hends, hsides, rfl⟩ := parseChars_eq_ok_iff.mp h
  obtain ⟨rfl, rfl⟩ : x = x' ∧ y = y' := by
    simpa [endpointChars_append hx hy] using hends
  obtain ⟨p, q, hexchanged, hsame⟩ := hsides.exchange
  refine ⟨ofCorners p q, ?_, hsame⟩
  rw [trimChars_append (by decide)]
  apply parseChars_append _ _ hexchanged
  · exact fun hmem => hy (trimStart_subset y hmem)
  · exact fun hmem => hx (trimEnd_subset x hmem)

theorem rectangle_of_obtained :
    (∀ r, Obtained r → r.InSheet ∧
      ((r.rowCount + r.first.row = r.last.row + 1 ∧ 1 ≤ r.rowCount ∧ r.rowCount ≤ maxRows) ∧
        r.colCount + r.first.col = r.last.col + 1 ∧ 1 ≤ r.colCount ∧ r.colCount ≤ maxColumns) ∧
      (∀ c, r.contains c = true ↔
        c.row ∈ Set.Icc r.first.row r.last.row ∧ c.col ∈ Set.Icc r.first.col r.last.col) ∧
      (r.contains r.first = true ∧ r.contains r.last = true) ∧ parse r.text = .ok r) ∧
    (∀ a b, (∀ c, (ofCorners a b).contains c = true ↔
        c.row ∈ Set.uIcc a.row b.row ∧ c.col ∈ Set.uIcc a.col b.col) ∧
      SameCells (ofCorners a b) (ofCorners b a)) ∧
    ∀ x y r, ':' ∉ x.toList → ':' ∉ y.toList → trim (x ++ ":" ++ y) = x ++ ":" ++ y →
      parse (x ++ ":" ++ y) = .ok r → ∃ q, parse (y ++ ":" ++ x) = .ok q ∧ SameCells r q := by
  refine ⟨fun r h => ?_, fun a b => ⟨fun c => contains_ofCorners, sameCells_ofCorners a b⟩,
    fun x y r hx hy htrim h => ?_⟩
  · have hr := h.inSheet
    exact ⟨hr, hr.counts, fun c => contains_iff, hr.contains_corners, parse_text hr⟩
  · have htext (s t : String) : (s ++ ":" ++ t).toList = s.toList ++ ':' :: t.toList := by simp
    rw [parse, ← toList_trim, htrim, htext] at h
    rw [parse, htext]
    exact parse_exchange hx hy h

theorem rectangle_of_obtained_columns :
    parse ("$D" ++ ":" ++ "$B") = .ok ⟨{ row := 0, col := 1 }, { row := 1048575, col := 3 }⟩ ∧
      parse (text ⟨{ row := 0, col := 1 }, { row := 1048575, col := 3 }⟩) =
        .ok ⟨{ row := 0, col := 1 }, { row := 1048575, col := 3 }⟩ ∧
      ∃ q, parse ("$B" ++ ":" ++ "$D") = .ok q ∧
        SameCells ⟨{ row := 0, col := 1 }, { row := 1048575, col := 3 }⟩ q := by
  have hparse : parse ("$D" ++ ":" ++ "$B") = .ok ⟨{ row := 0, col := 1 }, { row := 1048575, col := 3 }⟩ := by
    decide +kernel
  obtain ⟨hrange, -, hexchange⟩ := rectangle_of_obtained
  refine ⟨hparse, (hrange _ (.parsed hparse)).2.2.2.2, ?_⟩
  exact hexchange "$D" "$B" _ (by simp) (by simp) (by decide +kernel) hparse

end Range

end FormulaAudit.Address
