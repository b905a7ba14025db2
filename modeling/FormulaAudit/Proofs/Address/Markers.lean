import FormulaAudit.Proofs.Address.Range

/-!
The `$` markers of a range. Its rows and columns are put in order and its markers are not: they stay with
the first and the last corner in the order in which the corners were given.
-/

namespace FormulaAudit.Address

open Text

def Cell.SameMarkers (a b : Cell) : Prop :=
  a.rowAbsolute = b.rowAbsolute ∧ a.colAbsolute = b.colAbsolute

lemma Cell.colon_notMem_of_parse {s : String} {c : Cell} (h : parse s = .ok c) : ':' ∉ s.toList := by
  obtain ⟨letters, digits, hspelled⟩ := spelled_of_parseChars h
  exact fun hmem => Range.colon_notMem hspelled (mem_trimChars (by decide) hmem)

namespace Range

/-- Where the corners of the range have the row or the column of a cell, they have its marker there too. -/
structure KeepsMarkers (r : Range) (c : Cell) : Prop where
  first_row : r.first.row = c.row → r.first.rowAbsolute = c.rowAbsolute
  last_row : r.last.row = c.row → r.last.rowAbsolute = c.rowAbsolute
  first_col : r.first.col = c.col → r.first.colAbsolute = c.colAbsolute
  last_col : r.last.col = c.col → r.last.colAbsolute = c.colAbsolute

variable {a b : Cell}

lemma ofCorners_comm_iff : ofCorners a b = ofCorners b a ↔ a.SameMarkers b := by
  constructor
  · intro h
    exact ⟨congrArg (·.first.rowAbsolute) h, congrArg (·.first.colAbsolute) h⟩
  · rintro ⟨hrow, hcol⟩
    simp only [ofCorners, hrow, hcol, min_comm a.row, min_comm a.col, max_comm a.row, max_comm a.col]

lemma marker_stays_iff {i j : Nat} {x y : Bool} (hne : i ≠ j) :
    (max i j = i → y = x) ∧ (min i j = j → x = y) ↔ i < j ∨ x = y := by
  rcases Nat.lt_or_gt_of_ne hne with hlt | hlt
  · have hmax : max i j ≠ i := by omega
    have hmin : min i j ≠ j := by omega
    simp [hmax, hmin, hlt]
  · -- out of order, each index gets the marker of the other
    have hmax : max i j = i := by omega
    have hmin : min i j = j := by omega
    simp [hmax, hmin, Nat.not_lt.mpr hlt.le, eq_comm]

lemma keepsMarkers_iff (hrow : a.row ≠ b.row) (hcol : a.col ≠ b.col) :
    (ofCorners a b).KeepsMarkers a ∧ (ofCorners a b).KeepsMarkers b ↔
      (a.row < b.row ∨ a.rowAbsolute = b.rowAbsolute) ∧ (a.col < b.col ∨ a.colAbsolute = b.colAbsolute) := by
  rw [← marker_stays_iff hrow, ← marker_stays_iff hcol]
  constructor
  · rintro ⟨ha, hb⟩
    exact ⟨⟨ha.last_row, hb.first_row⟩, ha.last_col, hb.first_col⟩
  · rintro ⟨⟨hlast_row, hfirst_row⟩, hlast_col, hfirst_col⟩
    exact ⟨⟨fun _ => rfl, hlast_row, fun _ => rfl, hlast_col⟩,
      ⟨hfirst_row, fun _ => rfl, hfirst_col, fun _ => rfl⟩⟩

lemma parse_append {x y : String} (hx : Cell.parse x = .ok a) (hy : Cell.parse y = .ok b) :
    parse (x ++ ":" ++ y) = .ok (ofCorners a b) := by
  have htext : (x ++ ":" ++ y).toList = x.toList ++ ':' :: y.toList := by simp
  have hstart : ':' ∉ trimStart x.toList := fun hmem => Cell.colon_notMem_of_parse hx (trimStart_subset _ hmem)
  have hend : ':' ∉ trimEnd y.toList := fun hmem => Cell.colon_notMem_of_parse hy (trimEnd_subset _ hmem)
  rw [parse, htext, trimChars_append (by decide)]
  apply parseChars_append hstart hend
  apply Sides.cells
  · rwa [trimChars_trimStart]
  · rwa [trimChars_trimEnd]

lemma text_inj {r q : Range} (hr : r.InSheet) (hq : q.InSheet) : r.text = q.text ↔ r = q := by
  constructor
  · intro h
    have hparse := parse_text hr
    rw [h, parse_text hq] at hparse
    exact (Except.ok.inj hparse).symm
  · exact congrArg text

theorem ofCorners_exchange_iff (hrow : a.row ≠ b.row) (hcol : a.col ≠ b.col) :
    (ofCorners a b = ofCorners b a ↔ a.SameMarkers b) ∧
    ((ofCorners a b).KeepsMarkers a ∧ (ofCorners a b).KeepsMarkers b ↔
      (a.row < b.row ∨ a.rowAbsolute = b.rowAbsolute) ∧ (a.col < b.col ∨ a.colAbsolute = b.colAbsolute)) ∧
    ∀ x y, Cell.parse x = .ok a → Cell.parse y = .ok b →
      ∃ r q, parse (x ++ ":" ++ y) = .ok r ∧ parse (y ++ ":" ++ x) = .ok q ∧
        r = ofCorners a b ∧ q = ofCorners b a ∧ (r = q ↔ a.SameMarkers b) ∧
        (r.text = q.text ↔ a.SameMarkers b) := by
  refine ⟨ofCorners_comm_iff, keepsMarkers_iff hrow hcol, fun x y hx hy => ?_⟩
  have ha := Cell.inSheet_of_parseChars hx
  have hb := Cell.inSheet_of_parseChars hy
  refine ⟨_, _, parse_append hx hy, parse_append hy hx, rfl, rfl, ofCorners_comm_iff, ?_⟩
  rw [text_inj (inSheet_ofCorners ha hb) (inSheet_ofCorners hb ha), ofCorners_comm_iff]

theorem ofCorners_exchange_iff_spaced :
    Cell.parse " d$9" = .ok ⟨8, 3, true, false⟩ ∧ Cell.parse "B$3\t" = .ok ⟨2, 1, true, false⟩ ∧
      (∃ r q, parse (" d$9" ++ ":" ++ "B$3\t") = .ok r ∧ parse ("B$3\t" ++ ":" ++ " d$9") = .ok q ∧ r = q ∧
        r.text = q.text) ∧
      (ofCorners ⟨8, 3, true, false⟩ ⟨2, 1, true, false⟩).KeepsMarkers ⟨8, 3, true, false⟩ := by
  have hx : Cell.parse " d$9" = .ok ⟨8, 3, true, false⟩ := by decide +kernel
  have hy : Cell.parse "B$3\t" = .ok ⟨2, 1, true, false⟩ := by decide +kernel
  have hsame : Cell.SameMarkers ⟨8, 3, true, false⟩ ⟨2, 1, true, false⟩ := ⟨rfl, rfl⟩
  have hrow : (⟨8, 3, true, false⟩ : Cell).row ≠ (⟨2, 1, true, false⟩ : Cell).row := by decide
  obtain ⟨-, hkeeps, htexts⟩ := ofCorners_exchange_iff hrow (by decide)
  obtain ⟨r, q, hr, hq, -, -, heq, htext⟩ := htexts _ _ hx hy
  exact ⟨hx, hy, ⟨r, q, hr, hq, heq.mpr hsame, htext.mpr hsame⟩, (hkeeps.mpr ⟨.inr rfl, .inr rfl⟩).1⟩

theorem markers_move :
    ofCorners ⟨8, 3, false, false⟩ ⟨2, 1, true, true⟩ ≠ ofCorners ⟨2, 1, true, true⟩ ⟨8, 3, false, false⟩ ∧
      ¬ (ofCorners ⟨8, 3, false, false⟩ ⟨2, 1, true, true⟩).KeepsMarkers ⟨2, 1, true, true⟩ ∧
      (parse "D9:$B$3").map text = .ok "B3:$D$9" ∧ (parse "$B$3:D9").map text = .ok "$B$3:D9" := by
  refine ⟨by decide, fun h => ?_, by decide +kernel, by decide +kernel⟩
  exact absurd (h.first_row rfl) (by decide)

end Range

end FormulaAudit.Address
