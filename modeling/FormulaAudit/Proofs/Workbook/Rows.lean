import FormulaAudit.Proofs.Workbook.Update
import FormulaAudit.Workbook.Csv
import Mathlib.Data.Finset.Card
import Mathlib.Data.Finset.Dedup
import Mathlib.Data.List.Forall2
import Mathlib.Data.List.Induction

/-!
The workbook of a list of rows. Its sheets are those named in the rows, in the order and with the spelling of
their first rows, and each cell has the formula of its last row.
-/

namespace FormulaAudit.Workbook

open Text (upper sameIgnoringCase sameIgnoringCase_iff)

section Names

def firstSpellings : List String → List String
  | [] => []
  | n :: ns => n :: (firstSpellings ns).filter (!sameIgnoringCase n ·)

lemma pairwise_firstSpellings (ns : List String) :
    (firstSpellings ns).Pairwise fun m n => sameIgnoringCase m n = false := by
  induction ns with
  | nil => exact .nil
  | cons n ns ih =>
    refine .cons (fun m hm => ?_) (ih.filter _)
    simpa using (List.mem_filter.mp hm).2

lemma any_firstSpellings (ns : List String) (n : String) :
    (firstSpellings ns).any (sameIgnoringCase · n) = ns.any (sameIgnoringCase · n) := by
  induction ns with
  | nil => rfl
  | cons m ns ih =>
    rw [firstSpellings, List.any_cons, List.any_cons, ← ih, List.any_filter]
    by_cases hm : sameIgnoringCase m n = true
    · simp [hm]
    · -- what is dropped as a spelling of `m` is no spelling of `n`
      have hkeep : (fun k => !sameIgnoringCase m k && sameIgnoringCase k n) = (sameIgnoringCase · n) := by
        funext k
        rw [Bool.eq_iff_iff]
        simp only [Bool.and_eq_true, Bool.not_eq_true', Bool.eq_false_iff, ne_eq, sameIgnoringCase_iff] at hm ⊢
        exact ⟨And.right, fun hk => ⟨fun h => hm (h.trans hk), hk⟩⟩
      rw [hkeep]

lemma firstSpellings_append (ns : List String) (n : String) :
    firstSpellings (ns ++ [n]) =
      if ns.any (sameIgnoringCase · n) then firstSpellings ns else firstSpellings ns ++ [n] := by
  induction ns with
  | nil => rfl
  | cons m ns ih =>
    rw [List.cons_append, firstSpellings, ih, firstSpellings, List.any_cons]
    by_cases hrest : ns.any (sameIgnoringCase · n) = true
    · simp [hrest]
    · by_cases hm : sameIgnoringCase m n = true <;> simp [hrest, hm]

end Names

namespace Row

lemma sheetName_of_named {default name : String} {r : Row} (h : r.sheet = some name) (hne : name ≠ "") :
    r.sheetName default = name := by
  rw [sheetName, h]
  exact if_neg hne

lemma sheetName_of_unnamed {default : String} {r : Row} (h : r.sheet = none ∨ r.sheet = some "") :
    r.sheetName default = default := by
  rcases h with h | h <;> rw [sheetName, h]
  exact if_pos rfl

variable (default name cell : String) (r : Row)

def isAt : Bool :=
  sameIgnoringCase (r.sheetName default) name && r.cell == cell

def place : String × String :=
  (upper (r.sheetName default), r.cell)

lemma isAt_iff : r.isAt default name cell = true ↔ r.place default = (upper name, cell) := by
  rw [isAt, Bool.and_eq_true, sameIgnoringCase_iff, beq_iff_eq, place, Prod.mk.injEq]

end Row

variable {default : String}

structure Gathers (default : String) (rows : List Row) (w : Workbook) : Prop where
  names_pairwise : w.sheets.Pairwise fun s t => sameIgnoringCase s.name t.name = false
  names_eq : w.sheets.map (·.name) = firstSpellings (rows.map (Row.sheetName default))
  formula?_eq : ∀ name cell, w.formula? name cell =
    ((rows.filter (Row.isAt default name cell)).getLast?).map (·.formula)
  formulaCount_eq : w.formulaCount = (rows.map (Row.place default)).toFinset.card

lemma gathers_nil : Gathers default [] {} where
  names_pairwise := .nil
  names_eq := rfl
  formula?_eq _ _ := rfl
  formulaCount_eq := rfl

variable {rows : List Row} {w : Workbook}

namespace Gathers

lemma isSome_formula? (h : Gathers default rows w) (r : Row) :
    (w.formula? (r.sheetName default) r.cell).isSome = true ↔ r.place default ∈ rows.map (Row.place default) := by
  have hmem : (∃ q ∈ rows, q.isAt default (r.sheetName default) r.cell = true) ↔
      r.place default ∈ rows.map (Row.place default) := by
    simp only [Row.isAt_iff, List.mem_map]
    rfl
  rw [h.formula?_eq, Option.isSome_map, List.getLast?_isSome, ← hmem]
  simp

lemma names_addRow (h : Gathers default rows w) (r : Row) :
    (w.addRow default r).sheets.map (·.name) = firstSpellings ((rows ++ [r]).map (Row.sheetName default)) := by
  have hany : w.sheets.any (·.isNamed (r.sheetName default)) =
      (rows.map (Row.sheetName default)).any (sameIgnoringCase · (r.sheetName default)) := by
    rw [← any_firstSpellings, ← h.names_eq, List.any_map]
    rfl
  rw [addRow, names_set, hany, h.names_eq, List.map_append, List.map_singleton, firstSpellings_append]

lemma formula?_addRow (h : Gathers default rows w) (r : Row) (name cell : String) :
    (w.addRow default r).formula? name cell =
      (((rows ++ [r]).filter (Row.isAt default name cell)).getLast?).map (·.formula) := by
  rw [addRow, formula?_set, h.formula?_eq, List.filter_append]
  by_cases hr : r.isAt default name cell = true
  · have hplace := (Row.isAt_iff default name cell r).mp hr
    rw [Row.place, Prod.mk.injEq] at hplace
    simp [hr, hplace]
  · have hplace : ¬ (upper (r.sheetName default) = upper name ∧ r.cell = cell) := fun hplace =>
      hr ((Row.isAt_iff default name cell r).mpr (Prod.ext hplace.1 hplace.2))
    simp [hr, hplace]

lemma formulaCount_addRow (h : Gathers default rows w) (r : Row) :
    (w.addRow default r).formulaCount = ((rows ++ [r]).map (Row.place default)).toFinset.card := by
  have hinsert : ((rows ++ [r]).map (Row.place default)).toFinset =
      insert (r.place default) (rows.map (Row.place default)).toFinset := by
    ext p
    simp [eq_comm]
  rw [addRow, formulaCount_set, h.formulaCount_eq, hinsert]
  by_cases hmem : r.place default ∈ rows.map (Row.place default)
  · rw [if_pos ((h.isSome_formula? r).mpr hmem), Finset.card_insert_of_mem (List.mem_toFinset.mpr hmem),
      Nat.add_zero]
  · rw [if_neg (mt (h.isSome_formula? r).mp hmem), Finset.card_insert_of_notMem (mt List.mem_toFinset.mp hmem)]

lemma append_row (h : Gathers default rows w) (r : Row) : Gathers default (rows ++ [r]) (w.addRow default r) where
  names_pairwise := by
    have hpairwise := pairwise_firstSpellings ((rows ++ [r]).map (Row.sheetName default))
    rwa [← h.names_addRow r, List.pairwise_map] at hpairwise
  names_eq := h.names_addRow r
  formula?_eq := h.formula?_addRow r
  formulaCount_eq := h.formulaCount_addRow r

end Gathers

lemma gathers_ofRows (rows : List Row) : Gathers default rows (ofRows default rows) := by
  induction rows using List.reverseRecOn with
  | nil => exact gathers_nil
  | append_singleton rows r ih =>
    have hstep : ofRows default (rows ++ [r]) = (ofRows default rows).addRow default r := by
      simp [ofRows, List.foldl_append]
    rw [hstep]
    exact ih.append_row r

def Decodes (bytes : List UInt8) (rows : List Row) : Prop :=
  List.Forall₂ (fun record row => row? ((Csv.records bytes).headD []) record = some row)
    (Csv.records bytes).tail rows

instance (bytes : List UInt8) (rows : List Row) : Decidable (Decodes bytes rows) :=
  inferInstanceAs (Decidable (List.Forall₂ _ _ _))

lemma rowsFrom_eq_ok_iff {header : Csv.Record} {line : Nat} {records : List Csv.Record} {rows : List Row} :
    rowsFrom header line records = .ok rows ↔
      List.Forall₂ (fun record row => row? header record = some row) records rows := by
  induction records generalizing line rows with
  | nil => simp [rowsFrom, eq_comm]
  | cons record records ih =>
    rw [rowsFrom, List.forall₂_cons_left_iff]
    cases hrow : row? header record with
    | none => simp [throw, throwThe, MonadExceptOf.throw]
    | some row =>
      simp only [← @ih (line + 1)]
      cases rowsFrom header (line + 1) records with
      | error n => simp [bind, Except.bind]
      | ok rows' => simp [bind, Except.bind, pure, Except.pure, @eq_comm _ rows]

lemma ofCsv_eq_ok_iff {bytes : List UInt8} :
    ofCsv default bytes = .ok w ↔ ∃ rows, Decodes bytes rows ∧ w = ofRows default rows := by
  simp only [ofCsv, Decodes]
  cases Csv.records bytes with
  | nil => simp [ofRows, eq_comm]
  | cons header records =>
    simp only [List.headD_cons, List.tail_cons, ← @rowsFrom_eq_ok_iff header 2]
    cases rowsFrom header 2 records with
    | error n => simp [Except.map]
    | ok rows => simp [Except.map, eq_comm]

/-- The workbook that is read has the sheets and the formulas of its rows, whatever these are; a row that
names no sheet is for the default one. One more formula changes one cell of the first sheet of its name, or
of a new sheet at the end, also where several sheets have that name. -/
theorem ofRows_gathers :
    (∀ default bytes w, ofCsv default bytes = .ok w ↔ ∃ rows, Decodes bytes rows ∧ w = ofRows default rows) ∧
    (∀ default rows, Gathers default rows (ofRows default rows)) ∧
    (∀ default (r : Row),
      (∀ name, r.sheet = some name → name ≠ "" → r.sheetName default = name) ∧
      (r.sheet = none ∨ r.sheet = some "" → r.sheetName default = default)) ∧
    ∀ w name cell formula,
      (∃ before s after s', w.sheets = before ++ s :: after ∧ (∀ t ∈ before, t.isNamed name = false) ∧
        s.isNamed name = true ∧ (set w name cell formula).sheets = before ++ s' :: after ∧
        s.Updates s' cell formula) ∨
      (∀ t ∈ w.sheets, t.isNamed name = false) ∧
        ∃ s', (set w name cell formula).sheets = w.sheets ++ [s'] ∧ Sheet.Updates { name } s' cell formula := by
  refine ⟨fun default bytes w => ofCsv_eq_ok_iff, fun default => gathers_ofRows,
    fun default r => ⟨fun name => Row.sheetName_of_named, Row.sheetName_of_unnamed⟩,
    fun w name cell formula => ?_⟩
  obtain ⟨before, s, after, hsheets, hnone, hs, hset⟩ | ⟨hnone, hset⟩ := set_cases w name cell formula
  · exact .inl ⟨before, s, after, _, hsheets, hnone, hs, hset, Sheet.updates_set _ _ _⟩
  · exact .inr ⟨hnone, _, hset, Sheet.updates_set _ _ _⟩

theorem ofRows_gathers_spellings :
    let bytes := "sheet,cell,formula\n,A1,=1\n Data ,A1,=2\nDATA,A1,=3\nsheet1,A1,=4\ndata,a1,=5\n".toUTF8.toList
    let rows : List Row := [⟨some "", "A1", "=1"⟩, ⟨some "Data", "A1", "=2"⟩, ⟨some "DATA", "A1", "=3"⟩,
      ⟨some "sheet1", "A1", "=4"⟩, ⟨some "data", "a1", "=5"⟩]
    let w := ofRows "Sheet1" rows
    let w' := ofRows "Sheet1" (⟨none, "B1", "=0"⟩ :: rows)
    ofCsv "Sheet1" bytes = .ok w ∧
      w.sheets.map (·.name) = ["Sheet1", "Data"] ∧ w.formulaCount = 3 ∧
      w.formula? "SHEET1" "A1" = some "=4" ∧ w.formula? "Sheet1" "B1" = none ∧
      w.formula? "Data" "A1" = some "=3" ∧ w.formula? "Data" "a1" = some "=5" ∧
      w'.sheets.map (·.name) = ["Sheet1", "Data"] ∧ w'.formula? "sheet1" "B1" = some "=0" := by
  intro bytes rows w w'
  obtain ⟨hcsv, hgathers, -⟩ := ofRows_gathers
  have hdecodes : Decodes bytes rows := by decide +kernel
  have hw : Gathers "Sheet1" rows w := hgathers "Sheet1" rows
  have hw' : Gathers "Sheet1" _ w' := hgathers "Sheet1" (⟨none, "B1", "=0"⟩ :: rows)
  refine ⟨(hcsv _ _ _).mpr ⟨rows, hdecodes, rfl⟩, hw.names_eq.trans ?_, hw.formulaCount_eq.trans ?_,
    (hw.formula?_eq _ _).trans ?_, (hw.formula?_eq _ _).trans ?_, (hw.formula?_eq _ _).trans ?_,
    (hw.formula?_eq _ _).trans ?_, hw'.names_eq.trans ?_, (hw'.formula?_eq _ _).trans ?_⟩
  all_goals decide

end FormulaAudit.Workbook
