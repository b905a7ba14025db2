import FormulaAudit.Proofs.Dependency.Rows
import FormulaAudit.Proofs.Formula.References
import FormulaAudit.Proofs.Token.Longest

/-!
The graph of a list of formulas, read off their tokens: a key for each cell text, and as its reads the
references and the ends of the ranges of the formulas that have an expression.
-/

namespace FormulaAudit

namespace Address

section Ends

variable {cs : List Char}

lemma head?_splitOn (h : ':' ∈ cs) : (cs.splitOn ':').head? = some (cs.takeWhile (· != ':')) := by
  obtain ⟨first, rest, rfl, hfirst⟩ := List.eq_append_cons_of_mem h
  rw [Text.takeWhile_ne_append hfirst (by simp), List.splitOn_append_cons_self,
    List.splitOn_eq_singleton hfirst]
  rfl

lemma getLast?_splitOn (h : ':' ∈ cs) :
    (cs.splitOn ':').getLast? = some (cs.reverse.takeWhile (· != ':')).reverse := by
  obtain ⟨last, rest, hrev, hlast⟩ := List.eq_append_cons_of_mem (List.mem_reverse.mpr h)
  have hcs : cs = rest.reverse ++ ':' :: last.reverse := by
    simpa using congrArg List.reverse hrev
  have hlast' : ':' ∉ last.reverse := by simpa using hlast
  rw [hrev, Text.takeWhile_ne_append hlast (by simp), hcs, List.splitOn_append_cons_self,
    List.splitOn_eq_singleton hlast']
  simp

end Ends

def IsEndOf (part : List Char) (range : String) : Prop :=
  part ∈ (range.toList.splitOn ':').head? ∨ part ∈ (range.toList.splitOn ':').getLast?

lemma endpoints_eq_some {r : String} (h : ':' ∈ r.toList) :
    ∃ first last, endpoints r = some (.ofList first, .ofList last) ∧
      ∀ part, IsEndOf part r ↔ part = first ∨ part = last := by
  refine ⟨r.toList.takeWhile (· != ':'), (r.toList.reverse.takeWhile (· != ':')).reverse, ?_, ?_⟩
  · simp [endpoints, endpointChars, h]
  · intro part
    rw [IsEndOf, head?_splitOn h, getLast?_splitOn h, Option.mem_some_iff, Option.mem_some_iff, eq_comm,
      @eq_comm _ part (List.reverse _)]

end Address

lemma Token.colon_mem_of_rangeRef {pos : Nat} {cs : List Char} {t : Token} (h : t ∈ scanFrom pos cs)
    (hk : t.kind = .rangeRef) : ':' ∈ t.value.toList := by
  obtain ⟨c, cs', l, hl, hkind, hvalue⟩ := exists_lexeme h
  obtain ⟨rfl, -⟩ := Lexeme.eq_name_of_first? hl (.inr (.inr (hkind.symm.trans hk)))
  rw [hvalue]
  exact Lexeme.nameKind_eq_rangeRef.mp (hkind.symm.trans hk)

namespace Formula

open Address (key IsEndOf)

def Mentions (formula k : String) : Prop :=
  (∃ r ∈ Token.values .cellRef (tokens formula), key r = k) ∨
    k ≠ "" ∧ ∃ r ∈ Token.values .rangeRef (tokens formula), ∃ part, IsEndOf part r ∧ key (.ofList part) = k

lemma colon_mem_of_mem_values {s r : String} (h : r ∈ Token.values .rangeRef (tokens s)) :
    ':' ∈ r.toList := by
  obtain ⟨t, ht, rfl⟩ := List.mem_map.mp h
  obtain ⟨ht, hkind⟩ := List.mem_filter.mp ht
  exact Token.colon_mem_of_rangeRef ht (of_decide_eq_true hkind)

end Formula

namespace Dependency

open Address (key IsEndOf)
open Formula (parse tokens Mentions)

lemma mem_rangeEnds {r k : String} (h : ':' ∈ r.toList) :
    k ∈ rangeEnds r ↔ k ≠ "" ∧ ∃ part, IsEndOf part r ∧ key (.ofList part) = k := by
  obtain ⟨first, last, hends, hparts⟩ := Address.endpoints_eq_some h
  simp only [rangeEnds, hends, List.mem_filter, List.mem_cons, List.not_mem_nil, or_false, bne_iff_ne]
  constructor
  · rintro ⟨hk, hne⟩
    rcases hk with hk | hk
    · exact ⟨hne, first, (hparts first).mpr (.inl rfl), hk.symm⟩
    · exact ⟨hne, last, (hparts last).mpr (.inr rfl), hk.symm⟩
  · rintro ⟨hne, part, hpart, hk⟩
    rcases (hparts part).mp hpart with rfl | rfl
    · exact ⟨.inl hk.symm, hne⟩
    · exact ⟨.inr hk.symm, hne⟩

lemma readsOf_of_error {s : String} {e : Formula.Error} (h : parse s = .error e) :
    readsOf (Formula.analyze s) = [] := by
  rw [Formula.analyze, h]
  cases e <;> rfl

lemma readsOf_of_ok {s : String} {e : Expr} (h : parse s = .ok e) :
    readsOf (Formula.analyze s) = readsOf e.analyze := by
  rw [Formula.analyze, h]
  dsimp only
  split <;> rfl

lemma mem_readsOf {e : Expr} {k : String} : k ∈ readsOf e.analyze ↔
    (∃ r ∈ e.leafValues .cellRef, key r = k) ∨ ∃ r ∈ e.leafValues .rangeRef, k ∈ rangeEnds r := by
  simp [readsOf, Expr.analyze, Expr.dependencies, Expr.usedRanges, List.mem_eraseDups]

lemma mem_readsOf_analyze {formula k : String} :
    k ∈ readsOf (Formula.analyze formula) ↔ (∃ e, parse formula = .ok e) ∧ Mentions formula k := by
  cases h : parse formula with
  | error e => simp [readsOf_of_error h]
  | ok e =>
    have hranges : (∃ r ∈ Token.values .rangeRef (tokens formula), k ∈ rangeEnds r) ↔
        k ≠ "" ∧ ∃ r ∈ Token.values .rangeRef (tokens formula), ∃ part, IsEndOf part r ∧
          key (.ofList part) = k := by
      rw [← exists_and_left]
      refine exists_congr fun r => ?_
      rw [and_left_comm]
      exact and_congr_right fun hr => mem_rangeEnds (Formula.colon_mem_of_mem_values hr)
    simp [readsOf_of_ok h, mem_readsOf, Mentions, ← hranges, Formula.leafValues_of_parse h]

lemma nodup_union {old new : List String} (h : old.Nodup) : (union old new).Nodup := by
  induction new generalizing old with
  | nil => exact h
  | cons k new ih => exact ih h.insert

namespace Graph

variable {g g' : Graph} {formulas formulas' : List (String × String)} {k w : String}

lemma mem_cells_addFormula {cell : String} {a : Analysis} :
    k ∈ (g.addFormula cell a).cells ↔ k ∈ g.cells ∨ key cell = k := by
  rw [cells, addFormula, map_fst_addRow]
  split
  · next hmem =>
    refine ⟨.inl, fun h => h.elim id fun hk => ?_⟩
    exact hk ▸ hmem
  · simp [cells, eq_comm]

lemma mem_cells_addFormulas :
    k ∈ (g.addFormulas formulas).cells ↔ k ∈ g.cells ∨ ∃ p ∈ formulas, key p.1 = k := by
  induction formulas generalizing g with
  | nil => simp [addFormulas]
  | cons p ps ih =>
    have hstep : g.addFormulas (p :: ps) =
        (g.addFormula p.1 (Formula.analyze p.2)).addFormulas ps := rfl
    rw [hstep, ih, mem_cells_addFormula, List.exists_mem_cons_iff, or_assoc]

lemma mem_cells_ofFormulas : k ∈ (ofFormulas formulas).cells ↔ ∃ p ∈ formulas, key p.1 = k := by
  have hempty : k ∉ (∅ : Graph).cells := List.not_mem_nil
  exact (mem_cells_addFormulas (g := ∅)).trans (or_iff_right hempty)

lemma nodup_lookup_addRow {rows : List (String × List String)} {cell : String} {new : List String}
    (h : ((rows.lookup k).getD []).Nodup) : (((addRow cell new rows).lookup k).getD []).Nodup := by
  rw [lookup_addRow]
  split
  · exact nodup_union h
  · exact h

lemma Reached.nodup_reads (h : Reached g) (k : String) : (g.reads k).Nodup := by
  induction h with
  | empty => exact List.nodup_nil
  | addFormula _ _ _ ih | addDependency _ _ _ ih => exact nodup_lookup_addRow ih

lemma rows_eq (g : Graph) : g.rows = g.cells.map fun k => (k, g.reads k) := by
  rw [cells, List.map_map]
  refine (List.map_id g.rows).symm.trans (List.map_congr_left ?_)
  rintro ⟨j, ws⟩ hrow
  simp [reads, (lookup_eq_some_iff g.nodup).mpr hrow]

lemma reorders_of_mem_iff (hg : Reached g) (hg' : Reached g') (hcells : ∀ k, k ∈ g.cells ↔ k ∈ g'.cells)
    (hreads : ∀ k w, w ∈ g.reads k ↔ w ∈ g'.reads k) : Reorders g g' := by
  have hperm : g.cells.Perm g'.cells :=
    (List.perm_ext_iff_of_nodup g.nodup g'.nodup).mpr hcells
  refine ⟨g'.cells.map fun k => (k, g.reads k), ?_, ?_⟩
  · rw [g.rows_eq]
    exact hperm.map _
  · rw [g'.rows_eq, List.forall₂_map_left_iff, List.forall₂_map_right_iff, List.forall₂_same]
    intro k _
    refine ⟨rfl, ?_⟩
    exact (List.perm_ext_iff_of_nodup (hg.nodup_reads k) (hg'.nodup_reads k)).mpr (hreads k)

lemma mem_reads_ofFormulas_iff :
    w ∈ (ofFormulas formulas).reads k ↔
      ∃ p ∈ formulas, key p.1 = k ∧ (∃ e, parse p.2 = .ok e) ∧ Mentions p.2 w := by
  simp only [mem_reads_ofFormulas, mem_readsOf_analyze]

lemma reorders_ofFormulas (h : ∀ p, p ∈ formulas ↔ p ∈ formulas') :
    Reorders (ofFormulas formulas) (ofFormulas formulas') := by
  apply reorders_of_mem_iff (reached_ofFormulas _) (reached_ofFormulas _)
  · simp only [mem_cells_ofFormulas, h, implies_true]
  · simp only [mem_reads_ofFormulas, h, implies_true]

/-- The graph of a list of formulas: its keys are those of the cells, each once, and a key reads what
the formulas of its cells mention that have an expression. So neither the order of the formulas nor
their repetition changes the graph. -/
theorem ofFormulas_eq_mentions (formulas : List (String × String)) :
    (ofFormulas formulas).cells.Nodup ∧
    (∀ k, k ∈ (ofFormulas formulas).cells ↔ ∃ p ∈ formulas, key p.1 = k) ∧
    (∀ k, ((ofFormulas formulas).reads k).Nodup) ∧
    (∀ k w, w ∈ (ofFormulas formulas).reads k ↔
      ∃ p ∈ formulas, key p.1 = k ∧ (∃ e, parse p.2 = .ok e) ∧ Mentions p.2 w) ∧
    (∀ cell w, w ∈ (ofFormulas formulas).precedents cell ↔
      ∃ p ∈ formulas, key p.1 = key cell ∧ (∃ e, parse p.2 = .ok e) ∧ Mentions p.2 w) ∧
    ∀ formulas', (∀ p, p ∈ formulas ↔ p ∈ formulas') →
      Reorders (ofFormulas formulas) (ofFormulas formulas') := by
  refine ⟨(ofFormulas formulas).nodup, fun k => mem_cells_ofFormulas,
    (reached_ofFormulas formulas).nodup_reads, ?_, ?_, ?_⟩
  · exact fun k w => mem_reads_ofFormulas_iff
  · exact fun cell w => mem_reads_ofFormulas_iff
  · exact fun formulas' h => reorders_ofFormulas h

theorem ofFormulas_eq_mentions_chain :
    let formulas := [("$a$1", "=SUM(C1:D2:$e3,$b1)"), ("A1", "=C1:&\"(\""), ("b1", "=(A1")]
    (∀ p, p ∈ formulas ↔ p ∈ formulas.reverse ++ formulas) ∧
      Reorders (ofFormulas formulas) (ofFormulas (formulas.reverse ++ formulas)) ∧
      "E3" ∈ (ofFormulas formulas).precedents "a1" ∧ Mentions "=SUM(C1:D2:$e3,$b1)" "E3" := by
  intro formulas
  have hmem : ∀ p, p ∈ formulas ↔ p ∈ formulas.reverse ++ formulas := by simp
  obtain ⟨-, -, -, -, hprec, hreorders⟩ := ofFormulas_eq_mentions formulas
  have hend : Mentions "=SUM(C1:D2:$e3,$b1)" "E3" :=
    .inr ⟨by decide, "C1:D2:$e3", by decide +kernel, "$e3".toList, .inr (by decide +kernel), by decide +kernel⟩
  obtain ⟨e, h⟩ : ∃ e, parse "=SUM(C1:D2:$e3,$b1)" = .ok e :=
    Formula.exists_parse_eq_ok (by decide +kernel)
  refine ⟨hmem, hreorders _ hmem, (hprec "a1" "E3").mpr ?_, hend⟩
  exact ⟨("$a$1", "=SUM(C1:D2:$e3,$b1)"), by simp [formulas], by decide, ⟨e, h⟩, hend⟩

end Graph

end Dependency

end FormulaAudit
