import FormulaAudit.Proofs.Address.Key
import FormulaAudit.Proofs.Dependency.Components
import FormulaAudit.Proofs.Dependency.PathSearch
import FormulaAudit.Proofs.Dependency.Rows
import FormulaAudit.Proofs.Formula.References
import Mathlib.Data.List.Flatten
import Mathlib.Data.List.Sort
import Mathlib.Data.String.Basic

/-!
The circular references of a graph are the cells on its cycles, whichever way they are searched for
and in whatever order its rows and their reads stand.
-/

namespace FormulaAudit.Dependency

open Address (key)

lemma key_of_mem_readsOf {s d : String} (h : d ∈ readsOf (Formula.analyze s)) : key d = d := by
  obtain ⟨hcells, hranges⟩ := Formula.references_subset s
  have hkey {part r : String} (hr : ∀ c ∈ r.toList, Lexeme.isNameChar c = true)
      (hpart : part.toList ⊆ r.toList) : key (key part) = key part :=
    Address.key_key fun c hc => Lexeme.not_isBlank_of_isNameChar (hr c (hpart hc))
  rcases List.mem_append.mp h with h | h
  · obtain ⟨r, hr, rfl⟩ := List.mem_map.mp h
    exact hkey (Formula.isNameChar_of_mem_values (.inr (.inl rfl)) (hcells hr)) (List.Subset.refl _)
  · obtain ⟨r, hr, hd⟩ := List.mem_flatMap.mp h
    have hname := Formula.isNameChar_of_mem_values (.inr (.inr rfl)) (hranges hr)
    cases he : Address.endpoints r with
    | none => simp [rangeEnds, he] at hd
    | some ends =>
      simp only [rangeEnds, he] at hd
      obtain ⟨hfirst, hlast⟩ := Address.endpoints_subset he
      rcases List.mem_filter.mp hd |>.1 |> List.mem_cons.mp with rfl | hd
      · exact hkey hname hfirst
      · obtain rfl := List.mem_singleton.mp hd
        exact hkey hname hlast

lemma OnCycle.mem_readers {g : Graph} {v : String} (hv : OnCycle g.reads v) : v ∈ g.readers := by
  obtain ⟨w, hw, -⟩ := hv.exists_edge
  exact Graph.mem_readers.mpr (List.ne_nil_of_mem hw)

namespace Graph

variable {g g' : Graph}

/-- Every dependency is recorded by its key. The keys of the rows need not be their own keys. -/
def Canonical (g : Graph) : Prop :=
  ∀ row ∈ g.rows, ∀ d ∈ row.2, key d = d

instance (g : Graph) : Decidable g.Canonical :=
  inferInstanceAs (Decidable (∀ row ∈ g.rows, ∀ d ∈ row.2, key d = d))

lemma canonical_iff : g.Canonical ↔ ∀ k, ∀ w ∈ g.reads k, key w = w := by
  simp only [mem_reads]
  constructor
  · rintro hc k w ⟨row, hrow, -, hw⟩
    exact hc row hrow w hw
  · intro hc row hrow w hw
    exact hc row.1 w ⟨row, hrow, rfl, hw⟩

lemma canonical_ofFormulas (formulas : List (String × String)) : (ofFormulas formulas).Canonical := by
  rw [canonical_iff]
  intro k w hw
  obtain ⟨p, -, -, hw⟩ := mem_reads_ofFormulas.mp hw
  exact key_of_mem_readsOf hw

section Components

variable {vertices : List String} {edges : String → List String}

lemma isCyclic_iff {C : List String} (hC : IsComponent edges C) (hnodup : C.Nodup) {v : String}
    (hv : v ∈ C) : isCyclic edges C = true ↔ OnCycle edges v := by
  match C, hC.ne_nil with
  | [u], _ =>
    obtain rfl := List.mem_singleton.mp hv
    simp only [isCyclic, List.contains_iff_mem]
    constructor
    · exact fun he => .of_reaches he (.refl v)
    · intro h
      obtain ⟨w, hw, hback⟩ := h.exists_edge
      obtain rfl := List.mem_singleton.mp ((hC.mem_iff v hv w).mpr ⟨.single hw, hback⟩)
      exact hw
  | u :: u' :: rest, _ =>
    simp only [isCyclic, true_iff]
    -- some other vertex of the component leads back
    obtain ⟨w, hw, hne⟩ : ∃ w ∈ u :: u' :: rest, v ≠ w := by
      by_cases h : v = u
      · exact ⟨u', by simp, by rintro rfl; simp [h] at hnodup⟩
      · exact ⟨u, by simp, h⟩
    obtain ⟨hto, hback⟩ := (hC.mem_iff v hv w).mp hw
    exact .of_mutual hne hto hback

lemma mem_cyclic_iff (hclosed : ∀ v ∈ vertices, ∀ w ∈ edges v, w ∈ vertices) {v : String} :
    v ∈ ((components vertices edges).filter (isCyclic edges)).flatten ↔
      v ∈ vertices ∧ OnCycle edges v := by
  have hspec := components_spec hclosed
  have hiff (C : List String) (hC : C ∈ components vertices edges) (hv : v ∈ C) :
      isCyclic edges C = true ↔ OnCycle edges v :=
    isCyclic_iff (hspec.isComponent C hC) (List.nodup_flatten.mp hspec.nodup |>.1 C hC) hv
  rw [← hspec.mem_iff, List.mem_flatten, List.mem_flatten]
  constructor
  · rintro ⟨C, hC, hv⟩
    obtain ⟨hC, hcyclic⟩ := List.mem_filter.mp hC
    exact ⟨⟨C, hC, hv⟩, (hiff C hC hv).mp hcyclic⟩
  · rintro ⟨⟨C, hC, hv⟩, hcycle⟩
    exact ⟨C, List.mem_filter.mpr ⟨hC, (hiff C hC hv).mpr hcycle⟩, hv⟩

end Components

def innerReads (g : Graph) (v : String) : List String :=
  (g.reads (key v)).filter fun w => !(g.reads w).isEmpty

lemma cyclicComponents_eq (g : Graph) : g.cyclicComponents =
    ((components g.readers g.innerReads).filter (isCyclic g.innerReads)).flatten := by
  simp only [cyclicComponents, indexedReads_index]
  rfl

lemma innerReads_closed (g : Graph) :
    ∀ v ∈ g.readers, ∀ w ∈ g.innerReads v, w ∈ g.readers := by
  intro v _ w hw
  rw [mem_readers]
  simpa using (List.mem_filter.mp hw).2

/-- Among canonical reads, keys that are not their own are on no cycle, so it does not matter that the
components read them by their keys. -/
lemma onCycle_innerReads (hc : g.Canonical) {v : String} :
    OnCycle g.innerReads v ↔ OnCycle g.reads v := by
  rw [canonical_iff] at hc
  constructor
  · refine OnCycle.mono (P := fun v => key v = v) ?_ ?_
    · exact fun v w hw => hc _ w (List.mem_filter.mp hw).1
    · intro v hv w hw _
      have hmem := (List.mem_filter.mp hw).1
      rwa [hv] at hmem
  · refine OnCycle.mono (P := fun v => key v = v) (fun v w hw => hc v w hw) ?_
    intro v hv w hw hne
    refine List.mem_filter.mpr ⟨hv.symm ▸ hw, ?_⟩
    simpa using hne

lemma onCycle_precedents (hc : g.Canonical) {v : String} :
    OnCycle g.precedents v ↔ OnCycle g.reads v := by
  rw [canonical_iff] at hc
  constructor
  · refine OnCycle.mono (P := fun v => key v = v) (fun v w hw => hc _ w hw) ?_
    intro v hv w hw _
    rwa [precedents, hv] at hw
  · refine OnCycle.mono (P := fun v => key v = v) (fun v w hw => hc v w hw) ?_
    intro v hv w hw _
    rwa [precedents, hv]

lemma mem_cyclicComponents (hc : g.Canonical) {v : String} :
    v ∈ g.cyclicComponents ↔ OnCycle g.reads v := by
  rw [cyclicComponents_eq, mem_cyclic_iff g.innerReads_closed, onCycle_innerReads hc]
  exact ⟨fun hv => hv.2, fun hv => ⟨hv.mem_readers, hv⟩⟩

lemma nodup_cyclicComponents (g : Graph) : g.cyclicComponents.Nodup := by
  rw [cyclicComponents_eq]
  exact (components_spec g.innerReads_closed).nodup.sublist List.filter_sublist.flatten

section Paths

variable {search : String → Option Bool}

lemma mem_cyclicPaths {P : String → Prop} (hsearch : ∀ v b, search v = some b → (b = true ↔ P v))
    (hcomponents : ∀ v, v ∈ g.cyclicComponents ↔ P v) (vs : List String) {v : String} :
    v ∈ g.cyclicPaths search vs ↔ v ∈ vs ∧ P v := by
  induction vs with
  | nil => simp [cyclicPaths]
  | cons u vs ih =>
    rw [cyclicPaths]
    split
    · next hu =>
      have hP : P u := (hsearch u true hu).mp rfl
      rw [List.mem_cons, ih, List.mem_cons]
      constructor
      · rintro (rfl | hv)
        · exact ⟨.inl rfl, hP⟩
        · exact ⟨.inr hv.1, hv.2⟩
      · rintro ⟨rfl | hv, hPv⟩
        · exact .inl rfl
        · exact .inr ⟨hv, hPv⟩
    · next hu =>
      have hP : ¬ P u := fun hP => by simpa using (hsearch u false hu).mpr hP
      rw [ih, List.mem_cons]
      constructor
      · exact fun hv => ⟨.inr hv.1, hv.2⟩
      · rintro ⟨rfl | hv, hPv⟩
        · exact absurd hPv hP
        · exact ⟨hv, hPv⟩
    · simp only [List.mem_filter, List.contains_iff_mem, hcomponents]

lemma cyclicPaths_sublist (vs : List String) : (g.cyclicPaths search vs).Sublist vs := by
  induction vs with
  | nil => exact .slnil
  | cons u vs ih =>
    rw [cyclicPaths]
    split
    · exact ih.cons_cons u
    · exact ih.cons u
    · exact List.filter_sublist

end Paths

def unsortedCircular (g : Graph) : Strategy → List String
  | .paths budget => g.cyclicPaths (PathSearch.reachesItself g.reads · budget) g.readers
  | .components => g.cyclicComponents

lemma circular_eq (g : Graph) (strategy : Strategy) :
    g.circular strategy = (g.unsortedCircular strategy).mergeSort fun a b => decide (a ≤ b) := by
  cases strategy <;> simp only [circular, indexedReads_index] <;> rfl

lemma mem_unsortedCircular (hc : g.Canonical) (strategy : Strategy) {v : String} :
    v ∈ g.unsortedCircular strategy ↔ OnCycle g.reads v := by
  cases strategy with
  | components => exact mem_cyclicComponents hc
  | paths budget =>
    refine (mem_cyclicPaths (fun v b => PathSearch.reachesItself_eq_some)
      (fun v => mem_cyclicComponents hc) g.readers).trans ?_
    exact ⟨fun hv => hv.2, fun hv => ⟨hv.mem_readers, hv⟩⟩

lemma nodup_unsortedCircular (g : Graph) (strategy : Strategy) :
    (g.unsortedCircular strategy).Nodup := by
  cases strategy with
  | components => exact g.nodup_cyclicComponents
  | paths budget => exact g.nodup_readers.sublist (cyclicPaths_sublist _)

lemma mem_circular (hc : g.Canonical) (strategy : Strategy) {v : String} :
    v ∈ g.circular strategy ↔ OnCycle g.reads v := by
  rw [circular_eq, List.mem_mergeSort, mem_unsortedCircular hc]

lemma pairwise_circular (g : Graph) (strategy : Strategy) :
    (g.circular strategy).Pairwise (· < ·) := by
  rw [circular_eq]
  have hsorted : ((g.unsortedCircular strategy).mergeSort fun a b => decide (a ≤ b)).Pairwise
      fun a b => decide (a ≤ b) = true :=
    List.pairwise_mergeSort (by simpa using fun a b c => le_trans) (by simpa using le_total) _
  have hnodup := (List.mergeSort_perm (g.unsortedCircular strategy) fun a b => decide (a ≤ b)).nodup_iff.mpr
    (g.nodup_unsortedCircular strategy)
  exact hsorted.imp₂ (fun a b hle hne => lt_of_le_of_ne (of_decide_eq_true hle) hne) hnodup

lemma Reorders.canonical (h : Reorders g g') (hc : g.Canonical) : g'.Canonical := by
  rw [canonical_iff]
  intro k w hw
  exact canonical_iff.mp hc k w (h.mem_reads_iff.mp hw)

lemma Reorders.onCycle_iff (h : Reorders g g') {v : String} :
    OnCycle g'.reads v ↔ OnCycle g.reads v := by
  have hadjacent : Adjacent g'.reads = Adjacent g.reads := by
    funext k w
    exact propext h.mem_reads_iff
  rw [OnCycle, OnCycle, hadjacent]

theorem circular_eq_cycles :
    (∀ g : Graph, g.Canonical → ∀ g', Reorders g g' → ∀ strategy,
      (∀ c, c ∈ g'.circular strategy ↔ OnCycle g.reads c) ∧
      (∀ c, c ∈ g'.circular strategy ↔ OnCycle g.precedents c) ∧
      (g'.circular strategy).Pairwise (· < ·) ∧
      ∀ g'' strategy', Reorders g g'' → g''.circular strategy' = g'.circular strategy) ∧
    ∀ formulas, (ofFormulas formulas).Canonical := by
  refine ⟨fun g hc g' hg' strategy => ?_, canonical_ofFormulas⟩
  have hmem {g' : Graph} (hg' : Reorders g g') (strategy : Strategy) (c : String) :
      c ∈ g'.circular strategy ↔ OnCycle g.reads c :=
    (mem_circular (hg'.canonical hc) strategy).trans hg'.onCycle_iff
  refine ⟨hmem hg' strategy, fun c => (hmem hg' strategy c).trans (onCycle_precedents hc).symm,
    g'.pairwise_circular strategy, fun g'' strategy' hg'' => ?_⟩
  refine (g''.pairwise_circular strategy').eq_of_mem_iff (g'.pairwise_circular strategy) fun c => ?_
  rw [hmem hg'', hmem hg']

theorem circular_eq_cycles_alias :
    let g := ((Graph.addDependency ∅ "$ A1" "a1").addDependency "A1" "$B$1").addDependency "b1" "A1"
    let g' : Graph := ⟨[("B1", ["A1"]), ("A1", ["B1"]), (" A1", ["A1"])], by decide⟩
    g.cells = [" A1", "A1", "B1"] ∧ g.Canonical ∧ Reorders g g' ∧
      "A1" ∈ g'.circular (.paths 0) ∧ " A1" ∉ g'.circular (.paths 0) := by
  intro g g'
  have hrows : g.rows = [(" A1", ["A1"]), ("A1", ["B1"]), ("B1", ["A1"])] := by decide
  have hcanonical : g.Canonical := by decide
  have hreorders : Reorders g g' := ⟨g.rows.reverse, (List.reverse_perm _).symm, by
    rw [hrows]
    exact List.forall₂_same.mpr fun _ _ => ⟨rfl, .refl _⟩⟩
  obtain ⟨hmem, -⟩ := circular_eq_cycles.1 g hcanonical g' hreorders (.paths 0)
  refine ⟨by decide, hcanonical, hreorders, (hmem "A1").mpr ?_, fun h => ?_⟩
  · exact .of_reaches (w := "B1") (by decide) (.single (by decide))
  · obtain ⟨w, hw⟩ := ((hmem " A1").mp h).exists_last_edge
    have hkey := canonical_iff.mp hcanonical w " A1" hw
    exact absurd hkey (by decide)

end Graph

end FormulaAudit.Dependency
