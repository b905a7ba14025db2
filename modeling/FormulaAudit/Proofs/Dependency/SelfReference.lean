import FormulaAudit.Proofs.Address.CellKey
import FormulaAudit.Proofs.Dependency.Formulas

/-!
Formulas that read their own cell. Keys tell cells apart, but a cell has one key for each number of zeros
in front of its row; so a reference leads back to its own cell if both are written with as many zeros.
-/

namespace FormulaAudit

open Address (key IsEndOf)
open Address.Cell (leadingZeros SameSpelling key_eq_key_iff key_ne_empty)

namespace Formula

def Refers (formula text : String) : Prop :=
  text ∈ Token.values .cellRef (tokens formula) ∨
    ∃ r ∈ Token.values .rangeRef (tokens formula), IsEndOf text.toList r

variable {formula text k : String}

lemma Refers.mentions (h : Refers formula text) (hne : key text ≠ "") : Mentions formula (key text) := by
  rcases h with h | ⟨r, hr, hend⟩
  · exact .inl ⟨text, h, rfl⟩
  · exact .inr ⟨hne, r, hr, text.toList, hend, by rw [String.ofList_toList]⟩

lemma Mentions.exists_refers (h : Mentions formula k) : ∃ text, Refers formula text ∧ key text = k := by
  rcases h with ⟨r, hr, hk⟩ | ⟨-, r, hr, part, hend, hk⟩
  · exact ⟨r, .inl hr, hk⟩
  · exact ⟨.ofList part, .inr ⟨r, hr, by rwa [String.toList_ofList]⟩, hk⟩

end Formula

namespace Dependency.Graph

open Formula (parse Refers)
open Address (Cell)

variable {formulas : List (String × String)} {s f t : String}

lemma mem_reads_self (hmem : (s, f) ∈ formulas) (hparse : ∃ e, parse f = .ok e) (hrefers : Refers f t)
    (hsame : SameSpelling s t) : key s ∈ (ofFormulas formulas).reads (key s) := by
  obtain ⟨c, d, hc, hd, hspelling⟩ := hsame
  have hkey : key s = key t := (key_eq_key_iff hc hd).mpr hspelling
  refine mem_reads_ofFormulas_iff.mpr ⟨(s, f), hmem, rfl, hparse, ?_⟩
  rw [hkey]
  exact hrefers.mentions (key_ne_empty hd)

lemma exists_sameSpelling {c : Cell} (hc : Cell.parse s = .ok c)
    (hrefers : ∀ t, Refers f t → ∃ d, Cell.parse t = .ok d)
    (h : key s ∈ (ofFormulas [(s, f)]).reads (key s)) :
    (∃ e, parse f = .ok e) ∧ ∃ t, Refers f t ∧ SameSpelling s t := by
  obtain ⟨p, hp, -, hparse, hmentions⟩ := mem_reads_ofFormulas_iff.mp h
  obtain rfl := List.mem_singleton.mp hp
  obtain ⟨t, ht, hkey⟩ := hmentions.exists_refers
  obtain ⟨d, hd⟩ := hrefers t ht
  exact ⟨hparse, t, ht, c, d, hc, hd, (key_eq_key_iff hc hd).mp hkey.symm⟩

theorem mem_reads_self_iff_spelling {c d : Cell} (hs : Cell.parse s = .ok c) (ht : Cell.parse t = .ok d) :
    key s = Address.Column.name c.col ++ String.ofList (List.replicate (leadingZeros s) '0') ++
      toString (c.row + 1) ∧
    (key s = key t ↔ (c.row = d.row ∧ c.col = d.col) ∧ leadingZeros s = leadingZeros t) ∧
    (∀ formulas f, (s, f) ∈ formulas → (∃ e, parse f = .ok e) → Refers f t → c.row = d.row → c.col = d.col →
      leadingZeros s = leadingZeros t → key s ∈ (ofFormulas formulas).reads (key s)) ∧
    ∀ f, (∀ u, Refers f u → ∃ e, Cell.parse u = .ok e) →
      (key s ∈ (ofFormulas [(s, f)]).reads (key s) ↔
        (∃ e, parse f = .ok e) ∧ ∃ u, Refers f u ∧ SameSpelling s u) := by
  refine ⟨Address.Cell.key_eq hs, key_eq_key_iff hs ht, fun formulas f hmem hparse hrefers hrow hcol hzeros => ?_,
    fun f hrefers => ⟨exists_sameSpelling hs hrefers, ?_⟩⟩
  · exact mem_reads_self hmem hparse hrefers ⟨c, d, hs, ht, ⟨hrow, hcol⟩, hzeros⟩
  · rintro ⟨hparse, u, hu, hsame⟩
    exact mem_reads_self (List.mem_singleton.mpr rfl) hparse hu hsame

theorem mem_reads_self_iff_spelling_zero :
    Cell.parse " a$01" = .ok ⟨0, 0, true, false⟩ ∧ Cell.parse "$A01" = .ok ⟨0, 0, false, true⟩ ∧
      key " a$01" = key "$A01" ∧ Refers "=SUM(B2:$A01)" "$A01" ∧
      key " a$01" ∈ (ofFormulas [(" a$01", "=SUM(B2:$A01)"), ("B2", "=1")]).reads (key " a$01") ∧
      key "$a1" ∉ (ofFormulas [("$a1", "=$A01^2")]).reads (key "$a1") := by
  have hc : Cell.parse " a$01" = .ok ⟨0, 0, true, false⟩ := by decide +kernel
  have hd : Cell.parse "$A01" = .ok ⟨0, 0, false, true⟩ := by decide +kernel
  have hcell : Cell.parse "$a1" = .ok ⟨0, 0, false, true⟩ := by decide +kernel
  have hzeros : leadingZeros " a$01" = leadingZeros "$A01" := by decide +kernel
  have hrefers : Refers "=SUM(B2:$A01)" "$A01" :=
    .inr ⟨"B2:$A01", by decide +kernel, .inr (by decide +kernel)⟩
  have hparse : ∃ e, parse "=SUM(B2:$A01)" = .ok e := Formula.exists_parse_eq_ok (by decide +kernel)
  have hmem : (" a$01", "=SUM(B2:$A01)") ∈ [(" a$01", "=SUM(B2:$A01)"), ("B2", "=1")] := List.mem_cons_self
  have honly : ∀ t, Refers "=$A01^2" t → t = "$A01" := by
    have hcells : Token.values .cellRef (Formula.tokens "=$A01^2") = ["$A01"] := by decide +kernel
    have hranges : Token.values .rangeRef (Formula.tokens "=$A01^2") = [] := by decide +kernel
    rintro t (h | ⟨r, hr, -⟩)
    · rwa [hcells, List.mem_singleton] at h
    · simp [hranges] at hr
  obtain ⟨-, hkey, hself, -⟩ := mem_reads_self_iff_spelling hc hd
  obtain ⟨-, -, -, hiff⟩ := mem_reads_self_iff_spelling hcell hd
  refine ⟨hc, hd, hkey.mpr ⟨⟨rfl, rfl⟩, hzeros⟩, hrefers, hself _ _ hmem hparse hrefers rfl rfl hzeros,
    fun h => ?_⟩
  obtain ⟨-, t, ht, _, _, -, -, -, hspelled⟩ := (hiff _ fun t ht => ⟨_, honly t ht ▸ hd⟩).mp h
  obtain rfl := honly t ht
  exact absurd hspelled (by decide +kernel)

/-- `A01` is read as the cell `A1`, but its key is another one, and `=A01+1` in `A1` does not read `A1`. -/
theorem leading_zero_hides_self_reference :
    Cell.parse "A01" = .ok ⟨0, 0, false, false⟩ ∧ Cell.parse "A1" = .ok ⟨0, 0, false, false⟩ ∧
      key "A01" = "A01" ∧ key "A1" = "A1" ∧ (∃ e, parse "=A01+1" = .ok e) ∧ Refers "=A01+1" "A01" ∧
      (ofFormulas [("A1", "=A01+1")]).reads "A1" = ["A01"] :=
  ⟨by decide +kernel, by decide +kernel, by decide, by decide,
    Formula.exists_parse_eq_ok (by decide +kernel), .inl (by decide +kernel), by decide +kernel⟩

end Dependency.Graph

end FormulaAudit
