import FormulaAudit.Address.Key
import FormulaAudit.Address.Range
import FormulaAudit.Proofs.Text.Characters

/-! A text without white space has the same key as its key. -/

namespace FormulaAudit.Address

open Text

lemma keyChars_keyChars {cs : List Char} (h : ∀ c ∈ cs, isBlank c = false) :
    keyChars (keyChars cs) = keyChars cs := by
  have hkey : keyChars cs = (cs.filter (· != '$')).map Char.toUpper := by
    rw [keyChars, trimChars_eq_self h]
  have hblank : ∀ c ∈ keyChars cs, isBlank c = false := by
    rw [hkey]
    intro c hc
    obtain ⟨d, hd, rfl⟩ := List.mem_map.mp hc
    rw [isBlank_toUpper]
    exact h d (List.mem_filter.mp hd).1
  have hdollar : ∀ c ∈ keyChars cs, (c != '$') = true := by
    rw [hkey]
    intro c hc
    obtain ⟨d, hd, rfl⟩ := List.mem_map.mp hc
    simpa [toUpper_eq_dollar] using (List.mem_filter.mp hd).2
  rw [keyChars, trimChars_eq_self hblank, List.filter_eq_self.mpr hdollar, hkey, List.map_map]
  exact List.map_congr_left fun c _ => Char.toUpper_toUpper_eq_toUpper c

lemma key_key {s : String} (h : ∀ c ∈ s.toList, isBlank c = false) : key (key s) = key s := by
  simp [key, keyChars_keyChars h]

lemma endpoints_subset {s : String} {ends : String × String} (h : endpoints s = some ends) :
    ends.1.toList ⊆ s.toList ∧ ends.2.toList ⊆ s.toList := by
  unfold endpoints endpointChars at h
  split at h
  · obtain rfl := Option.some.inj h
    refine ⟨fun c hc => ?_, fun c hc => ?_⟩
    · rw [String.toList_ofList] at hc
      exact (List.takeWhile_sublist _).subset hc
    · rw [String.toList_ofList, List.mem_reverse] at hc
      exact List.mem_reverse.mp ((List.takeWhile_sublist _).subset hc)
  · simp at h

end FormulaAudit.Address
