import FormulaAudit.Address.Key
import FormulaAudit.Proofs.Address.Cell

/-!
The key of a cell text: the name of the column and the number of the row, with the zeros that the text has
in front of that number.
-/

namespace FormulaAudit.Address

open Text

namespace Cell

def leadingZeros (s : String) : Nat :=
  (((trim s).toList.filter Char.isDigit).takeWhile (· == '0')).length

namespace Spelled

variable {cs letters digits : List Char} {c : Cell}

lemma filter_eq {p : Char → Bool} (h : Spelled cs c letters digits) (hp : p '$' = false) :
    cs.filter p = letters.filter p ++ digits.filter p := by
  have hmarker (b : Bool) : (marker b).toList.filter p = [] := by
    cases b <;> simp [hp]
  rw [h.append_eq, List.filter_append, List.filter_append, List.filter_append, hmarker, hmarker,
    List.nil_append, List.append_nil]

lemma filter_isDigit (h : Spelled cs c letters digits) : cs.filter Char.isDigit = digits := by
  have hletters : letters.filter Char.isDigit = [] := by
    refine List.filter_eq_nil_iff.mpr fun ch hch hdigit => ?_
    simpa [not_isAlpha_of_isDigit hdigit] using h.isAlpha_of_mem ch hch
  rw [h.filter_eq rfl, hletters, List.filter_eq_self.mpr h.isDigit_of_mem, List.nil_append]

lemma digits_eq (h : Spelled cs c letters digits) :
    digits = List.replicate (digits.takeWhile (· == '0')).length '0' ++ Nat.toDigits 10 (c.row + 1) := by
  have hzeros : digits.takeWhile (· == '0') = List.replicate (digits.takeWhile (· == '0')).length '0' := by
    refine List.eq_replicate_of_mem fun ch hch => ?_
    simpa using List.mem_takeWhile_imp hch
  rw [← hzeros, ← h.dropWhile_zero, List.takeWhile_append_dropWhile]

lemma map_toUpper_filter (h : Spelled cs c letters digits) :
    (cs.filter (· != '$')).map Char.toUpper = Column.letters c.col ++ digits := by
  have hkept {p : Char → Bool} {ds : List Char} (hds : ∀ ch ∈ ds, p ch = true) (hp : p '$' = false) :
      ds.filter (· != '$') = ds := by
    refine List.filter_eq_self.mpr fun ch hch => ?_
    rw [bne_iff_ne]
    rintro rfl
    simpa [hp] using hds _ hch
  rw [h.filter_eq rfl, hkept h.isAlpha_of_mem rfl, hkept h.isDigit_of_mem rfl, List.map_append,
    h.map_toUpper_letters, map_toUpper_of_isDigit h.isDigit_of_mem]

end Spelled

variable {s t : String} {c d : Cell}

lemma exists_digits (h : parse s = .ok c) : ∃ digits, (key s).toList = Column.letters c.col ++ digits ∧
    (∀ ch ∈ digits, ch.isDigit = true) ∧ Nat.ofDigitChars 10 digits 0 = c.row + 1 ∧
    digits = List.replicate (leadingZeros s) '0' ++ Nat.toDigits 10 (c.row + 1) := by
  obtain ⟨letters, digits, hspelled⟩ := spelled_of_parseChars h
  have hzeros : leadingZeros s = (digits.takeWhile (· == '0')).length := by
    rw [leadingZeros, toList_trim, hspelled.filter_isDigit]
  refine ⟨digits, ?_, hspelled.isDigit_of_mem, hspelled.row_eq, hzeros ▸ hspelled.digits_eq⟩
  rw [key, String.toList_ofList, keyChars, hspelled.map_toUpper_filter]

lemma key_eq (h : parse s = .ok c) : key s =
    Column.name c.col ++ String.ofList (List.replicate (leadingZeros s) '0') ++ toString (c.row + 1) := by
  obtain ⟨digits, hkey, -, -, hdigits⟩ := exists_digits h
  rw [← String.toList_inj, hkey, hdigits]
  simp [Column.toList_name]

lemma letters_append_inj {m n : Nat} {ds es : List Char} (hds : ∀ ch ∈ ds, ch.isDigit = true)
    (hes : ∀ ch ∈ es, ch.isDigit = true) :
    Column.letters m ++ ds = Column.letters n ++ es ↔ m = n ∧ ds = es := by
  have htake {k : Nat} {fs : List Char} (hfs : ∀ ch ∈ fs, ch.isDigit = true) :
      (Column.letters k ++ fs).takeWhile Char.isAlpha = Column.letters k :=
    takeWhile_append_eq_iff.mpr ⟨Column.isAlpha_of_mem_letters k, fun ch hch =>
      not_isAlpha_of_isDigit (hfs ch (List.mem_of_mem_head? hch))⟩
  constructor
  · intro h
    have hletters := congrArg (List.takeWhile Char.isAlpha) h
    rw [htake hds, htake hes] at hletters
    obtain rfl := Column.letters_injective hletters
    exact ⟨rfl, List.append_cancel_left h⟩
  · rintro ⟨rfl, rfl⟩
    rfl

lemma key_eq_key_iff (hs : parse s = .ok c) (ht : parse t = .ok d) :
    key s = key t ↔ (c.row = d.row ∧ c.col = d.col) ∧ leadingZeros s = leadingZeros t := by
  obtain ⟨ds, hkey, hds, hrow, hds_eq⟩ := exists_digits hs
  obtain ⟨es, hkey', hes, hrow', hes_eq⟩ := exists_digits ht
  rw [← String.toList_inj, hkey, hkey', letters_append_inj hds hes]
  constructor
  · -- the digits give the row, and their number then gives the zeros
    rintro ⟨hcol, hdigits⟩
    have hrow_eq : c.row = d.row := by
      rw [hdigits, hrow'] at hrow
      omega
    have hlength := congrArg List.length hdigits
    rw [hds_eq, hes_eq, hrow_eq, List.length_append, List.length_append, List.length_replicate,
      List.length_replicate] at hlength
    exact ⟨⟨hrow_eq, hcol⟩, by omega⟩
  · rintro ⟨⟨hrow_eq, hcol⟩, hzeros⟩
    exact ⟨hcol, by rw [hds_eq, hes_eq, hrow_eq, hzeros]⟩

def SameSpelling (s t : String) : Prop :=
  ∃ c d, parse s = .ok c ∧ parse t = .ok d ∧ (c.row = d.row ∧ c.col = d.col) ∧ leadingZeros s = leadingZeros t

lemma key_ne_empty (h : parse s = .ok c) : key s ≠ "" := by
  obtain ⟨digits, hkey, -, -, -⟩ := exists_digits h
  rw [ne_eq, ← String.toList_eq_nil_iff, hkey]
  exact List.append_ne_nil_of_left_ne_nil (Column.letters_ne_nil _) _

end Cell

end FormulaAudit.Address
