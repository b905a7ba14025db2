import FormulaAudit.Text.Blank
import FormulaAudit.Text.Case
import Mathlib

/-! Letter case and white space. -/

namespace FormulaAudit.Text

lemma forall_char {P : Char → Prop} (hascii : ∀ n < 128, P (Char.ofNat n))
    (hother : ∀ c : Char, 128 ≤ c.toNat → P c) (c : Char) : P c := by
  by_cases h : c.toNat < 128
  · have hc := hascii c.toNat h
    rwa [Char.ofNat_toNat] at hc
  · exact hother c (Nat.le_of_not_lt h)

section Ascii

variable {p : Char → Bool} {P : Char → Prop} {c : Char}

lemma forall_of_lt (hlt : c.toNat < 128) (h : ∀ n < 128, p (Char.ofNat n) = true → P (Char.ofNat n))
    (hc : p c = true) : P c := by
  have hp := h c.toNat hlt
  rw [Char.ofNat_toNat] at hp
  exact hp hc

lemma forall_alpha (h : ∀ n < 128, (Char.ofNat n).isAlpha = true → P (Char.ofNat n))
    (hc : c.isAlpha = true) : P c := by
  apply forall_of_lt _ h hc
  rw [Char.isAlpha, Char.isUpper, Char.isLower] at hc
  simp only [Bool.or_eq_true, Bool.and_eq_true, decide_eq_true_eq, UInt32.le_iff_toNat_le, ge_iff_le] at hc
  simp at hc
  omega

lemma forall_digit (h : ∀ n < 128, (Char.ofNat n).isDigit = true → P (Char.ofNat n))
    (hc : c.isDigit = true) : P c := by
  apply forall_of_lt _ h hc
  exact Nat.lt_of_le_of_lt (Char.isDigit_iff_toNat.mp hc).2 (by decide)

end Ascii

lemma not_isBlank_of_isAlpha {c : Char} (h : c.isAlpha = true) : isBlank c = false :=
  forall_alpha (P := fun c => isBlank c = false) (by decide) h

lemma not_isBlank_of_isDigit {c : Char} (h : c.isDigit = true) : isBlank c = false :=
  forall_digit (P := fun c => isBlank c = false) (by decide) h

lemma not_isAlpha_of_isDigit {c : Char} (h : c.isDigit = true) : c.isAlpha = false :=
  forall_digit (P := fun c => c.isAlpha = false) (by decide) h

lemma toUpper_eq_self {c : Char} (h : c.isAlpha = false) : c.toUpper = c := by
  rw [Char.isAlpha, Bool.or_eq_false_iff] at h
  exact Char.toUpper_eq_of_not_isLower (by simp [h.2])

lemma isAlpha_of_not_ascii {c : Char} (h : 128 ≤ c.toNat) : c.isAlpha = false := by
  refine Bool.eq_false_iff.mpr fun hc => ?_
  have hlt : c.toNat < 128 := forall_alpha (P := fun c => c.toNat < 128) (by decide) hc
  omega

section Case

variable {c d : Char}

lemma apply_toUpper {β : Type} (f : Char → β)
    (h : ∀ n < 128, f ((Char.ofNat n).toUpper) = f (Char.ofNat n)) (c : Char) : f c.toUpper = f c := by
  revert c
  refine forall_char h fun c hc => ?_
  rw [toUpper_eq_self (isAlpha_of_not_ascii hc)]

lemma isBlank_toUpper (c : Char) : isBlank c.toUpper = isBlank c :=
  apply_toUpper isBlank (by decide) c

lemma isDigit_toUpper (c : Char) : c.toUpper.isDigit = c.isDigit :=
  apply_toUpper Char.isDigit (by decide) c

lemma utf8Size_toUpper (c : Char) : c.toUpper.utf8Size = c.utf8Size :=
  apply_toUpper Char.utf8Size (by decide) c

lemma toUpper_eq_iff (hd : d.isAlpha = false) : c.toUpper = d ↔ c = d := by
  constructor
  · rintro rfl
    rw [Char.isAlpha_toUpper_eq_isAlpha] at hd
    exact (toUpper_eq_self hd).symm
  · rintro rfl
    exact toUpper_eq_self hd

lemma toUpper_eq_dollar (c : Char) : c.toUpper = '$' ↔ c = '$' :=
  toUpper_eq_iff rfl

lemma map_toUpper_of_isDigit {ds : List Char} (h : ∀ c ∈ ds, c.isDigit = true) : ds.map Char.toUpper = ds := by
  refine (List.map_congr_left fun c hc => ?_).trans (List.map_id ds)
  exact toUpper_eq_self (not_isAlpha_of_isDigit (h c hc))

lemma toUpper_beq (hd : d.isAlpha = false) (c : Char) : (c.toUpper == d) = (c == d) := by
  rw [Bool.eq_iff_iff, beq_iff_eq, beq_iff_eq, toUpper_eq_iff hd]

lemma toUpper_bne (hd : d.isAlpha = false) (c : Char) : (c.toUpper != d) = (c != d) :=
  congrArg not (toUpper_beq hd c)

lemma contains_toUpper {ds : List Char} (h : ds.all (!·.isAlpha) = true) (c : Char) :
    ds.contains c.toUpper = ds.contains c := by
  induction ds with
  | nil => rfl
  | cons d ds ih =>
    rw [List.all_cons, Bool.and_eq_true, Bool.not_eq_true'] at h
    rw [List.contains_cons, List.contains_cons, toUpper_beq h.1, ih h.2]

lemma contains_map_toUpper (hd : d.isAlpha = false) (cs : List Char) :
    (cs.map Char.toUpper).contains d = cs.contains d := by
  rw [Bool.eq_iff_iff, List.contains_iff_mem, List.contains_iff_mem, List.mem_map]
  simp [toUpper_eq_iff hd]

lemma head?_map_toUpper_beq (hd : d.isAlpha = false) (cs : List Char) :
    ((cs.map Char.toUpper).head? == some d) = (cs.head? == some d) := by
  cases cs with
  | nil => rfl
  | cons c cs => exact toUpper_beq hd c

lemma map_toUpper_eq_iff {cs ds : List Char} (h : ds.all (!·.isAlpha) = true) :
    cs.map Char.toUpper = ds ↔ cs = ds := by
  induction ds generalizing cs with
  | nil => simp
  | cons d ds ih =>
    rw [List.all_cons, Bool.and_eq_true, Bool.not_eq_true'] at h
    cases cs with
    | nil => simp
    | cons c cs => rw [List.map_cons, List.cons.injEq, List.cons.injEq, toUpper_eq_iff h.1, ih h.2]

lemma upper_eq_iff {v w : String} (h : w.toList.all (!·.isAlpha) = true) : upper v = w ↔ v = w := by
  rw [← String.toList_inj, toList_upper, map_toUpper_eq_iff h, String.toList_inj]

lemma upper_upper (s : String) : upper (upper s) = upper s := by
  have hidem : Char.toUpper ∘ Char.toUpper = Char.toUpper := funext Char.toUpper_toUpper_eq_toUpper
  rw [upper, toList_upper, List.map_map, hidem, upper]

section While

variable {p : Char → Bool} (hp : ∀ c, p c.toUpper = p c)
include hp

lemma takeWhile_map_toUpper (cs : List Char) :
    (cs.map Char.toUpper).takeWhile p = (cs.takeWhile p).map Char.toUpper := by
  have hcomp : p ∘ Char.toUpper = p := funext hp
  rw [List.takeWhile_map, hcomp]

lemma dropWhile_map_toUpper (cs : List Char) :
    (cs.map Char.toUpper).dropWhile p = (cs.dropWhile p).map Char.toUpper := by
  have hcomp : p ∘ Char.toUpper = p := funext hp
  rw [List.dropWhile_map, hcomp]

end While

lemma trimChars_map_toUpper (cs : List Char) :
    trimChars (cs.map Char.toUpper) = (trimChars cs).map Char.toUpper := by
  simp only [trimChars, trimStart, trimEnd, dropWhile_map_toUpper isBlank_toUpper, ← List.map_reverse]

end Case

lemma dropWhile_isBlank_eq_self {cs : List Char} (h : ∀ c ∈ cs, isBlank c = false) :
    cs.dropWhile isBlank = cs := by
  cases cs with
  | nil => rfl
  | cons c cs => simp [h c (by simp)]

lemma trimEnd_eq_self {cs : List Char} (h : ∀ c ∈ cs, isBlank c = false) : trimEnd cs = cs := by
  have hreverse : ∀ c ∈ cs.reverse, isBlank c = false := fun c hc => h c (List.mem_reverse.mp hc)
  rw [trimEnd, dropWhile_isBlank_eq_self hreverse, List.reverse_reverse]

lemma trimChars_eq_self {cs : List Char} (h : ∀ c ∈ cs, isBlank c = false) : trimChars cs = cs := by
  rw [trimChars, trimStart, dropWhile_isBlank_eq_self h, trimEnd_eq_self h]

lemma trimChars_eq_nil_iff {cs : List Char} : trimChars cs = [] ↔ ∀ c ∈ cs, isBlank c = true := by
  rw [trimChars, trimEnd, trimStart, List.reverse_eq_nil_iff, List.dropWhile_eq_nil_iff]
  constructor
  · intro h c hc
    rw [← List.takeWhile_append_dropWhile (p := isBlank) (l := cs)] at hc
    rcases List.mem_append.mp hc with hc | hc
    · exact List.mem_takeWhile_imp hc
    · exact h c (List.mem_reverse.mpr hc)
  · exact fun h c hc => h c ((List.dropWhile_sublist _).subset (List.mem_reverse.mp hc))

section Trim

variable {c : Char} {cs rest : List Char}

lemma trimStart_subset (cs : List Char) : trimStart cs ⊆ cs :=
  (List.dropWhile_sublist isBlank).subset

lemma trimEnd_subset (cs : List Char) : trimEnd cs ⊆ cs := by
  intro c hc
  rw [trimEnd, List.mem_reverse] at hc
  exact List.mem_reverse.mp ((List.dropWhile_sublist isBlank).subset hc)

lemma trimChars_subset (cs : List Char) : trimChars cs ⊆ cs :=
  fun _ hc => trimStart_subset cs (trimEnd_subset _ hc)

lemma trimStart_append (hc : isBlank c = false) : trimStart (cs ++ c :: rest) = trimStart cs ++ c :: rest := by
  simp only [trimStart, List.dropWhile_append]
  split <;> simp_all

lemma trimEnd_append (hc : isBlank c = false) : trimEnd (cs ++ c :: rest) = cs ++ c :: trimEnd rest := by
  have hreverse : (cs ++ c :: rest).reverse = rest.reverse ++ c :: cs.reverse := by simp
  have hstart : (rest.reverse ++ c :: cs.reverse).dropWhile isBlank =
      rest.reverse.dropWhile isBlank ++ c :: cs.reverse := trimStart_append hc
  rw [trimEnd, hreverse, hstart, trimEnd]
  simp

lemma trimChars_append (hc : isBlank c = false) :
    trimChars (cs ++ c :: rest) = trimStart cs ++ c :: trimEnd rest := by
  rw [trimChars, trimStart_append hc, trimEnd_append hc]

lemma mem_trimChars (hc : isBlank c = false) (h : c ∈ cs) : c ∈ trimChars cs := by
  obtain ⟨before, after, rfl⟩ := List.append_of_mem h
  rw [trimChars_append hc]
  simp

lemma trimChars_trimStart (cs : List Char) : trimChars (trimStart cs) = trimChars cs := by
  rw [trimChars, trimStart, trimStart, List.dropWhile_idempotent, trimChars, trimStart]

lemma trimChars_trimEnd (cs : List Char) : trimChars (trimEnd cs) = trimChars cs := by
  by_cases h : ∀ c ∈ cs, isBlank c = true
  · have hend : ∀ c ∈ trimEnd cs, isBlank c = true := fun c hc => h c (trimEnd_subset cs hc)
    rw [trimChars_eq_nil_iff.mpr hend, trimChars_eq_nil_iff.mpr h]
  · obtain ⟨c, hmem, hc⟩ : ∃ c ∈ cs, isBlank c = false := by simpa using h
    obtain ⟨before, after, rfl⟩ := List.append_of_mem hmem
    have hidem : trimEnd (trimEnd after) = trimEnd after := List.rdropWhile_idempotent isBlank after
    rw [trimEnd_append hc, trimChars_append hc, trimChars_append hc, hidem]

end Trim

lemma allBlank_iff {s : String} : allBlank s = true ↔ trim s = "" := by
  rw [allBlank, List.all_eq_true, ← trimChars_eq_nil_iff, trim, String.ofList_eq_empty_iff]

section TakeWhile

variable {p : Char → Bool} {cs rest : List Char}

lemma takeWhile_append_eq_iff : (cs ++ rest).takeWhile p = cs ↔
    (∀ c ∈ cs, p c = true) ∧ ∀ d ∈ rest.head?, p d = false := by
  induction cs with
  | nil => cases rest <;> simp [List.takeWhile_cons]
  | cons c cs ih =>
    rw [List.cons_append, List.takeWhile_cons]
    by_cases hc : p c = true <;> simp [hc, ih]

lemma dropWhile_append_eq (h : (cs ++ rest).takeWhile p = cs) : (cs ++ rest).dropWhile p = rest := by
  have happend := List.takeWhile_append_dropWhile (p := p) (l := cs ++ rest)
  rw [h] at happend
  exact List.append_cancel_left happend

lemma takeWhile_ne_append {c : Char} (h : c ∉ cs) (hrest : ∀ d ∈ rest.head?, d = c) :
    (cs ++ rest).takeWhile (· != c) = cs := by
  rw [takeWhile_append_eq_iff]
  refine ⟨fun d hd => ?_, fun d hd => ?_⟩
  · simpa using fun heq : d = c => h (heq ▸ hd)
  · simpa using hrest d hd

end TakeWhile

end FormulaAudit.Text
