import FormulaAudit.Address.Column
import FormulaAudit.Proofs.Text.Characters
import Mathlib.Data.List.Induction
import Mathlib.Data.List.Shortlex
import Mathlib.Data.Nat.Digits.Defs

/-!
Column names are the numerals of base 26 with the digits 1 to 26. Reading and writing them undo each
other, a name beyond the last column is never taken for a column, and names grow with their columns.
-/

namespace FormulaAudit.Address.Column

open Text

def value (letters : List Char) : Nat :=
  Nat.ofDigits 26 (letters.map digit).reverse

@[simp] lemma value_nil : value [] = 0 := rfl

@[simp] lemma value_append_singleton (cs : List Char) (c : Char) : value (cs ++ [c]) = value cs * 26 + digit c := by
  simp [value, Nat.ofDigits_cons, Nat.mul_comm, Nat.add_comm]

lemma digit_pos (c : Char) : 0 < digit c :=
  Nat.succ_pos _

lemma value_pos {cs : List Char} (h : cs ≠ []) : 0 < value cs := by
  rw [← List.dropLast_append_getLast h, value_append_singleton]
  exact Nat.add_pos_right _ (digit_pos _)

lemma number_eq_min (cs : List Char) : number cs = min (value cs) indexCap := by
  induction cs using List.reverseRecOn with
  | nil => rfl
  | append_singleton cs c ih =>
    have hstep : number (cs ++ [c]) = min (number cs * 26 + digit c) indexCap := by
      simp [number, List.foldl_append]
    rw [hstep, ih, value_append_singleton]
    omega

section Letters

variable {n : Nat} {c : Char} {cs : List Char}

lemma letters_of_lt (h : n < 26) : letters n = [letter n] := by
  rw [letters, if_pos h]

lemma letters_of_le (h : 26 ≤ n) : letters n = letters (n / 26 - 1) ++ [letter (n % 26)] := by
  rw [letters, if_neg (Nat.not_lt.mpr h)]

lemma digit_letter (h : n < 26) : digit (letter n) = n + 1 := by
  revert n
  decide

lemma isAlpha_letter (h : n < 26) : (letter n).isAlpha = true := by
  revert n
  decide

lemma digit_le (h : c.isAlpha = true) : digit c ≤ 26 :=
  forall_alpha (P := fun c => digit c ≤ 26) (by decide) h

lemma letter_digit (h : c.isAlpha = true) : letter (digit c - 1) = c.toUpper :=
  forall_alpha (P := fun c => letter (digit c - 1) = c.toUpper) (by decide) h

lemma digit_toUpper (c : Char) : digit c.toUpper = digit c := by
  rw [digit, Char.toUpper_toUpper_eq_toUpper, digit]

lemma value_map_toUpper (cs : List Char) : value (cs.map Char.toUpper) = value cs := by
  have hcomp : digit ∘ Char.toUpper = digit := funext digit_toUpper
  rw [value, List.map_map, hcomp, value]

lemma letters_ne_nil (n : Nat) : letters n ≠ [] := by
  rw [letters]
  split <;> simp

lemma isAlpha_of_mem_letters (n : Nat) : ∀ c ∈ letters n, c.isAlpha = true := by
  fun_induction letters n with
  | case1 n hn => simpa using isAlpha_letter hn
  | case2 n _ ih =>
    intro c hc
    rcases List.mem_append.mp hc with hc | hc
    · exact ih c hc
    · obtain rfl : c = letter (n % 26) := by simpa using hc
      exact isAlpha_letter (Nat.mod_lt n (by decide))

lemma value_letters (n : Nat) : value (letters n) = n + 1 := by
  fun_induction letters n with
  | case1 n hn => simpa [value] using digit_letter hn
  | case2 n hn ih =>
    rw [value_append_singleton, ih, digit_letter (Nat.mod_lt n (by decide))]
    omega

lemma letters_injective : Function.Injective letters := by
  intro m n h
  have hvalue := congrArg value h
  rw [value_letters, value_letters] at hvalue
  exact Nat.succ.inj hvalue

lemma map_toUpper_eq_letters (hne : cs ≠ []) (hcs : ∀ c ∈ cs, c.isAlpha = true) :
    cs.map Char.toUpper = letters (value cs - 1) := by
  induction cs using List.reverseRecOn with
  | nil => exact absurd rfl hne
  | append_singleton cs c ih =>
    have hc : c.isAlpha = true := hcs c (by simp)
    have hle := digit_le hc
    have hpos := digit_pos c
    rw [List.map_append, List.map_singleton, value_append_singleton]
    by_cases hnil : cs = []
    · subst hnil
      rw [value_nil, letters_of_lt (by omega), Nat.zero_mul, Nat.zero_add, letter_digit hc]
      rfl
    · have hvalue := value_pos hnil
      have hhigh : (value cs * 26 + digit c - 1) / 26 = value cs := by omega
      have hlow : (value cs * 26 + digit c - 1) % 26 = digit c - 1 := by omega
      rw [letters_of_le (by omega), hhigh, hlow, letter_digit hc, ih hnil fun d hd => hcs d (by simp [hd])]

lemma map_toUpper_eq_letters_iff (hne : cs ≠ []) (hcs : ∀ c ∈ cs, c.isAlpha = true) :
    cs.map Char.toUpper = letters n ↔ value cs = n + 1 := by
  constructor
  · intro h
    rw [← value_map_toUpper, h, value_letters]
  · intro h
    rw [map_toUpper_eq_letters hne hcs, h, Nat.add_sub_cancel]

end Letters

section Reading

variable {n : Nat} {cs : List Char}

lemma index_of_letters (hne : cs ≠ []) (hcs : ∀ c ∈ cs, c.isAlpha = true) :
    index cs = if value cs ≤ maxColumns then .ok (value cs - 1)
      else .error (.columnOutOfBounds (min (value cs) indexCap - 1)) := by
  have hnot : (cs.isEmpty || !cs.all Char.isAlpha) = false := by simpa [hne] using hcs
  have hlimit : maxColumns < indexCap := by decide
  rw [index, hnot, number_eq_min]
  simp only [Bool.false_eq_true, if_false]
  by_cases hvalue : value cs ≤ maxColumns
  · have hcut : min (value cs) indexCap = value cs := by omega
    rw [hcut]
  · have hcut : ¬ min (value cs) indexCap ≤ maxColumns := by omega
    rw [if_neg hcut, if_neg hvalue]

lemma letters_of_index (h : index cs = .ok n) : cs ≠ [] ∧ ∀ c ∈ cs, c.isAlpha = true := by
  unfold index at h
  split at h
  · simp at h
  · next hnot => simpa using hnot

lemma index_eq_ok_iff : index cs = .ok n ↔
    cs ≠ [] ∧ (∀ c ∈ cs, c.isAlpha = true) ∧ value cs = n + 1 ∧ n < maxColumns := by
  constructor
  · intro h
    obtain ⟨hne, hcs⟩ := letters_of_index h
    have hpos := value_pos hne
    rw [index_of_letters hne hcs] at h
    split at h
    · obtain rfl := Except.ok.inj h
      exact ⟨hne, hcs, by omega, by omega⟩
    · simp at h
  · rintro ⟨hne, hcs, hvalue, hn⟩
    rw [index_of_letters hne hcs, if_pos (by omega), hvalue, Nat.add_sub_cancel]

end Reading

section Order

lemma shortlex_append_singleton {cs ds : List Char} (h : List.Shortlex (· < ·) cs ds) (c d : Char) :
    List.Shortlex (· < ·) (cs ++ [c]) (ds ++ [d]) := by
  rcases List.shortlex_def.mp h with hlength | ⟨hlength, hlex⟩
  · exact .of_length_lt (by simpa using hlength)
  · refine .of_lex (by simpa using hlength) ?_
    clear h
    induction hlex with
    | nil => simp at hlength
    | cons _ ih => exact .cons (ih (by simpa using hlength))
    | rel hlt => exact .rel hlt

lemma letter_lt_letter {m n : Nat} (h : m < n) (hn : n < 26) : letter m < letter n := by
  revert m
  revert n
  decide

lemma letters_shortlex {m n : Nat} (h : m < n) : List.Shortlex (· < ·) (letters m) (letters n) := by
  induction n using Nat.strong_induction_on generalizing m with
  | h n ih =>
    by_cases hn : n < 26
    · rw [letters_of_lt hn, letters_of_lt (h.trans hn), List.shortlex_singleton_iff]
      exact letter_lt_letter h hn
    · rw [letters_of_le (Nat.not_lt.mp hn)]
      by_cases hm : m < 26
      · rw [letters_of_lt hm]
        apply List.Shortlex.of_length_lt
        simpa [List.length_pos_iff] using letters_ne_nil (n / 26 - 1)
      · -- the letters in front decide, or else the last letters do
        rw [letters_of_le (Nat.not_lt.mp hm)]
        rcases Nat.lt_or_eq_of_le (Nat.div_le_div_right (c := 26) h.le) with hlt | heq
        · exact shortlex_append_singleton (ih _ (by omega) (by omega)) _ _
        · rw [heq]
          apply List.Shortlex.append_left
          rw [List.shortlex_singleton_iff]
          exact letter_lt_letter (by omega) (Nat.mod_lt _ (by decide))

end Order

lemma toList_name (n : Nat) : (name n).toList = letters n := by
  simp [name]

lemma upper_eq_name_iff {s : String} {n : Nat} (hne : s ≠ "") (hs : ∀ c ∈ s.toList, c.isAlpha = true) :
    upper s = name n ↔ value s.toList = n + 1 := by
  rw [← String.toList_inj, toList_upper, toList_name]
  exact map_toUpper_eq_letters_iff (by simpa using hne) hs

theorem index_eq_ok_iff_name :
    (∀ (s : String) (n : Nat), index s.toList = .ok n ↔
      s ≠ "" ∧ (∀ c ∈ s.toList, c.isAlpha = true) ∧ upper s = name n ∧ n < maxColumns) ∧
    (∀ s : String, s ≠ "" → (∀ c ∈ s.toList, c.isAlpha = true) → (¬ ∃ n < maxColumns, upper s = name n) →
      index s.toList = .error (.columnOutOfBounds (min (value s.toList) (2 ^ 32 - 1) - 1))) ∧
    Function.Injective name ∧
    ∀ m n, m < n → List.Shortlex (· < ·) (name m).toList (name n).toList := by
  refine ⟨fun s n => ?_, fun s hne hs hout => ?_, fun m n h => ?_, fun m n h => ?_⟩
  · rw [index_eq_ok_iff, ne_eq, String.toList_eq_nil_iff]
    refine and_congr_right fun hne => and_congr_right fun hs => and_congr_left fun _ => ?_
    exact (upper_eq_name_iff hne hs).symm
  · have hne' : s.toList ≠ [] := by simpa using hne
    have hpos := value_pos hne'
    have hvalue : ¬ value s.toList ≤ maxColumns := fun hle =>
      hout ⟨value s.toList - 1, by omega, (upper_eq_name_iff hne hs).mpr (by omega)⟩
    rw [index_of_letters hne' hs, if_neg hvalue]
    rfl
  · apply letters_injective
    rw [← toList_name, ← toList_name, h]
  · rw [toList_name, toList_name]
    exact letters_shortlex h

theorem index_eq_ok_iff_name_beyond :
    (¬ ∃ n < maxColumns, upper "qQQQQQQQQQQQ" = name n) ∧
      index "qQQQQQQQQQQQ".toList = .error (.columnOutOfBounds 4294967294) ∧
      List.Shortlex (· < ·) (name 25).toList (name 26).toList := by
  have hne : "qQQQQQQQQQQQ" ≠ "" := by decide
  have hs : ∀ c ∈ "qQQQQQQQQQQQ".toList, c.isAlpha = true := by simp [Char.isAlpha]
  have hvalue : value "qQQQQQQQQQQQ".toList = 64891690529943879 := by decide
  have hout : ¬ ∃ n < maxColumns, upper "qQQQQQQQQQQQ" = name n := by
    rintro ⟨n, hn, h⟩
    rw [upper_eq_name_iff hne hs, hvalue] at h
    simp only [maxColumns] at hn
    omega
  obtain ⟨-, herror, -, horder⟩ := index_eq_ok_iff_name
  refine ⟨hout, ?_, horder 25 26 (by decide)⟩
  have := herror _ hne hs hout
  rwa [hvalue] at this

end FormulaAudit.Address.Column
