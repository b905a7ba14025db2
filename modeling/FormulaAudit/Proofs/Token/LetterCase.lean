import FormulaAudit.Proofs.Token.Coverage

/-!
Scanning does not see the case of ASCII letters: in upper case, a text has the same tokens in the same
places, with their values in upper case.
-/

namespace FormulaAudit

open Text

namespace Lexeme

def upper (l : Lexeme) : Lexeme :=
  ⟨l.kind, l.source.map Char.toUpper, l.value.map Char.toUpper⟩

variable (c : Char) (cs : List Char)

lemma upper_plain (kind : Token.Kind) : (plain kind cs).upper = plain kind (cs.map Char.toUpper) := rfl

lemma joinsComparison_toUpper (d : Char) : joinsComparison c d.toUpper = joinsComparison c d := by
  simp only [joinsComparison, toUpper_beq (d := '=') rfl, toUpper_beq (d := '>') rfl]

lemma comparison_map (hc : c.isAlpha = false) :
    comparison c (cs.map Char.toUpper) = (comparison c cs).upper := by
  cases cs with
  | nil => simp [comparison, upper_plain, toUpper_eq_self hc]
  | cons d cs =>
    simp only [List.map_cons, comparison, joinsComparison_toUpper]
    split <;> simp [upper_plain, toUpper_eq_self hc]

lemma text_map (hc : c.isAlpha = false) : text c (cs.map Char.toUpper) = (text c cs).upper := by
  have hquote := toUpper_bne hc
  simp only [text, takeWhile_map_toUpper (p := (· != c)) hquote,
    dropWhile_map_toUpper (p := (· != c)) hquote, upper, List.map_cons, List.map_append, List.map_take,
    toUpper_eq_self hc]

lemma next_toUpper (s : NumberState) : s.next c.toUpper = s.next c := by
  have hmark : (c.toUpper == 'e' || c.toUpper == 'E') = (c == 'e' || c == 'E') :=
    apply_toUpper (fun c => c == 'e' || c == 'E') (by decide) c
  simp only [NumberState.next, isDigit_toUpper, hmark, toUpper_beq (d := '.') rfl,
    toUpper_beq (d := '+') rfl, toUpper_beq (d := '-') rfl]

lemma numberRun_map (s : NumberState) : numberRun s (cs.map Char.toUpper) = (numberRun s cs).map Char.toUpper := by
  induction cs generalizing s with
  | nil => rfl
  | cons c cs ih =>
    rw [List.map_cons, numberRun, numberRun, next_toUpper]
    split
    · rw [List.map_cons, ih]
    · rfl

lemma isNameChar_toUpper : isNameChar c.toUpper = isNameChar c :=
  apply_toUpper isNameChar (by decide) c

lemma nameKind_map (rest : List Char) :
    nameKind (cs.map Char.toUpper) (rest.map Char.toUpper) = nameKind cs rest := by
  simp only [nameKind, contains_map_toUpper (d := ':') rfl, head?_map_toUpper_beq (d := '(') rfl]

lemma name_map : name c.toUpper (cs.map Char.toUpper) = (name c cs).upper := by
  simp only [name, takeWhile_map_toUpper isNameChar_toUpper, dropWhile_map_toUpper isNameChar_toUpper,
    ← List.map_cons, nameKind_map, upper_plain]

lemma first?_map : first? c.toUpper (cs.map Char.toUpper) = (first? c cs).map upper := by
  have hsingle : singleOperators.contains c.toUpper = singleOperators.contains c :=
    contains_toUpper rfl c
  have hstart : isNameStart c.toUpper = isNameStart c := apply_toUpper isNameStart (by decide) c
  simp only [first?, hsingle, hstart, isDigit_toUpper, toUpper_beq (d := '<') rfl,
    toUpper_beq (d := '>') rfl, toUpper_beq (d := '"') rfl, toUpper_beq (d := '\x27') rfl]
  split
  · rfl
  split
  · next hc =>
    have hletter : c.isAlpha = false := by
      rcases (by simpa using hc : c = '<' ∨ c = '>') with rfl | rfl <;> rfl
    rw [toUpper_eq_self hletter, comparison_map c cs hletter]
    rfl
  split
  · next hc =>
    have hletter : c.isAlpha = false := by
      rcases (by simpa using hc : c = '"' ∨ c = '\x27') with rfl | rfl <;> rfl
    rw [toUpper_eq_self hletter, text_map c cs hletter]
    rfl
  split
  · rw [number, numberRun_map]
    rfl
  split
  · rw [name_map]
    rfl
  · rfl

end Lexeme

namespace Token

def mapValue (f : String → String) (t : Token) : Token :=
  { t with value := f t.value }

lemma kind_mapValue (f : String → String) (t : Token) : (t.mapValue f).kind = t.kind := rfl

lemma value_mapValue (f : String → String) (t : Token) : (t.mapValue f).value = f t.value := rfl

lemma byteSize_map_toUpper (cs : List Char) : byteSize (cs.map Char.toUpper) = byteSize cs := by
  induction cs with
  | nil => rfl
  | cons c cs ih => rw [List.map_cons, byteSize, byteSize, utf8Size_toUpper, ih]

lemma scanFrom_map_toUpper (pos : Nat) (cs : List Char) :
    scanFrom pos (cs.map Char.toUpper) = (scanFrom pos cs).map (mapValue Text.upper) := by
  fun_induction scanFrom pos cs with
  | case1 => simp [scanFrom]
  | case2 pos c cs hnone ih =>
    rw [List.map_cons, scanFrom, Lexeme.first?_map, hnone, Option.map_none, utf8Size_toUpper, ih]
  | case3 pos c cs l hsome stop ih =>
    rw [List.map_cons, scanFrom, Lexeme.first?_map, hsome]
    simp only [Option.map_some, Lexeme.upper, byteSize_map_toUpper, List.length_map, ← List.map_drop,
      List.map_cons]
    rw [← ih]
    simp [mapValue, Text.upper, stop]

lemma scan_upper (s : String) : scan (Text.upper s) = (scan s).map (mapValue Text.upper) := by
  rw [scan, toList_upper, scanFrom_map_toUpper, scan]

end Token

end FormulaAudit
