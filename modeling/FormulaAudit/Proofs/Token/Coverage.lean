import FormulaAudit.Proofs.Token.Longest
import Mathlib.Data.List.Basic

/-!
The tokens of a text are its longest lexemes, from left to right. Every character belongs to one of
them or starts none.
-/

namespace FormulaAudit.Token

open Lexeme (Longest Spells IsNameKind isStart isQuote)

@[simp] lemma byteSize_nil : byteSize [] = 0 := rfl

@[simp] lemma byteSize_cons (c : Char) (cs : List Char) : byteSize (c :: cs) = c.utf8Size + byteSize cs := rfl

@[simp] lemma byteSize_append (cs ds : List Char) : byteSize (cs ++ ds) = byteSize cs + byteSize ds := by
  induction cs with
  | nil => simp
  | cons c cs ih => simp [ih, Nat.add_assoc]

lemma byteSize_eq_utf8ByteSize (cs : List Char) : byteSize cs = (String.ofList cs).utf8ByteSize := by
  induction cs with
  | nil => simp
  | cons c cs ih =>
    have hcons : String.ofList (c :: cs) = String.singleton c ++ String.ofList cs := by
      rw [String.singleton_eq_ofList, ← String.ofList_append]
      rfl
    rw [byteSize_cons, ih, hcons, String.utf8ByteSize_append, String.utf8ByteSize_singleton]

lemma byteSize_pos {cs : List Char} (h : cs ≠ []) : 0 < byteSize cs := by
  obtain ⟨c, cs, rfl⟩ := List.exists_cons_of_ne_nil h
  have := c.utf8Size_pos
  simp only [byteSize_cons]
  omega

inductive Scans : Nat → List Char → List Token → Prop
  | nil (pos : Nat) : Scans pos [] []
  | skip {pos : Nat} {c : Char} {cs : List Char} {ts : List Token} : isStart c = false →
      Scans (pos + c.utf8Size) cs ts → Scans pos (c :: cs) ts
  | token {pos : Nat} {l : Lexeme} {rest : List Char} {ts : List Token} : Longest l rest →
      Scans (pos + byteSize l.source) rest ts →
      Scans pos (l.source ++ rest) (⟨l.kind, .ofList l.value, pos, pos + byteSize l.source⟩ :: ts)

lemma drop_source {l : Lexeme} {c : Char} {cs rest : List Char} (hl : l.source ≠ [])
    (h : c :: cs = l.source ++ rest) : cs.drop (l.source.length - 1) = rest := by
  obtain ⟨d, ds, hds⟩ := List.exists_cons_of_ne_nil hl
  rw [hds] at h ⊢
  obtain ⟨rfl, rfl⟩ : c = d ∧ cs = ds ++ rest := by simpa using h
  simp

lemma scans_scanFrom (pos : Nat) (cs : List Char) : Scans pos cs (scanFrom pos cs) := by
  fun_induction scanFrom pos cs with
  | case1 pos => exact .nil pos
  | case2 pos c cs h ih => exact .skip (Lexeme.first?_eq_none_iff.mp h) ih
  | case3 pos c cs l h stop ih =>
    obtain ⟨rest, happend, hl⟩ := Lexeme.first?_eq_some_iff.mp h
    rw [drop_source hl.spells.source_ne_nil happend] at ih ⊢
    rw [happend]
    exact .token hl ih

namespace Scans

variable {pos : Nat} {cs : List Char} {ts : List Token}

lemma eq_scanFrom (h : Scans pos cs ts) : scanFrom pos cs = ts := by
  induction h with
  | nil pos => rw [scanFrom]
  | skip hc _ ih => rw [scanFrom, Lexeme.first?_eq_none_iff.mpr hc, ih]
  | @token pos l rest ts hl _ ih =>
    have hne := hl.spells.source_ne_nil
    obtain ⟨c, cs, hcs⟩ := List.exists_cons_of_ne_nil (l := l.source ++ rest) (by simp [hne])
    rw [hcs, scanFrom, Lexeme.first?_eq_some_iff.mpr ⟨rest, hcs.symm, hl⟩]
    simp only
    rw [drop_source hne hcs.symm, ih]

lemma exists_longest (h : Scans pos cs ts) {t : Token} (ht : t ∈ ts) :
    ∃ before l after, cs = before ++ l.source ++ after ∧ Longest l after ∧
      t = ⟨l.kind, .ofList l.value, pos + byteSize before, pos + byteSize before + byteSize l.source⟩ := by
  induction h with
  | nil => simp at ht
  | @skip pos c cs ts _ _ ih =>
    obtain ⟨before, l, after, rfl, hl, rfl⟩ := ih ht
    exact ⟨c :: before, l, after, by simp, hl, by simp [Nat.add_assoc]⟩
  | @token pos l rest ts hl _ ih =>
    rcases List.mem_cons.mp ht with rfl | ht
    · exact ⟨[], l, rest, rfl, hl, rfl⟩
    · obtain ⟨before, l', after, rfl, hl', rfl⟩ := ih ht
      exact ⟨l.source ++ before, l', after, by simp, hl', by simp [Nat.add_assoc]⟩

lemma le_start (h : Scans pos cs ts) {t : Token} (ht : t ∈ ts) : pos ≤ t.start := by
  obtain ⟨before, l, after, -, -, rfl⟩ := h.exists_longest ht
  exact Nat.le_add_right _ _

lemma pairwise (h : Scans pos cs ts) : ts.Pairwise fun t u => t.stop ≤ u.start := by
  induction h with
  | nil => exact .nil
  | skip _ _ ih => exact ih
  | token _ hs ih => exact .cons (fun u hu => hs.le_start hu) ih

lemma nodup (h : Scans pos cs ts) : ts.Nodup := by
  refine h.pairwise.imp_of_mem fun {t u} ht _ hle => ?_
  rintro rfl
  obtain ⟨before, l, after, -, hl, rfl⟩ := h.exists_longest ht
  have := byteSize_pos hl.spells.source_ne_nil
  simp only at hle
  omega

lemma covers_or_skips (h : Scans pos cs ts) {before after : List Char} {c : Char}
    (hc : cs = before ++ c :: after) :
    (∃ t ∈ ts, t.start ≤ pos + byteSize before ∧ pos + byteSize before < t.stop) ∨ isStart c = false := by
  induction h generalizing before with
  | nil => simp at hc
  | @skip pos d cs ts hd _ ih =>
    cases before with
    | nil =>
      obtain ⟨rfl, -⟩ := List.cons.inj hc
      exact .inr hd
    | cons e before =>
      obtain ⟨rfl, hcs⟩ := List.cons.inj hc
      simpa [Nat.add_assoc] using ih hcs
  | @token pos l rest ts hl _ ih =>
    -- the character stands behind the token or in it
    rcases List.append_eq_append_iff.mp hc with ⟨before', rfl, hrest⟩ | ⟨source', hsource, hafter⟩
    · rcases ih hrest with ⟨t, ht, hspan⟩ | hskip
      · refine .inl ⟨t, List.mem_cons_of_mem _ ht, ?_⟩
        simpa [Nat.add_assoc] using hspan
      · exact .inr hskip
    · cases source' with
      | nil =>
        rw [List.append_nil] at hsource
        subst hsource
        have hrest : rest = [] ++ c :: after := by simpa using hafter.symm
        rcases ih hrest with ⟨t, ht, hspan⟩ | hskip
        · exact .inl ⟨t, List.mem_cons_of_mem _ ht, by simpa using hspan⟩
        · exact .inr hskip
      | cons d source' =>
        refine .inl ⟨_, List.mem_cons_self, Nat.le_add_right _ _, ?_⟩
        have := d.utf8Size_pos
        simp only [hsource, byteSize_append, byteSize_cons]
        omega

lemma next_of_function (h : Scans pos cs ts) {f : Token} {before after : List Token}
    (hts : ts = before ++ f :: after) (hf : f.kind = .function) :
    ∃ rest, after = ⟨.operator, "(", f.stop, f.stop + 1⟩ :: rest := by
  induction h generalizing before with
  | nil => simp at hts
  | skip _ _ ih => exact ih hts
  | @token pos l rest ts hl hs ih =>
    cases before with
    | nil =>
      obtain ⟨rfl, rfl⟩ := List.cons.inj hts
      obtain ⟨rest, rfl⟩ := hl.rest_of_function hf
      exact ⟨_, hs.eq_scanFrom.symm.trans (scanFrom_paren _ rest)⟩
    | cons t before =>
      obtain ⟨-, hts⟩ := List.cons.inj hts
      exact ih hts

end Scans

structure Covers (s : String) (t : Token) (before source after : String) : Prop where
  append_eq : s = before ++ source ++ after
  start_eq : t.start = before.utf8ByteSize
  stop_eq : t.stop = (before ++ source).utf8ByteSize
  start_lt_stop : t.start < t.stop
  stop_le : t.stop ≤ s.utf8ByteSize
  value_eq : t.kind ≠ .text → t.value = source
  literal : t.kind = .text → ∃ q, isQuote q = true ∧ q ∉ t.value.toList ∧
    (source.toList = q :: (t.value.toList ++ [q]) ∨ source.toList = q :: t.value.toList ∧ after = "")
  spells : Spells t.kind source.toList t.value.toList
  maximal : ∀ d ∈ after.toList.head?, ∀ value, ¬ Spells t.kind (source.toList ++ [d]) value
  rangeRef_iff : IsNameKind t.kind → (t.kind = .rangeRef ↔ ':' ∈ source.toList)
  function_iff : IsNameKind t.kind →
    (t.kind = .function ↔ ':' ∉ source.toList ∧ after.toList.head? = some '(')

lemma covers_of_longest {before after : List Char} {l : Lexeme} (h : Longest l after) :
    Covers (.ofList before ++ .ofList l.source ++ .ofList after)
      ⟨l.kind, .ofList l.value, byteSize before, byteSize before + byteSize l.source⟩
      (.ofList before) (.ofList l.source) (.ofList after) where
  append_eq := rfl
  start_eq := byteSize_eq_utf8ByteSize before
  stop_eq := by simp [byteSize_eq_utf8ByteSize]
  start_lt_stop := Nat.lt_add_of_pos_right (byteSize_pos h.spells.source_ne_nil)
  stop_le := by simp [byteSize_eq_utf8ByteSize]
  value_eq hk := by
    obtain ⟨kind, source, value⟩ := l
    simp only at hk
    have hs := h.spells
    simp only at hs
    cases hs with
    | number | operator | name => rfl
    | literal | unclosed => simp at hk
  literal hk := by
    obtain ⟨kind, source, value⟩ := l
    simp only at hk
    subst hk
    simpa using Lexeme.longest_text.mp h
  spells := by simpa using h.spells
  maximal := by simpa using h.maximal
  rangeRef_iff hk := by
    simp only at hk
    rw [h.kind_eq hk]
    simp [Lexeme.nameKind_eq_rangeRef]
  function_iff hk := by
    simp only at hk
    rw [h.kind_eq hk]
    simp [Lexeme.nameKind_eq_function]

theorem scan_covers (s : String) :
    (∀ t ∈ scan s, ∃ before source after, Covers s t before source after) ∧
    (scan s).Pairwise (fun t u => t.stop ≤ u.start) ∧
    (∀ before c after, s.toList = before ++ c :: after →
      (∃ t ∈ scan s, t.start ≤ (String.ofList before).utf8ByteSize ∧
        (String.ofList before).utf8ByteSize < t.stop) ∨
      Text.isBlank c = true ∨ isStart c = false) ∧
    ∀ before f after, scan s = before ++ f :: after → f.kind = .function →
      ∃ rest, after = ⟨.operator, "(", f.stop, f.stop + 1⟩ :: rest := by
  have hscan : Scans 0 s.toList (scan s) := scans_scanFrom 0 s.toList
  refine ⟨fun t ht => ?_, hscan.pairwise, fun before c after hc => ?_, fun before f after hts hf =>
    hscan.next_of_function hts hf⟩
  · obtain ⟨before, l, after, happend, hl, rfl⟩ := hscan.exists_longest ht
    obtain rfl : s = .ofList before ++ .ofList l.source ++ .ofList after := by
      rw [← String.ofList_append, ← String.ofList_append, ← happend, String.ofList_toList]
    rw [Nat.zero_add]
    exact ⟨_, _, _, covers_of_longest hl⟩
  · rcases hscan.covers_or_skips hc with ⟨t, ht, hspan⟩ | hskip
    · refine .inl ⟨t, ht, ?_⟩
      simpa [← byteSize_eq_utf8ByteSize] using hspan
    · exact .inr (.inr hskip)

theorem scan_covers_unclosed :
    ⟨.text, "ü", 8, 11⟩ ∈ scan "é<>SUM('ü" ∧
      (∃ before source after, Covers "é<>SUM('ü" ⟨.text, "ü", 8, 11⟩ before source after) ∧
      ∃ rest, [⟨.operator, "(", 7, 8⟩, ⟨.text, "ü", 8, 11⟩] = (⟨.operator, "(", 7, 8⟩ : Token) :: rest := by
  have hscan : scan "é<>SUM('ü" = [⟨.operator, "<>", 2, 4⟩] ++ ⟨.function, "SUM", 4, 7⟩ ::
      [⟨.operator, "(", 7, 8⟩, ⟨.text, "ü", 8, 11⟩] := by decide +kernel
  have hmem : ⟨.text, "ü", 8, 11⟩ ∈ scan "é<>SUM('ü" := by simp [hscan]
  obtain ⟨hcovers, -, -, hcalls⟩ := scan_covers "é<>SUM('ü"
  exact ⟨hmem, hcovers _ hmem, hcalls _ _ _ hscan rfl⟩

end FormulaAudit.Token
