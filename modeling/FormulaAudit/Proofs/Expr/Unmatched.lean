import FormulaAudit.Proofs.Expr.Confinement
import FormulaAudit.Proofs.Token.Partners

/-!
When and where a builder finds parentheses that do not match: a closing one as soon as it is read while
none is open, an opening one only at the end, and then the outermost.
-/

namespace FormulaAudit

namespace Token

variable {t : Token} {ts us before after : List Token}

lemma Called.of_append (h : Called (before ++ t :: after)) (ht : ¬ t.IsSymbol "(") : Called before := by
  generalize hts : before ++ t :: after = ts at h
  induction h generalizing before with
  | nil => simp at hts
  | @cons u us hu _ ih =>
    cases before with
    | nil => exact .nil
    | cons v before =>
      obtain ⟨rfl, htail⟩ : v = u ∧ before ++ t :: after = us := by simpa using hts
      exact .cons hu (ih htail)
  | @call f paren us hf hparen _ ih =>
    rcases before with _ | ⟨v, _ | ⟨w, before⟩⟩
    · exact .nil
    · obtain ⟨-, rfl, -⟩ : v = f ∧ t = paren ∧ after = us := by simpa using hts
      exact absurd hparen ht
    · obtain ⟨rfl, rfl, htail⟩ : v = f ∧ w = paren ∧ before ++ t :: after = us := by simpa using hts
      exact .call hf hparen (ih htail)

def Abuts (ts : List Token) : Prop :=
  ∀ before f t after, ts = before ++ f :: t :: after → f.kind = .function → t.start = f.stop

lemma Abuts.of_append (h : Abuts (ts ++ us)) : Abuts ts := by
  rintro before f t after rfl hf
  exact h before f t (after ++ us) (by simp) hf

end Token

namespace Expr.Builder

open Formula (Error)
open Token

variable {b b' : Builder} {t : Token} {ts : List Token} {position : Nat}

section Errors

lemma bind_eq_error {α β : Type} {r : Except Error α} {f : α → Except Error β} {e : Error}
    (h : r >>= f = .error e) : r = .error e ∨ ∃ a, r = .ok a ∧ f a = .error e := by
  cases r with
  | error e' => exact .inl (congrArg Except.error (Except.error.inj h))
  | ok a => exact .inr ⟨a, rfl, h⟩

lemma apply_eq_error {op : Token} {e : Error} (h : b.apply op = .error e) :
    e = .missingOperand op.value op.start := by
  unfold apply at h
  split at h
  · split at h
    · exact (Except.error.inj h).symm
    · simp at h
  · exact (Except.error.inj h).symm

lemma reduceTo_ne_unmatched (strength : Nat) :
    b.reduceTo strength ≠ .error (.unmatchedParentheses position) := by
  obtain ⟨operands, pending, calls⟩ := b
  intro h
  simp only [reduceTo] at h
  fun_induction reduce strength operands calls pending with
  | case1 operands op rest hle b hb ih => exact ih h
  | case2 operands op rest hle e he =>
    have hmissing := (Except.error.inj h).symm.trans (apply_eq_error he)
    simp at hmissing
  | case3 | case4 => simp at h

lemma finishCall_ne_unmatched {operands : List Expr} {f : Token} {base commas : Nat} :
    finishCall operands f base commas ≠ .error (.unmatchedParentheses position) := by
  intro h
  simp only [finishCall] at h
  split at h
  · simp at h
  · split at h
    · simp at h
    · split at h
      · simp at h
      · split at h <;> simp at h

lemma closeParen_unmatched (h : b.closeParen t = .error (.unmatchedParentheses position)) :
    position = t.start ∧ ∃ b', Reduces b b' ∧ Below 0 b'.pending ∧
      ∀ paren base arg rest, b'.pending ≠ .paren paren base arg :: rest := by
  rcases bind_eq_error h with h | ⟨b', hr, h⟩
  · exact absurd h (reduceTo_ne_unmatched 0)
  · obtain ⟨hred, hbelow⟩ := reduceTo_eq_ok hr
    split at h
    · rcases bind_eq_error h with h | ⟨operands', -, h⟩
      · exact absurd h finishCall_ne_unmatched
      · simp [pure, Except.pure] at h
    · simp [pure, Except.pure] at h
    · rename_i hcall hgroup
      simp only [throw, throwThe, MonadExceptOf.throw, Except.error.injEq,
        Error.unmatchedParentheses.injEq] at h
      exact ⟨h.symm, b', hred, hbelow, hgroup⟩

lemma push_unmatched (h : b.push t = .error (.unmatchedParentheses position)) :
    t.IsSymbol ")" ∧ position = t.start ∧ ∃ b', Reduces b b' ∧ Below 0 b'.pending ∧
      ∀ paren base arg rest, b'.pending ≠ .paren paren base arg :: rest := by
  rcases t.class_cases with ht | ht | ht | ht | ht | ht
  · simp [push_operand ht] at h
  · simp [push_function ht] at h
  · simp [push_open ht] at h
  · rw [push_close ht] at h
    exact ⟨ht, closeParen_unmatched h⟩
  · rw [push_comma ht] at h
    rcases bind_eq_error h with h | ⟨b', -, h⟩
    · exact absurd h (reduceTo_ne_unmatched 0)
    · split at h <;> simp [pure, Except.pure] at h
  · rw [push_joining ht] at h
    rcases bind_eq_error h with h | ⟨b', -, h⟩
    · exact absurd h (reduceTo_ne_unmatched _)
    · simp [pure, Except.pure] at h

lemma foldlM_push_eq_error {e : Error} (h : ts.foldlM push b = .error e) :
    ∃ before t after b', ts = before ++ t :: after ∧ Runs b before b' ∧ b'.push t = .error e := by
  induction ts generalizing b with
  | nil => simp [pure, Except.pure] at h
  | cons t ts ih =>
    rw [List.foldlM_cons] at h
    rcases bind_eq_error h with h | ⟨b₁, hp, h⟩
    · exact ⟨[], t, ts, b, rfl, .nil b, h⟩
    · obtain ⟨before, u, after, b', rfl, hruns, hu⟩ := ih h
      exact ⟨t :: before, u, after, b', rfl, .cons (push_eq_ok hp) hruns, hu⟩

lemma finish_unmatched (h : b.finish = .error (.unmatchedParentheses position)) :
    b.pending.reverse.findSome? openPosition = some position := by
  unfold finish at h
  split at h
  · rename_i p hp
    simp only [throw, throwThe, MonadExceptOf.throw, bind, Except.bind, Except.error.injEq,
      Error.unmatchedParentheses.injEq] at h
    rw [hp, h]
  · rcases bind_eq_error h with h | ⟨b', -, h⟩
    · exact absurd h (reduceTo_ne_unmatched 0)
    · split at h
      · simp [pure, Except.pure] at h
      · simp [throw, throwThe, MonadExceptOf.throw] at h

lemma ofTokens_unmatched (h : ofTokens ts = .error (.unmatchedParentheses position)) :
    (∃ before t after b, ts = before ++ t :: after ∧ Runs {} before b ∧
      b.push t = .error (.unmatchedParentheses position)) ∨
    ∃ b, Runs {} ts b ∧ b.pending.reverse.findSome? openPosition = some position := by
  unfold ofTokens at h
  split at h
  · simp [throw, throwThe, MonadExceptOf.throw, bind, Except.bind] at h
  · rcases bind_eq_error h with h | ⟨b, hf, h⟩
    · exact .inl (foldlM_push_eq_error h)
    · exact .inr ⟨b, foldlM_push_eq_ok hf, finish_unmatched h⟩

end Errors

lemma findSome?_operators (ops : List Token) :
    (ops.map Pending.operator).reverse.findSome? openPosition = none := by
  simp [openPosition]

lemma Spans.leavesOpen {operands : List Expr} {pending : List Pending} (h : Spans operands pending ts)
    (ha : Abuts ts) :
    ∃ lps, LeavesOpen lps ts ∧ pending.reverse.findSome? openPosition = lps.getLast?.map Token.start := by
  induction h with
  | outside hmade => exact ⟨[], .nested hmade.nested, findSome?_operators _⟩
  | @inside operands es es' pending ts args seg ops callee lp _ hf hlp hargs _ hseg ih =>
    obtain ⟨lps, hopen, hfirst⟩ := ih ha.of_append
    have hcallee : Nested "(" ")" true callee.toList := by
      cases callee with
      | none => exact .nil
      | some f => exact nested_of_function (hf f rfl)
    have hin := (hopen.append hcallee).inside hlp (hargs.nested.append hseg.nested.weaken)
    refine ⟨lp :: lps, by simpa using hin, ?_⟩
    -- a function stands for its parenthesis, which starts where the function ends
    have hown : (callee.toList.map Pending.function).reverse.findSome? openPosition =
        callee.map fun _ => lp.start := by
      cases callee with
      | none => rfl
      | some f =>
        have habut : lp.start = f.stop := ha ts f lp (args ++ seg) (by simp) (hf f rfl)
        rw [habut]
        rfl
    simp only [List.reverse_append, List.reverse_cons, List.findSome?_append, findSome?_operators, hown,
      hfirst, List.getLast?_cons]
    cases lps.getLast? <;> cases callee <;> rfl

/-- Tokens that are refused for their parentheses are not nested. The place reported is that of the
first closing parenthesis without a partner or, without any such, that of the first opening one. -/
lemma unmatched_position (hc : Called ts) (ha : Abuts ts)
    (h : ofTokens ts = .error (.unmatchedParentheses position)) :
    (∃ t, IsFirst StrayClose ts t ∧ position = t.start) ∨
      (∀ before t after, ts = before ++ t :: after → ¬ StrayClose before t after) ∧
        ∃ t, IsFirst Unclosed ts t ∧ position = t.start := by
  rcases ofTokens_unmatched h with ⟨before, t, after, b, rfl, hruns, hpush⟩ | ⟨b, hruns, hfirst⟩
  · obtain ⟨ht, rfl, b', hred, hbelow, hparen⟩ := push_unmatched hpush
    have hcalled : Called before := hc.of_append (ht.not_isSymbol (by simp))
    have hend := (Located.empty.runs hcalled hruns).reduces hred
    have hspans := hend.spans
    rw [hspans.pending_eq_nil hbelow hparen] at hspans
    exact .inl ⟨t, hspans.of_nil.nested.isFirst_strayClose ht after, rfl⟩
  · have hend : Located b ts := Located.empty.runs hc hruns
    obtain ⟨lps, hopen, hlast⟩ := hend.spans.leavesOpen ha
    rw [hlast] at hfirst
    obtain ⟨lp, hlp, rfl⟩ := Option.map_eq_some_iff.mp hfirst
    exact .inr ⟨fun before t after hts => hopen.not_strayClose hts, lp, hopen.isFirst_unclosed hlp, rfl⟩

end Expr.Builder

end FormulaAudit
