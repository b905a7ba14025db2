import FormulaAudit.Proofs.Expr.SourceOrder
import FormulaAudit.Proofs.Expr.Surplus

/-!
The three stacks of a builder keep step with each other, whatever tokens are pushed. The heights that
open parentheses remember never exceed the operands that are there, and the frames in which commas are
counted are those of the pending functions, in the same order. So a call that is closed finds its frame
and its arguments, also among functions without parentheses and commas without a call.
-/

namespace FormulaAudit.Expr.Builder

open Formula (Error)

variable {b b' : Builder} {t f : Token} {ts : List Token} {pending below : List Pending}
  {calls frames : List Nat} {n : Nat}

section Heights

def marks : Pending → List Nat
  | .paren _ base arg => [base, arg]
  | _ => []

def heights (b : Builder) : List Nat :=
  b.pending.reverse.flatMap marks ++ [b.operands.length]

lemma Heights.pairwise {height : Nat} (h : Heights pending height) :
    (pending.reverse.flatMap marks ++ [height]).Pairwise (· ≤ ·) := by
  induction pending generalizing height with
  | nil => simp
  | cons p rest ih =>
    cases p with
    | operator | function => simpa [marks] using ih h
    | paren t base arg =>
      obtain ⟨hba, hah, hrest⟩ := h
      have hinner : [arg, height].Pairwise (· ≤ ·) := by simpa using hah
      have hsplit : (Pending.paren t base arg :: rest).reverse.flatMap marks ++ [height] =
          (rest.reverse.flatMap marks ++ [base]) ++ [arg, height] := by
        simp [marks]
      have houter : ∀ x ∈ rest.reverse.flatMap marks ++ [base], x ≤ base := by
        intro x hx
        rcases List.mem_append.mp hx with hx | hx
        · exact (List.pairwise_append.mp (ih hrest)).2.2 x hx base (by simp)
        · exact Nat.le_of_eq (List.mem_singleton.mp hx)
      rw [hsplit, List.pairwise_append]
      refine ⟨ih hrest, hinner, fun x hx y hy => ?_⟩
      have hxb := houter x hx
      rcases List.mem_pair.mp hy with rfl | rfl <;> omega

lemma Heights.reduces (h : Heights b.pending b.operands.length) (hr : Reduces b b') :
    Heights b'.pending b'.operands.length := by
  induction hr with
  | refl => exact h
  | tail _ hstep ih => exact ih.applies hstep

lemma Heights.pushes (h : Heights b.pending b.operands.length) (hp : Pushes b t b') :
    Heights b'.pending b'.operands.length := by
  cases hp with
  | operand _ => exact h.operand
  | function _ => exact h
  | openParen _ => exact ⟨Nat.le_refl _, Nat.le_refl _, h⟩
  | @operator b' _ _ hr _ =>
    have h' : Heights b'.pending b'.operands.length := h.reduces hr
    exact h'
  | comma _ hr => exact (h.reduces hr).moveArgument
  | strayComma _ hr _ _ => exact h.reduces hr
  | closeGroup _ hr _ => exact (h.reduces hr).leave
  | closeCall _ hr _ _ => exact (h.reduces hr).drop.operand

end Heights

section Frames

def isOperator : Pending → Bool
  | .operator _ => true
  | _ => false

def isFunction : Pending → Bool
  | .function _ => true
  | _ => false

def InsideCall (f : Token) (below : List Pending) (b : Builder) : Prop :=
  ∃ paren base arg, b.pending.dropWhile isOperator = .paren paren base arg :: .function f :: below

lemma dropWhile_isOperator (h : Below 0 pending) : pending.dropWhile isOperator = pending := by
  cases pending with
  | nil => rfl
  | cons p rest =>
    cases p with
    | operator op => exact absurd h (not_below_zero rest)
    | paren | function => rfl

lemma Reduces.dropWhile_isOperator (h : Reduces b b') :
    b'.pending.dropWhile isOperator = b.pending.dropWhile isOperator := by
  induction h with
  | refl => rfl
  | tail _ hstep ih =>
    obtain ⟨-⟩ := hstep
    exact ih

lemma InsideCall.of_reduces (h : InsideCall f below b) (hr : Reduces b b') (hb : Below 0 b'.pending) :
    ∃ paren base arg, b'.pending = .paren paren base arg :: .function f :: below := by
  rwa [InsideCall, ← hr.dropWhile_isOperator, dropWhile_isOperator hb] at h

/-- The call of `f` has stayed open since `f` was pushed on `start`; the tokens read since then hold so
many commas directly inside it. -/
inductive OpenSince (start : Builder) (f : Token) : List Token → Builder → Nat → Prop
  | pushed {b : Builder} : start.push f = .ok b → .function f :: start.pending <:+ b.pending →
      OpenSince start f [] b 0
  | comma {ts : List Token} {b b' : Builder} {t : Token} {n : Nat} : OpenSince start f ts b n →
      b.push t = .ok b' → .function f :: start.pending <:+ b'.pending →
      t.IsSymbol "," → InsideCall f start.pending b → OpenSince start f (ts ++ [t]) b' (n + 1)
  | other {ts : List Token} {b b' : Builder} {t : Token} {n : Nat} : OpenSince start f ts b n →
      b.push t = .ok b' → .function f :: start.pending <:+ b'.pending →
      ¬ (t.IsSymbol "," ∧ InsideCall f start.pending b) → OpenSince start f (ts ++ [t]) b' n

def Owns (ts : List Token) (b : Builder) (f : Token) (below : List Pending) (n : Nat)
    (frames : List Nat) : Prop :=
  ∃ before after start, ts = before ++ f :: after ∧ pushAll {} before = .ok start ∧
    start.pending = below ∧ start.calls = frames ∧ OpenSince start f after b n

namespace Owns

lemma comma (h : Owns ts b f below n frames) (hp : b.push t = .ok b')
    (hs : .function f :: below <:+ b'.pending) (ht : t.IsSymbol ",") (hin : InsideCall f below b) :
    Owns (ts ++ [t]) b' f below (n + 1) frames := by
  obtain ⟨before, after, start, rfl, hstart, rfl, rfl, hsince⟩ := h
  exact ⟨before, after ++ [t], start, by simp, hstart, rfl, rfl, hsince.comma hp hs ht hin⟩

lemma other (h : Owns ts b f below n frames) (hp : b.push t = .ok b')
    (hs : .function f :: below <:+ b'.pending) (hn : ¬ (t.IsSymbol "," ∧ InsideCall f below b)) :
    Owns (ts ++ [t]) b' f below n frames := by
  obtain ⟨before, after, start, rfl, hstart, rfl, rfl, hsince⟩ := h
  exact ⟨before, after ++ [t], start, by simp, hstart, rfl, rfl, hsince.other hp hs hn⟩

end Owns

inductive Framed (owns : Token → List Pending → Nat → List Nat → Prop) : List Pending → List Nat → Prop
  | nil : Framed owns [] []
  | operator {op : Token} {pending : List Pending} {calls : List Nat} : Framed owns pending calls →
      Framed owns (.operator op :: pending) calls
  | paren {lp : Token} {base arg : Nat} {pending : List Pending} {calls : List Nat} :
      Framed owns pending calls → Framed owns (.paren lp base arg :: pending) calls
  | function {f : Token} {n : Nat} {pending : List Pending} {calls : List Nat} :
      owns f pending n calls → Framed owns pending calls →
      Framed owns (.function f :: pending) (n :: calls)

namespace Framed

variable {owns owns' : Token → List Pending → Nat → List Nat → Prop}

lemma length_eq (h : Framed owns pending calls) : calls.length = pending.countP isFunction := by
  induction h with
  | nil => rfl
  | operator _ ih | paren _ ih => simpa [isFunction] using ih
  | function _ _ ih => rw [List.length_cons, ih, List.countP_cons_of_pos rfl]

lemma split {above : List Pending} (h : Framed owns (above ++ .function f :: below) calls) :
    ∃ front n frames, calls = front ++ n :: frames ∧ front.length = above.countP isFunction ∧
      owns f below n frames := by
  induction above generalizing calls with
  | nil =>
    cases h with
    | function hown _ => exact ⟨[], _, _, rfl, rfl, hown⟩
  | cons p above ih =>
    cases h with
    | operator h | paren h =>
      obtain ⟨front, n, frames, rfl, hlen, hown⟩ := ih h
      exact ⟨front, n, frames, rfl, by simpa [isFunction] using hlen, hown⟩
    | @function _ m _ _ _ h =>
      obtain ⟨front, n, frames, rfl, hlen, hown⟩ := ih h
      exact ⟨m :: front, n, frames, rfl, by rw [List.length_cons, hlen, List.countP_cons_of_pos rfl], hown⟩

lemma imp (h : Framed owns pending calls)
    (himp : ∀ f below n frames, .function f :: below <:+ pending → owns f below n frames →
      owns' f below n frames) : Framed owns' pending calls := by
  induction h with
  | nil => exact .nil
  | operator _ ih =>
    apply Framed.operator (ih _)
    exact fun f below n frames hs => himp f below n frames (hs.trans (List.suffix_cons _ _))
  | paren _ ih =>
    apply Framed.paren (ih _)
    exact fun f below n frames hs => himp f below n frames (hs.trans (List.suffix_cons _ _))
  | function hown _ ih =>
    apply Framed.function (himp _ _ _ _ (List.suffix_refl _) hown) (ih _)
    exact fun f below n frames hs => himp f below n frames (hs.trans (List.suffix_cons _ _))

lemma reduces (h : Framed owns b.pending b.calls) (hr : Reduces b b') :
    Framed owns b'.pending b'.calls := by
  induction hr with
  | refl => exact h
  | tail _ hstep ih =>
    obtain ⟨-⟩ := hstep
    cases ih with
    | operator h => exact h

lemma kept (h : Framed (Owns ts b) pending calls) (hp : b.push t = .ok b') (hs : pending <:+ b'.pending)
    (hn : ∀ f below, .function f :: below <:+ pending → ¬ (t.IsSymbol "," ∧ InsideCall f below b)) :
    Framed (Owns (ts ++ [t]) b') pending calls :=
  h.imp fun f below _ _ hf hown => hown.other hp (hf.trans hs) (hn f below hf)

lemma kept_of_not_comma (h : Framed (Owns ts b) pending calls) (hp : b.push t = .ok b')
    (hs : pending <:+ b'.pending) (ht : ¬ t.IsSymbol ",") : Framed (Owns (ts ++ [t]) b') pending calls :=
  h.kept hp hs fun _ _ _ hcomma => ht hcomma.1

lemma comma {paren : Token} {operands : List Expr} {base arg : Nat}
    (h : Framed (Owns ts b) pending calls) (hp : b.push t = .ok b') (ht : t.IsSymbol ",")
    (hs : pending <:+ b'.pending)
    (hr : Reduces b ⟨operands, .paren paren base arg :: pending, calls⟩) :
    Framed (Owns (ts ++ [t]) b') pending (countComma pending calls) := by
  -- the comma counts for the function right under the parenthesis on top, and for no other
  have hinside : ∀ f below, InsideCall f below b → pending = .function f :: below := by
    intro f below hin
    obtain ⟨_, _, _, heq⟩ := hin.of_reduces hr trivial
    exact (List.cons.inj heq).2
  cases h with
  | nil => exact .nil
  | operator h | paren h =>
    apply kept (by constructor; exact h) hp hs
    intro f below _ hcomma
    have heq := hinside f below hcomma.2
    simp at heq
  | @function f n pending frames hown h =>
    have hin : InsideCall f pending b := ⟨paren, base, arg, hr.dropWhile_isOperator.symm⟩
    apply Framed.function (hown.comma hp hs ht hin)
    apply h.kept hp ((List.suffix_cons _ _).trans hs)
    intro g below hg hcomma
    obtain ⟨-, rfl⟩ := List.cons.inj (hinside g below hcomma.2)
    exact absurd hg.length_le (Nat.not_succ_le_self _)

lemma pushes (hb : pushAll {} ts = .ok b) (h : Framed (Owns ts b) b.pending b.calls)
    (hp : b.push t = .ok b') : Framed (Owns (ts ++ [t]) b') b'.pending b'.calls := by
  cases push_eq_ok hp with
  | operand ht => exact h.kept_of_not_comma hp (List.suffix_refl _) (ht.not_isSymbol _)
  | function ht =>
    have hown : Owns (ts ++ [t]) (b.pushFunction t) t b.pending 0 b.calls :=
      ⟨ts, [], b, rfl, hb, rfl, rfl, .pushed hp (List.suffix_refl _)⟩
    exact .function hown
      (h.kept_of_not_comma hp (List.suffix_cons _ _) (Token.not_isSymbol_of_function ht _))
  | openParen ht =>
    exact .paren (h.kept_of_not_comma hp (List.suffix_cons _ _) (ht.not_isSymbol (by simp)))
  | operator ht hr _ =>
    have hcomma : ¬ t.IsSymbol "," := fun hs => ht.2.2.2 hs.2
    exact .operator ((h.reduces hr).kept_of_not_comma hp (List.suffix_cons _ _) hcomma)
  | comma ht hr =>
    cases h.reduces hr with
    | paren h' => exact .paren (h'.comma hp ht (List.suffix_cons _ _) hr)
  | strayComma ht hr hbelow hne =>
    apply (h.reduces hr).kept hp (List.suffix_refl _)
    intro f below _ hcomma
    obtain ⟨paren, base, arg, heq⟩ := hcomma.2.of_reduces hr hbelow
    exact hne _ _ _ _ heq
  | closeGroup ht hr _ =>
    cases h.reduces hr with
    | paren h' => exact h'.kept_of_not_comma hp (List.suffix_refl _) (ht.not_isSymbol (by simp))
  | closeCall ht hr _ _ =>
    cases h.reduces hr with
    | paren h' =>
      cases h' with
      | function _ h'' =>
        exact h''.kept_of_not_comma hp (List.suffix_refl _) (ht.not_isSymbol (by simp))

end Framed

end Frames

lemma exists_of_pushAll_append (h : pushAll b (ts ++ [t]) = .ok b') :
    ∃ b₁, pushAll b ts = .ok b₁ ∧ b₁.push t = .ok b' := by
  rw [pushAll_append_eq] at h
  cases hb : pushAll b ts with
  | error e => simp [hb, bind, Except.bind] at h
  | ok b₁ =>
    rw [hb] at h
    exact ⟨b₁, rfl, (pushAll_singleton b₁ t).symm.trans h⟩

lemma heights_and_framed (h : pushAll {} ts = .ok b) :
    Heights b.pending b.operands.length ∧ Framed (Owns ts b) b.pending b.calls := by
  induction ts using List.reverseRecOn generalizing b with
  | nil =>
    obtain rfl := Except.ok.inj h
    exact ⟨trivial, .nil⟩
  | append_singleton ts t ih =>
    obtain ⟨b₁, hb, hp⟩ := exists_of_pushAll_append h
    obtain ⟨hheights, hframed⟩ := ih hb
    exact ⟨hheights.pushes (push_eq_ok hp), hframed.pushes hb hp⟩

section Fallbacks

/-- `apply` with the height checked first, and any answer where the operands are missing all the same. -/
def applyElse (otherwise : Except Error Builder) (b : Builder) (op : Token) : Except Error Builder :=
  if b.operands.length < floor b.pending + 2 then
    .error (.missingOperand op.value op.start)
  else
    match b.operands with
    | right :: left :: rest => .ok { b with operands := .binary op left right :: rest }
    | _ => otherwise

/-- `finish` with the operands counted first, and any answer where there is none all the same. -/
def finishElse (otherwise : Except Error Expr) (b : Builder) : Except Error Expr := do
  if let some position := b.pending.reverse.findSome? openPosition then
    throw (.unmatchedParentheses position)
  let b ← b.reduceTo 0
  if b.operands.length ≠ 1 then
    throw (.invalidStructure b.operands.length)
  match b.operands with
  | e :: _ => return e
  | [] => otherwise

lemma applyElse_eq (otherwise : Except Error Builder) (b : Builder) (op : Token) :
    applyElse otherwise b op = b.apply op := by
  obtain ⟨operands, pending, calls⟩ := b
  rcases operands with _ | ⟨right, _ | ⟨left, rest⟩⟩
  · exact if_pos (by simp)
  · exact if_pos (by simp)
  · rfl

lemma finishElse_eq (otherwise : Except Error Expr) (b : Builder) :
    finishElse otherwise b = b.finish := by
  unfold finishElse finish
  cases b.pending.reverse.findSome? openPosition with
  | some position => rfl
  | none =>
    cases b.reduceTo 0 with
    | error e => rfl
    | ok b₁ =>
      obtain ⟨operands, pending, calls⟩ := b₁
      rcases operands with _ | ⟨e, _ | ⟨e', rest⟩⟩
      · rfl
      · rfl
      · rfl

end Fallbacks

lemma closeParen_of_call {owns : Token → List Pending → Nat → List Nat → Prop} {b₁ : Builder} {paren : Token}
    {base arg : Nat} (hh : Heights b.pending b.operands.length) (hf : Framed owns b.pending b.calls)
    (hr : b.reduceTo 0 = .ok b₁) (hp : b₁.pending = .paren paren base arg :: .function f :: below) :
    base ≤ b₁.operands.length ∧ ∃ args kept n frames, b₁.operands = args ++ kept ∧ kept.length = base ∧
      b₁.calls = n :: frames ∧ owns f below n frames ∧
      (∀ operands, finishCall b₁.operands f base n = .ok operands →
        operands = .call f args.reverse :: kept) ∧
      ∀ t, b.closeParen t =
        (finishCall b₁.operands f base n).map fun operands => ⟨operands, below, frames⟩ := by
  have hreduces := (reduceTo_eq_ok hr).1
  have hheights := hh.reduces hreduces
  have hframed := hf.reduces hreduces
  obtain ⟨operands, pending, calls⟩ := b₁
  obtain rfl : pending = _ := hp
  cases hframed with
  | paren hcallee =>
    cases hcallee with
    | @function _ n _ frames hown _ =>
      refine ⟨Nat.le_trans hheights.1 hheights.2.1, operands.take (operands.length - base),
        operands.drop (operands.length - base), n, frames, (List.take_append_drop _ _).symm,
        hheights.length_drop, rfl, hown, ?_, ?_⟩
      · intro operands' hcall
        exact (finishCall_eq_ok hcall).2.2
      · intro t
        rw [closeParen, hr]
        cases hc : finishCall operands f base n with
        | error e => simp [bind, Except.bind, hc, Except.map]
        | ok operands' => simp [bind, Except.bind, hc, Except.map, pure, Except.pure]

theorem stacks_agree {ts : List Token} {b : Builder} (h : pushAll {} ts = .ok b) :
    b.heights.Pairwise (· ≤ ·) ∧
    b.calls.length = b.pending.countP isFunction ∧
    (∀ above f below, b.pending = above ++ .function f :: below → ∃ front n frames,
      b.calls = front ++ n :: frames ∧ front.length = above.countP isFunction ∧
        Owns ts b f below n frames) ∧
    (∀ b₁ paren base arg f below, b.reduceTo 0 = .ok b₁ →
      b₁.pending = .paren paren base arg :: .function f :: below →
      base ≤ b₁.operands.length ∧ ∃ args kept n frames, b₁.operands = args ++ kept ∧ kept.length = base ∧
        b₁.calls = n :: frames ∧ Owns ts b f below n frames ∧
        (∀ operands, finishCall b₁.operands f base n = .ok operands →
          operands = .call f args.reverse :: kept) ∧
        ∀ t, b.closeParen t =
          (finishCall b₁.operands f base n).map fun operands => ⟨operands, below, frames⟩) ∧
    (∀ otherwise, applyElse otherwise = apply) ∧ ∀ otherwise, finishElse otherwise = finish := by
  obtain ⟨hheights, hframed⟩ := heights_and_framed h
  refine ⟨hheights.pairwise, hframed.length_eq, ?_, ?_, ?_, ?_⟩
  · intro above f below hp
    exact Framed.split (hp ▸ hframed)
  · intro b₁ paren base arg f below hr hp
    exact closeParen_of_call hheights hframed hr hp
  · exact fun otherwise => funext fun b => funext fun op => applyElse_eq otherwise b op
  · exact fun otherwise => funext fun b => finishElse_eq otherwise b

theorem stacks_agree_group :
    let cell : Token := ⟨.cellRef, "A1", 0, 2⟩
    let sum : Token := ⟨.function, "SUM", 2, 5⟩
    let max : Token := ⟨.function, "MAX", 5, 8⟩
    let now : Token := ⟨.function, "NOW", 9, 12⟩
    let lp : Token := ⟨.operator, "(", 8, 9⟩
    let rp : Token := ⟨.operator, ")", 9, 9⟩
    let comma : Token := ⟨.operator, ",", 9, 9⟩
    let plus : Token := ⟨.operator, "+", 9, 9⟩
    let ts := [cell, sum, max, lp, cell, comma, lp, cell, comma, cell, rp, plus, now, lp, rp]
    let b : Builder := ⟨[.call now [], .leaf cell, .leaf cell, .leaf cell, .leaf cell],
      [.operator plus, .paren lp 1 2, .function max, .function sum], [1, 0]⟩
    let inner := Expr.binary plus (.leaf cell) (.call now [])
    let b₁ : Builder := ⟨[inner, .leaf cell, .leaf cell, .leaf cell],
      [.paren lp 1 2, .function max, .function sum], [1, 0]⟩
    pushAll {} ts = .ok b ∧ b.reduceTo 0 = .ok b₁ ∧ [1, 2, 5].Pairwise (· ≤ ·) ∧ b.calls.length = 2 ∧
      Owns ts b max [.function sum] 1 [0] ∧ Owns ts b sum [] 0 [] ∧
      (∃ args kept, b₁.operands = args ++ kept ∧ kept.length = 1) ∧
      b.closeParen rp = .error (.missingOperator "MAX") := by
  intro cell sum max now lp rp comma plus ts b inner b₁
  have h : pushAll {} ts = .ok b := by
    dsimp only [ts, b, cell, sum, max, now, lp, rp, comma, plus]
    with_unfolding_all rfl
  have hr : b.reduceTo 0 = .ok b₁ := by
    dsimp only [b, b₁, inner, cell, sum, max, now, lp, plus]
    with_unfolding_all rfl
  obtain ⟨hheights, hlength, hown, hclose, -, -⟩ := stacks_agree h
  refine ⟨h, hr, hheights, hlength, ?_, ?_, ?_, ?_⟩
  · obtain ⟨front, n, frames, hcalls, hfront, howns⟩ :=
      hown [.operator plus, .paren lp 1 2] max [.function sum] rfl
    obtain rfl : front = [] := List.eq_nil_of_length_eq_zero hfront
    obtain ⟨rfl, rfl⟩ := List.cons.inj hcalls
    exact howns
  · obtain ⟨front, n, frames, hcalls, hfront, howns⟩ :=
      hown [.operator plus, .paren lp 1 2, .function max] sum [] rfl
    obtain ⟨m, rfl⟩ := List.length_eq_one_iff.mp hfront
    obtain ⟨-, hcalls⟩ := List.cons.inj hcalls
    obtain ⟨rfl, rfl⟩ := List.cons.inj hcalls
    exact howns
  · obtain ⟨-, args, kept, -, -, hoperands, hkept, -⟩ := hclose b₁ lp 1 2 max [.function sum] hr rfl
    exact ⟨args, kept, hoperands, hkept⟩
  · obtain ⟨-, args, kept, n, frames, -, -, hcalls, -, -, hcall⟩ :=
      hclose b₁ lp 1 2 max [.function sum] hr rfl
    obtain ⟨rfl, rfl⟩ := List.cons.inj hcalls
    rw [hcall]
    dsimp only [b₁, inner, cell, max, now, plus]
    with_unfolding_all rfl

end FormulaAudit.Expr.Builder
