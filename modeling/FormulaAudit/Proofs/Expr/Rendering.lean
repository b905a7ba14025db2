import FormulaAudit.Proofs.Expr.Steps

/-!
Infix renderings of an expression: with operators between their operands, calls with a comma between
arguments, and any number of parentheses, at least where the binding of operators asks for them.
Building an expression undoes rendering it.
-/

namespace FormulaAudit.Expr

/-- Binary operators on one line bind alike, and more strongly than those on the lines below. All
operators that are not listed bind alike and least. -/
def bindingTable : List (List String) :=
  [[":"],
   ["^"],
   ["*", "/"],
   ["+", "-"],
   ["&"]]

def line (operator : String) : Nat :=
  bindingTable.findIdx (·.contains operator)

def operator? : Expr → Option Token
  | .binary op _ _ => some op
  | _ => none

inductive Separated : List (List Token) → List Token → Prop
  | nil : Separated [] []
  | single (part : List Token) : Separated [part] part
  | cons {part next ts : List Token} {parts : List (List Token)} {comma : Token} :
      comma.IsSymbol "," → Separated (next :: parts) ts →
      Separated (part :: next :: parts) (part ++ comma :: ts)

structure Rendering where
  expr : Expr
  enclosed : Bool
  tokens : List Token

/-- A left operand needs parentheses if its operator stands below `op` in the table, a right one also if
it stands on the same line. -/
inductive Renders : Expr → Bool → List Token → Prop
  | leaf (t : Token) : Renders (.leaf t) false [t]
  | binary {op : Token} {l r : Expr} {p q : Bool} {ls rs : List Token} :
      Renders l p ls → Renders r q rs →
      (∀ o ∈ l.operator?, line op.value < line o.value → p = true) →
      (∀ o ∈ r.operator?, line op.value ≤ line o.value → q = true) →
      Renders (.binary op l r) false (ls ++ op :: rs)
  | call {f lp rp : Token} {args : List Rendering} {ts : List Token} :
      lp.IsSymbol "(" → rp.IsSymbol ")" → (∀ a ∈ args, Renders a.expr a.enclosed a.tokens) →
      Separated (args.map (·.tokens)) ts →
      Renders (.call f (args.map (·.expr))) false (f :: lp :: (ts ++ [rp]))
  | paren {e : Expr} {p : Bool} {lp rp : Token} {ts : List Token} :
      lp.IsSymbol "(" → rp.IsSymbol ")" → Renders e p ts → Renders e true (lp :: (ts ++ [rp]))

lemma line_add_precedence (operator : String) : line operator + precedence operator = 5 := by
  unfold precedence
  split_ifs with hcolon hpower hproduct hsum hjoin
  · subst hcolon
    decide
  · subst hpower
    decide
  · rcases hproduct with rfl | rfl <;> decide
  · rcases hsum with rfl | rfl <;> decide
  · subst hjoin
    decide
  · rw [not_or] at hproduct hsum
    simp [line, bindingTable, List.findIdx_cons, hcolon, hpower, hproduct, hsum, hjoin]

def strength : Expr → Nat
  | .binary op _ _ => precedence op.value
  | _ => 6

def outerStrength (e : Expr) (enclosed : Bool) : Nat :=
  if enclosed then 6 else e.strength

lemma outerStrength_cases (e : Expr) (p : Bool) : outerStrength e p = 6 ∨
    p = false ∧ ∃ o ∈ e.operator?, line o.value + outerStrength e p = 5 := by
  cases p with
  | true => exact .inl rfl
  | false =>
    cases e with
    | binary o l r => exact .inr ⟨rfl, o, rfl, line_add_precedence o.value⟩
    | leaf | call => exact .inl rfl

lemma le_outerStrength {e : Expr} {p : Bool} {operator : String}
    (h : ∀ o ∈ e.operator?, line operator < line o.value → p = true) :
    precedence operator ≤ outerStrength e p := by
  have hline := line_add_precedence operator
  rcases outerStrength_cases e p with hs | ⟨rfl, o, ho, hs⟩
  · omega
  · have hnot : ¬ line operator < line o.value := fun hlt => Bool.false_ne_true (h o ho hlt)
    omega

lemma lt_outerStrength {e : Expr} {p : Bool} {operator : String}
    (h : ∀ o ∈ e.operator?, line operator ≤ line o.value → p = true) :
    precedence operator < outerStrength e p := by
  have hline := line_add_precedence operator
  rcases outerStrength_cases e p with hs | ⟨rfl, o, ho, hs⟩
  · omega
  · have hnot : ¬ line operator ≤ line o.value := fun hle => Bool.false_ne_true (h o ho hle)
    omega

namespace Builder

open Formula (Error)

def pushAll (b : Builder) (ts : List Token) : Except Error Builder :=
  ts.foldlM push b

@[simp] lemma pushAll_nil (b : Builder) : b.pushAll [] = .ok b := rfl

lemma pushAll_cons {b b' : Builder} {t : Token} (h : b.push t = .ok b') (ts : List Token) :
    b.pushAll (t :: ts) = b'.pushAll ts := by
  simp [pushAll, h, bind, Except.bind]

lemma pushAll_append {b b' : Builder} {ts : List Token} (h : b.pushAll ts = .ok b') (us : List Token) :
    b.pushAll (ts ++ us) = b'.pushAll us := by
  simp only [pushAll] at h ⊢
  simp [List.foldlM_append, h, bind, Except.bind]

lemma reduceTo_of_below {strength : Nat} {operands : List Expr} {pending : List Pending}
    {calls : List Nat} (h : Below strength pending) :
    reduceTo strength ⟨operands, pending, calls⟩ = .ok ⟨operands, pending, calls⟩ := by
  simp only [reduceTo]
  cases pending with
  | nil => rfl
  | cons p rest =>
    cases p with
    | operator op => rw [reduce, if_neg (Nat.not_le.mpr h)]
    | paren | function => rfl

lemma reduceTo_paren (strength : Nat) (operands : List Expr) (paren : Token) (base arg : Nat)
    (pending : List Pending) (calls : List Nat) :
    reduceTo strength ⟨operands, .paren paren base arg :: pending, calls⟩ =
      .ok ⟨operands, .paren paren base arg :: pending, calls⟩ := rfl

lemma reduceTo_join {strength : Nat} {op : Token} {l r : Expr} {operands : List Expr}
    {pending : List Pending} {calls : List Nat} (hop : strength ≤ precedence op.value)
    (hfloor : floor pending ≤ operands.length) :
    reduceTo strength ⟨r :: l :: operands, .operator op :: pending, calls⟩ =
      reduceTo strength ⟨.binary op l r :: operands, pending, calls⟩ := by
  have happly : apply ⟨r :: l :: operands, pending, calls⟩ op =
      .ok ⟨.binary op l r :: operands, pending, calls⟩ := by
    simp only [apply]
    exact if_neg (by simp; omega)
  simp only [reduceTo]
  rw [reduce, if_pos hop, happly]

structure Ready (b : Builder) (strength : Nat) : Prop where
  floor_le : floor b.pending ≤ b.operands.length
  below : Below strength b.pending
  no_function : ∀ f rest, b.pending ≠ .function f :: rest

/-- `b'` is `b` with one more operand `e`, of which some operators may still be pending. -/
structure Holds (b : Builder) (e : Expr) (strength : Nat) (b' : Builder) : Prop where
  pending : ∃ ops : List Token, b'.pending = ops.map .operator ++ b.pending
  reduceTo_eq : ∀ s ≤ strength, b'.reduceTo s = reduceTo s ⟨e :: b.operands, b.pending, b.calls⟩

lemma Below.mono {s s' : Nat} {pending : List Pending} (h : Below s pending) (hle : s ≤ s') :
    Below s' pending := by
  unfold Below at h ⊢
  split
  · exact Nat.lt_of_lt_of_le h hle
  · trivial

lemma Holds.of_eq {b b' : Builder} {e : Expr} (h : b' = ⟨e :: b.operands, b.pending, b.calls⟩)
    (strength : Nat) : Holds b e strength b' :=
  ⟨⟨[], by simp [h]⟩, fun s _ => by rw [h]⟩

def Builds (e : Expr) (enclosed : Bool) (ts : List Token) : Prop :=
  ∀ b : Builder, b.Ready (outerStrength e enclosed) →
    ∃ b', b.pushAll ts = .ok b' ∧ Holds b e (outerStrength e enclosed) b'

lemma builds_leaf {t : Token} (ht : t.IsOperand) : Builds (.leaf t) false [t] := by
  intro b _
  refine ⟨b.pushOperand t, ?_, .of_eq rfl _⟩
  rw [pushAll_cons (push_operand ht)]
  rfl

lemma builds_binary {op : Token} {l r : Expr} {p q : Bool} {ls rs : List Token} (hop : op.IsInfix)
    (hl : Builds l p ls) (hr : Builds r q rs)
    (hp : ∀ o ∈ l.operator?, line op.value < line o.value → p = true)
    (hq : ∀ o ∈ r.operator?, line op.value ≤ line o.value → q = true) :
    Builds (.binary op l r) false (ls ++ op :: rs) := by
  intro b hb
  have hlow : Below (precedence op.value) b.pending := hb.below
  have hpl := le_outerStrength hp
  have hqr := lt_outerStrength hq
  obtain ⟨b₁, hpush₁, hb₁⟩ := hl b ⟨hb.floor_le, hlow.mono hpl, hb.no_function⟩
  -- pushing the operator applies what is left of the left operand
  have hpush : b₁.push op = .ok ⟨l :: b.operands, .operator op :: b.pending, b.calls⟩ := by
    rw [push_joining hop, pushOperator, hb₁.reduceTo_eq _ hpl, reduceTo_of_below hlow]
    rfl
  have hready : Ready ⟨l :: b.operands, .operator op :: b.pending, b.calls⟩ (outerStrength r q) :=
    ⟨Nat.le_succ_of_le hb.floor_le, hqr, by simp⟩
  obtain ⟨b₂, hpush₂, hb₂⟩ := hr _ hready
  refine ⟨b₂, ?_, ?_, ?_⟩
  · rw [pushAll_append hpush₁, pushAll_cons hpush, hpush₂]
  · obtain ⟨ops, hops⟩ := hb₂.pending
    exact ⟨ops ++ [op], by simp [hops]⟩
  · intro s hs
    have hs' : s ≤ precedence op.value := hs
    rw [hb₂.reduceTo_eq s (by omega), reduceTo_join hs' hb.floor_le]

lemma builds_paren {e : Expr} {p : Bool} {lp rp : Token} {ts : List Token} (hlp : lp.IsSymbol "(")
    (hrp : rp.IsSymbol ")") (h : Builds e p ts) : Builds e true (lp :: (ts ++ [rp])) := by
  intro b hb
  obtain ⟨b₁, hpush₁, hb₁⟩ := h (b.openParen lp) ⟨Nat.le_refl _, trivial, by simp [openParen]⟩
  have hpush : b₁.push rp = .ok ⟨e :: b.operands, b.pending, b.calls⟩ := by
    have hred := hb₁.reduceTo_eq 0 (Nat.zero_le _)
    simp only [openParen] at hred
    rw [reduceTo_paren] at hred
    rw [push_close hrp, closeParen, hred]
    simp only [bind, Except.bind]
    split
    · rename_i hp
      simp only [List.cons.injEq] at hp
      exact absurd hp.2 (hb.no_function _ _)
    · rename_i hp
      simp only [List.cons.injEq] at hp
      rw [hp.2]
      rfl
    · rename_i hne
      exact absurd rfl (hne _ _ _ _)
  refine ⟨_, ?_, .of_eq rfl _⟩
  rw [pushAll_cons (push_open hlp), pushAll_append hpush₁, pushAll_cons hpush]
  rfl

lemma pushAll_arguments {args : List Rendering} {ts : List Token}
    (hargs : ∀ a ∈ args, Builds a.expr a.enclosed a.tokens)
    (hsep : Separated (args.map (·.tokens)) ts) (lp f : Token) (pending : List Pending)
    (calls : List Nat) (operands : List Expr) (base arg commas : Nat) (harg : arg ≤ operands.length) :
    ∃ b' arg', pushAll ⟨operands, .paren lp base arg :: .function f :: pending, commas :: calls⟩ ts = .ok b' ∧
      b'.reduceTo 0 = .ok ⟨(args.map (·.expr)).reverse ++ operands,
        .paren lp base arg' :: .function f :: pending, (commas + (args.length - 1)) :: calls⟩ := by
  induction args generalizing operands arg commas ts with
  | nil =>
    cases hsep
    exact ⟨_, arg, rfl, reduceTo_paren _ _ _ _ _ _ _⟩
  | cons a args ih =>
    obtain ⟨b₁, hpush₁, hb₁⟩ := hargs a (by simp)
      ⟨operands, .paren lp base arg :: .function f :: pending, commas :: calls⟩ ⟨harg, trivial, by simp⟩
    have hred := hb₁.reduceTo_eq 0 (Nat.zero_le _)
    rw [reduceTo_paren] at hred
    cases args with
    | nil =>
      cases hsep
      exact ⟨b₁, arg, hpush₁, hred⟩
    | cons a' args =>
      obtain _ | _ | @⟨_, _, us, _, comma, hcomma, hsep⟩ := hsep
      have hpush : b₁.push comma = .ok ⟨a.expr :: operands,
          .paren lp base (operands.length + 1) :: .function f :: pending, (commas + 1) :: calls⟩ := by
        rw [push_comma hcomma, separate, hred]
        rfl
      obtain ⟨b₂, arg', hpush₂, hb₂⟩ := ih (fun x hx => hargs x (by simp [hx])) hsep
        (a.expr :: operands) (operands.length + 1) (commas + 1) (by simp)
      refine ⟨b₂, arg', ?_, ?_⟩
      · rw [pushAll_append hpush₁, pushAll_cons hpush, hpush₂]
      · rw [hb₂]
        simp [Nat.add_assoc, Nat.add_comm 1]

lemma finishCall_append (f : Token) (args operands : List Expr) (commas : Nat)
    (hcommas : args.length ≤ commas + 1) (harity : (Function.arityOf f.value).Admits args.length) :
    finishCall (args.reverse ++ operands) f operands.length commas = .ok (.call f args :: operands) := by
  have hlen : (args.reverse ++ operands).length - operands.length = args.length := by simp
  obtain ⟨hleast, hmost⟩ := harity
  have htake : (args.reverse ++ operands).take args.length = args.reverse :=
    List.take_left' (by simp)
  have hdrop : (args.reverse ++ operands).drop args.length = operands := List.drop_left' (by simp)
  simp only [finishCall, hlen, htake, hdrop, List.reverse_reverse]
  rw [if_neg (by omega), if_neg (by omega)]
  split
  · rfl
  · rename_i most hm
    exact if_neg (Nat.not_lt.mpr (hmost most hm))

lemma builds_call {f lp rp : Token} {args : List Rendering} {ts : List Token} (hf : f.kind = .function)
    (harity : (Function.arityOf f.value).Admits args.length) (hlp : lp.IsSymbol "(")
    (hrp : rp.IsSymbol ")") (hargs : ∀ a ∈ args, Builds a.expr a.enclosed a.tokens)
    (hsep : Separated (args.map (·.tokens)) ts) :
    Builds (.call f (args.map (·.expr))) false (f :: lp :: (ts ++ [rp])) := by
  intro b _
  obtain ⟨b₁, arg', hpush₁, hred⟩ := pushAll_arguments hargs hsep lp f b.pending b.calls b.operands
    b.operands.length b.operands.length 0 (Nat.le_refl _)
  have hfinish := finishCall_append f (args.map (·.expr)) b.operands (args.length - 1)
    (by simp; omega) (by simpa using harity)
  have hpush : b₁.push rp = .ok ⟨.call f (args.map (·.expr)) :: b.operands, b.pending, b.calls⟩ := by
    rw [push_close hrp, closeParen, hred]
    simp only [bind, Except.bind, List.headD_cons, Nat.zero_add, hfinish]
    rfl
  refine ⟨_, ?_, .of_eq rfl _⟩
  rw [pushAll_cons (push_function hf), pushAll_cons (push_open hlp)]
  simp only [pushFunction, openParen]
  rw [pushAll_append hpush₁, pushAll_cons hpush]
  rfl

lemma builds_of_renders {e : Expr} {p : Bool} {ts : List Token} (h : Renders e p ts)
    (he : e.WellFormed) : Builds e p ts := by
  induction h with
  | leaf t =>
    cases he with
    | leaf ht => exact builds_leaf ht
  | binary _ _ hp hq ihl ihr =>
    cases he with
    | binary hop hl hr => exact builds_binary hop (ihl hl) (ihr hr) hp hq
  | @call f lp rp args ts hlp hrp _ hsep ih =>
    cases he with
    | call hf harity hargs =>
      refine builds_call hf (by simpa using harity) hlp hrp ?_ hsep
      intro a ha
      exact ih a ha (hargs a.expr (List.mem_map_of_mem ha))
  | paren hlp hrp _ ih => exact builds_paren hlp hrp (ih he)

lemma finish_of_holds {b : Builder} {e : Expr} {strength : Nat} (h : Holds {} e strength b) :
    b.finish = .ok e := by
  obtain ⟨ops, hops⟩ := h.pending
  have hnone : b.pending.reverse.findSome? openPosition = none := by
    simp [hops, openPosition]
  have hred := h.reduceTo_eq 0 (Nat.zero_le _)
  unfold finish
  rw [hnone]
  simp only [hred]
  rfl

end Builder

namespace Renders

lemma ne_nil {e : Expr} {p : Bool} {ts : List Token} (h : Renders e p ts) : ts ≠ [] := by
  cases h <;> simp

lemma exists_separated (parts : List (List Token)) : ∃ ts, Separated parts ts := by
  induction parts with
  | nil => exact ⟨[], .nil⟩
  | cons part parts ih =>
    cases parts with
    | nil => exact ⟨part, .single part⟩
    | cons next parts =>
      obtain ⟨ts, hts⟩ := ih
      have hcomma : Token.IsSymbol ⟨.operator, ",", 0, 0⟩ "," := ⟨rfl, rfl⟩
      exact ⟨_, .cons hcomma hts⟩

lemma enclose {e : Expr} {p : Bool} {ts : List Token} (h : Renders e p ts) : ∃ us, Renders e true us := by
  have hlp : Token.IsSymbol ⟨.operator, "(", 0, 0⟩ "(" := ⟨rfl, rfl⟩
  have hrp : Token.IsSymbol ⟨.operator, ")", 0, 0⟩ ")" := ⟨rfl, rfl⟩
  exact ⟨_, .paren hlp hrp h⟩

lemma exists_arguments {args : List Expr} (h : ∀ a ∈ args, ∃ ts, Renders a true ts) :
    ∃ rs : List Rendering, rs.map (·.expr) = args ∧ ∀ r ∈ rs, Renders r.expr r.enclosed r.tokens := by
  induction args with
  | nil => exact ⟨[], rfl, by simp⟩
  | cons a args ih =>
    obtain ⟨ts, hts⟩ := h a (by simp)
    obtain ⟨rs, rfl, hrs⟩ := ih fun x hx => h x (by simp [hx])
    exact ⟨⟨a, true, ts⟩ :: rs, rfl, by simpa [hts] using hrs⟩

lemma exists_enclosed {e : Expr} (he : e.WellFormed) : ∃ ts, Renders e true ts := by
  induction he with
  | leaf _ => exact enclose (.leaf _)
  | binary _ _ _ ihl ihr =>
    obtain ⟨ls, hls⟩ := ihl
    obtain ⟨rs, hrs⟩ := ihr
    exact enclose (.binary hls hrs (fun _ _ _ => rfl) (fun _ _ _ => rfl))
  | @call f _ _ _ _ ih =>
    obtain ⟨rs, rfl, hrs⟩ := exists_arguments ih
    obtain ⟨ts, hts⟩ := exists_separated (rs.map (·.tokens))
    have hlp : Token.IsSymbol ⟨.operator, "(", 0, 0⟩ "(" := ⟨rfl, rfl⟩
    have hrp : Token.IsSymbol ⟨.operator, ")", 0, 0⟩ ")" := ⟨rfl, rfl⟩
    exact enclose (.call hlp hrp hrs hts)

end Renders

theorem ofTokens_of_renders {e : Expr} (he : e.WellFormed) :
    (∃ enclosed ts, Renders e enclosed ts) ∧
      ∀ enclosed ts, Renders e enclosed ts → ofTokens ts = .ok e := by
  constructor
  · obtain ⟨ts, hts⟩ := Renders.exists_enclosed he
    exact ⟨true, ts, hts⟩
  · intro enclosed ts h
    obtain ⟨b, hpush, hb⟩ := Builder.builds_of_renders h he {} ⟨Nat.le_refl _, trivial, by simp⟩
    have hne : ts.isEmpty = false := List.isEmpty_eq_false_iff.mpr h.ne_nil
    have hfold : ts.foldlM Builder.push {} = .ok b := hpush
    simp only [ofTokens, hne, hfold, bind, Except.bind]
    exact Builder.finish_of_holds hb

theorem ofTokens_of_renders_levels :
    let sum := Expr.binary ⟨.operator, "+", 3, 4⟩ (.leaf ⟨.cellRef, "A1", 1, 3⟩) (.leaf ⟨.cellRef, "B1", 4, 6⟩)
    let product := Expr.binary ⟨.operator, "*", 7, 8⟩ sum (.leaf ⟨.number, "2", 8, 9⟩)
    let power := Expr.binary ⟨.operator, "^", 15, 16⟩ (.leaf ⟨.number, "3", 14, 15⟩)
      (.call ⟨.function, "NOW", 16, 19⟩ [])
    let difference := Expr.binary ⟨.operator, "-", 13, 14⟩ (.leaf ⟨.cellRef, "C1", 11, 13⟩) power
    let e := Expr.binary ⟨.operator, "-", 9, 10⟩ product difference
    let ts : List Token := [⟨.operator, "(", 0, 1⟩, ⟨.cellRef, "A1", 1, 3⟩, ⟨.operator, "+", 3, 4⟩,
      ⟨.cellRef, "B1", 4, 6⟩, ⟨.operator, ")", 6, 7⟩, ⟨.operator, "*", 7, 8⟩, ⟨.number, "2", 8, 9⟩,
      ⟨.operator, "-", 9, 10⟩, ⟨.operator, "(", 10, 11⟩, ⟨.cellRef, "C1", 11, 13⟩, ⟨.operator, "-", 13, 14⟩,
      ⟨.number, "3", 14, 15⟩, ⟨.operator, "^", 15, 16⟩, ⟨.function, "NOW", 16, 19⟩, ⟨.operator, "(", 19, 20⟩,
      ⟨.operator, ")", 20, 21⟩, ⟨.operator, ")", 21, 22⟩]
    e.WellFormed ∧ Renders e false ts ∧ ofTokens ts = .ok e := by
  intro sum product power difference e ts
  have harity : Function.arityOf "NOW" = ⟨0, some 0⟩ := by decide
  have hnow : (Expr.call ⟨.function, "NOW", 16, 19⟩ []).WellFormed :=
    .call rfl (by simp [harity, Arity.Admits]) (by simp)
  have he : e.WellFormed := by
    refine .binary ?_ (.binary ?_ (.binary ?_ (.leaf ?_) (.leaf ?_)) (.leaf ?_))
      (.binary ?_ (.leaf ?_) (.binary ?_ (.leaf ?_) hnow))
    all_goals simp [Token.IsInfix, Token.IsOperand]
  have hsum : Renders sum false
      [⟨.cellRef, "A1", 1, 3⟩, ⟨.operator, "+", 3, 4⟩, ⟨.cellRef, "B1", 4, 6⟩] :=
    .binary (.leaf _) (.leaf _) (by decide) (by decide)
  have hproduct : Renders product false [⟨.operator, "(", 0, 1⟩, ⟨.cellRef, "A1", 1, 3⟩,
      ⟨.operator, "+", 3, 4⟩, ⟨.cellRef, "B1", 4, 6⟩, ⟨.operator, ")", 6, 7⟩, ⟨.operator, "*", 7, 8⟩,
      ⟨.number, "2", 8, 9⟩] :=
    .binary (.paren ⟨rfl, rfl⟩ ⟨rfl, rfl⟩ hsum) (.leaf _) (by decide) (by decide)
  have hcall : Renders (.call ⟨.function, "NOW", 16, 19⟩ []) false
      [⟨.function, "NOW", 16, 19⟩, ⟨.operator, "(", 19, 20⟩, ⟨.operator, ")", 20, 21⟩] :=
    @Renders.call _ _ _ [] [] ⟨rfl, rfl⟩ ⟨rfl, rfl⟩ (by simp) .nil
  have hpower : Renders power false [⟨.number, "3", 14, 15⟩, ⟨.operator, "^", 15, 16⟩,
      ⟨.function, "NOW", 16, 19⟩, ⟨.operator, "(", 19, 20⟩, ⟨.operator, ")", 20, 21⟩] :=
    .binary (.leaf _) hcall (by decide) (by decide)
  have hdifference : Renders difference false [⟨.cellRef, "C1", 11, 13⟩, ⟨.operator, "-", 13, 14⟩,
      ⟨.number, "3", 14, 15⟩, ⟨.operator, "^", 15, 16⟩, ⟨.function, "NOW", 16, 19⟩,
      ⟨.operator, "(", 19, 20⟩, ⟨.operator, ")", 20, 21⟩] :=
    .binary (.leaf _) hpower (by decide) (by decide)
  have hr : Renders e false ts :=
    .binary hproduct (.paren ⟨rfl, rfl⟩ ⟨rfl, rfl⟩ hdifference) (by decide) (by decide)
  exact ⟨he, hr, (ofTokens_of_renders he).2 false ts hr⟩

end FormulaAudit.Expr
