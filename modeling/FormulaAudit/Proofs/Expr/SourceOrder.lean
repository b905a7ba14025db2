import FormulaAudit.Proofs.Expr.Preorder
import FormulaAudit.Proofs.Expr.Steps
import FormulaAudit.Proofs.Token.Names

/-!
The operands and function names of an expression stand in pre-order as they stand in the source,
whatever shape of token list was accepted, if only each function is directly followed by its opening
parenthesis.
-/

namespace FormulaAudit.Expr

def operandToken? : Expr → Option Token
  | .binary _ _ _ => none
  | e => some e.token

def operandTokens (e : Expr) : List Token :=
  e.collect operandToken?

@[simp] lemma operandTokens_leaf (t : Token) : operandTokens (.leaf t) = [t] := by
  simp [operandTokens, collect_eq, operandToken?, children, token]

@[simp] lemma operandTokens_binary (op : Token) (l r : Expr) :
    operandTokens (.binary op l r) = l.operandTokens ++ r.operandTokens := by
  rw [operandTokens, collect_eq]
  simp [operandToken?, children, operandTokens]

@[simp] lemma operandTokens_call (f : Token) (args : List Expr) :
    operandTokens (.call f args) = f :: args.flatMap operandTokens := by
  rw [operandTokens, collect_eq]
  simp [operandToken?, children, token]
  rfl

namespace Builder

def Heights : List Pending → Nat → Prop
  | [], _ => True
  | .paren _ base arg :: rest, height => base ≤ arg ∧ arg ≤ height ∧ Heights rest base
  | _ :: rest, height => Heights rest height

section Heights

variable {paren : Token} {base arg height : Nat} {pending : List Pending}

lemma Heights.floor_le (h : Heights pending height) : floor pending ≤ height := by
  induction pending with
  | nil => exact Nat.zero_le _
  | cons p rest ih =>
    cases p with
    | paren _ base arg => exact h.2.1
    | operator | function => exact ih h

lemma Heights.mono {height' : Nat} (h : Heights pending height) (hle : floor pending ≤ height') :
    Heights pending height' := by
  induction pending with
  | nil => trivial
  | cons p rest ih =>
    cases p with
    | paren _ base arg => exact ⟨h.1, hle, h.2.2⟩
    | operator | function => exact ih h hle

lemma Heights.operand (h : Heights pending height) : Heights pending (height + 1) :=
  h.mono (Nat.le_succ_of_le h.floor_le)

lemma Heights.moveArgument (h : Heights (.paren paren base arg :: pending) height) :
    Heights (.paren paren base height :: pending) height :=
  ⟨Nat.le_trans h.1 h.2.1, Nat.le_refl _, h.2.2⟩

lemma Heights.leave (h : Heights (.paren paren base arg :: pending) height) : Heights pending height := by
  obtain ⟨hba, hah, hrest⟩ := h
  have hfloor := hrest.floor_le
  exact hrest.mono (by omega)

lemma Heights.length_drop {operands : List Expr}
    (h : Heights (.paren paren base arg :: pending) operands.length) :
    (operands.drop (operands.length - base)).length = base := by
  have hle := Nat.le_trans h.1 h.2.1
  rw [List.length_drop]
  omega

lemma Heights.drop {operands : List Expr}
    (h : Heights (.paren paren base arg :: pending) operands.length) :
    Heights pending (operands.drop (operands.length - base)).length :=
  h.length_drop.symm ▸ h.2.2

lemma Heights.applies {b b' : Builder} (h : Heights b.pending b.operands.length) (hr : Applies b b') :
    Heights b'.pending b'.operands.length := by
  obtain @⟨op, l, r, operands, pending, calls, hfloor⟩ := hr
  have hh : Heights pending (operands.length + 1 + 1) := h
  exact (hh.mono hfloor).operand

end Heights

def Paired : List Pending → Prop
  | [] => True
  | .paren _ _ _ :: .function _ :: rest => Paired rest
  | .function _ :: _ => False
  | _ :: rest => Paired rest

def flat (operands : List Expr) : List Token :=
  operands.reverse.flatMap operandTokens

@[simp] lemma flat_nil : flat [] = [] := rfl

@[simp] lemma flat_cons (e : Expr) (operands : List Expr) :
    flat (e :: operands) = flat operands ++ e.operandTokens := by
  simp [flat]

lemma flat_append (es operands : List Expr) : flat (es ++ operands) = flat operands ++ flat es := by
  simp [flat]

/-- The tokens of the finished operands and of the open calls, each function before its operands. -/
def trace : List Expr → List Pending → List Token
  | operands, [] => flat operands
  | operands, .paren _ base _ :: .function f :: rest =>
    trace (operands.drop (operands.length - base)) rest ++
      f :: flat (operands.take (operands.length - base))
  | operands, .function f :: rest => trace operands rest ++ [f]
  | operands, _ :: rest => trace operands rest

lemma Paired.ne_function {pending : List Pending} (h : Paired pending) (f : Token) (rest : List Pending) :
    pending ≠ .function f :: rest := by
  rintro rfl
  exact h

lemma paired_paren {pending : List Pending} {paren : Token} {base arg : Nat}
    (hne : ∀ f rest, pending ≠ .function f :: rest) :
    Paired (.paren paren base arg :: pending) ↔ Paired pending := by
  rw [Paired]
  · exact fun _ _ _ f rest _ => hne f rest
  · simp

lemma trace_paren {operands : List Expr} {pending : List Pending} {paren : Token} {base arg : Nat}
    (hne : ∀ f rest, pending ≠ .function f :: rest) :
    trace operands (.paren paren base arg :: pending) = trace operands pending := by
  rw [trace]
  · exact fun _ _ _ f rest _ => hne f rest
  · simp

lemma trace_append {pending : List Pending} {operands : List Expr} (es : List Expr)
    (hp : Paired pending) (hh : Heights pending operands.length) :
    trace (es ++ operands) pending = trace operands pending ++ flat es := by
  induction pending using Paired.induct generalizing operands es with
  | case1 => simp [trace, flat_append]
  | case2 paren base arg f rest ih =>
    obtain ⟨hba, han, -⟩ := hh
    have hlen : (es ++ operands).length - base = es.length + (operands.length - base) := by
      simp; omega
    -- what lies above `base` grows, what lies below it stays
    simp only [trace, hlen, List.drop_length_add_append, List.take_length_add_append, flat_append]
    simp
  | case3 f rest => exact absurd hp (by simp [Paired])
  | case4 p rest hne _ ih =>
    cases p with
    | operator op => exact ih es hp hh
    | function f => simp [Paired] at hp
    | paren t base arg =>
      have hne' : ∀ f rest', rest ≠ .function f :: rest' := fun f rest' => hne t base arg f rest' rfl
      rw [trace_paren hne', trace_paren hne']
      obtain ⟨hba, han, hrest⟩ := hh
      have hfloor := hrest.floor_le
      exact ih es ((paired_paren hne').mp hp) (hrest.mono (by omega))

structure Traced (b : Builder) (ts : List Token) : Prop where
  heights : Heights b.pending b.operands.length
  paired : Paired b.pending
  trace_eq : trace b.operands b.pending = ts.filter (·.kind ≠ .operator)

namespace Traced

variable {b b' : Builder} {t : Token} {ts : List Token}

lemma applies (h : Traced b ts) (hr : Applies b b') : Traced b' ts := by
  have hheights := h.heights.applies hr
  obtain @⟨op, l, r, operands, pending, calls, hfloor⟩ := hr
  have hp : Paired pending := h.paired
  have hh : Heights pending (operands.length + 1 + 1) := h.heights
  refine ⟨hheights, hp, ?_⟩
  have htrace : trace (r :: l :: operands) pending = ts.filter (·.kind ≠ .operator) := h.trace_eq
  have hl := trace_append [r, l] hp (hh.mono hfloor)
  have hb := trace_append [.binary op l r] hp (hh.mono hfloor)
  rw [← htrace]
  simpa using hb.trans (by simpa using hl.symm)

lemma reduces (h : Traced b ts) (hr : Reduces b b') : Traced b' ts := by
  induction hr with
  | refl => exact h
  | tail _ hstep ih => exact ih.applies hstep

lemma operand (h : Traced b ts) (ht : t.IsOperand) : Traced (b.pushOperand t) (ts ++ [t]) := by
  refine ⟨h.heights.operand, h.paired, ?_⟩
  have htrace := trace_append [.leaf t] h.paired h.heights
  simp only [List.singleton_append, flat_cons, flat_nil, List.nil_append, operandTokens_leaf] at htrace
  simp only [pushOperand, htrace, h.trace_eq, List.filter_append]
  simp [ht.1]

lemma of_operator (h : Traced b' ts) (ht : t.kind = .operator) : Traced b' (ts ++ [t]) :=
  ⟨h.heights, h.paired, by simp [h.trace_eq, ht]⟩

lemma openParen (h : Traced b ts) (ht : t.IsSymbol "(") : Traced (b.openParen t) (ts ++ [t]) := by
  have hne := h.paired.ne_function
  refine of_operator ⟨⟨Nat.le_refl _, Nat.le_refl _, h.heights⟩, ?_, ?_⟩ ht.1
  · exact (paired_paren hne).mpr h.paired
  · exact (trace_paren hne).trans h.trace_eq

variable {paren : Token} {operands : List Expr} {base arg : Nat} {pending : List Pending}
  {calls calls' : List Nat}

lemma closeGroup (h : Traced ⟨operands, .paren paren base arg :: pending, calls⟩ ts)
    (hne : ∀ f rest, pending ≠ .function f :: rest) : Traced ⟨operands, pending, calls'⟩ ts := by
  obtain ⟨hh, hp, htrace⟩ := h
  exact ⟨hh.leave, (paired_paren hne).mp hp, (trace_paren hne).symm.trans htrace⟩

lemma moveArgument (h : Traced ⟨operands, .paren paren base arg :: pending, calls⟩ ts) :
    Traced ⟨operands, .paren paren base operands.length :: pending, calls'⟩ ts := by
  obtain ⟨hh, hp, htrace⟩ := h
  refine ⟨hh.moveArgument, ?_, ?_⟩
  all_goals
    rcases pending with _ | ⟨_ | _ | _, _⟩
    · assumption
    all_goals assumption

lemma closeCall {f : Token}
    (h : Traced ⟨operands, .paren paren base arg :: .function f :: pending, calls⟩ ts) :
    Traced ⟨.call f (operands.take (operands.length - base)).reverse ::
      operands.drop (operands.length - base), pending, calls'⟩ ts := by
  obtain ⟨hheights, hp, htrace⟩ := h
  have hp : Paired pending := hp
  have hh : Heights pending (operands.drop (operands.length - base)).length := hheights.drop
  refine ⟨hh.operand, hp, ?_⟩
  have happend := trace_append [.call f (operands.take (operands.length - base)).reverse] hp hh
  rw [← htrace]
  simpa [trace, flat] using happend

lemma pushes (h : Traced b ts) (hp : Pushes b t b') (ht : t.kind ≠ .function) :
    Traced b' (ts ++ [t]) := by
  cases hp with
  | operand ho => exact h.operand ho
  | function hf => exact absurd hf ht
  | openParen hs => exact h.openParen hs
  | operator hs hr _ =>
    have h' := h.reduces hr
    exact of_operator ⟨h'.heights, h'.paired, h'.trace_eq⟩ hs.1
  | comma hs hr => exact of_operator (h.reduces hr).moveArgument hs.1
  | strayComma hs hr _ _ => exact of_operator (h.reduces hr) hs.1
  | closeGroup hs hr hne => exact of_operator ((h.reduces hr).closeGroup hne) hs.1
  | closeCall hs hr _ _ => exact of_operator (h.reduces hr).closeCall hs.1

lemma openCall {f lp : Token} (h : Traced b ts) (hf : f.kind = .function) (hlp : lp.IsSymbol "(") :
    Traced ((b.pushFunction f).openParen lp) (ts ++ [f, lp]) := by
  refine ⟨⟨Nat.le_refl _, Nat.le_refl _, h.heights⟩, h.paired, ?_⟩
  simp only [Builder.openParen, pushFunction, trace, Nat.sub_self, List.drop_zero, List.take_zero,
    flat_nil, h.trace_eq, List.filter_append]
  simp [hf, hlp.1]

lemma runs {ts' : List Token} (hc : Token.Called ts') (h : Traced b ts) (hr : Runs b ts' b') :
    Traced b' (ts ++ ts') := by
  induction hc generalizing b ts with
  | nil =>
    cases hr
    simpa using h
  | cons ht _ ih =>
    obtain _ | ⟨hp, hr⟩ := hr
    simpa using ih (h.pushes hp ht) hr
  | @call f paren us hf hparen _ ih =>
    -- between a function and its parenthesis the stack is not paired, so both go in one step
    obtain _ | ⟨hp, _ | ⟨hp', hr⟩⟩ := hr
    have hcall := h.openCall hf hparen
    rw [hp.eq_pushFunction hf] at hp'
    rw [hp'.eq_openParen hparen] at hr
    simpa using ih hcall hr

end Traced

lemma operandTokens_of_ofTokens {ts : List Token} {e : Expr} (hc : Token.Called ts)
    (h : ofTokens ts = .ok e) : e.operandTokens = ts.filter (·.kind ≠ .operator) := by
  obtain ⟨b, calls, hruns, hr⟩ := ofTokens_eq_ok h
  have hstart : Traced ({} : Builder) [] := ⟨trivial, trivial, rfl⟩
  have hend := (Traced.runs hc hstart hruns).reduces hr
  simpa [trace] using hend.trace_eq

end Builder

end FormulaAudit.Expr
