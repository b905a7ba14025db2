import FormulaAudit.Expr.Basic
import FormulaAudit.Formula.Error
import FormulaAudit.Function.Catalogue

/-!
Expressions from tokens, by operator precedence. Finished operands wait on one stack; operators,
open parentheses and functions wait on a second one; a third counts the commas of the calls that
are still open. The newest entry of each stack stands first.
-/

namespace FormulaAudit.Expr

open Formula (Error)

/-- An open parenthesis remembers the height of the operand stack where it was opened and where its
current argument starts. -/
inductive Pending
  | operator (token : Token)
  | paren (token : Token) (operandBase argBase : Nat)
  | function (token : Token)
  deriving DecidableEq, Repr

structure Builder where
  operands : List Expr := []
  pending : List Pending := []
  calls : List Nat := []

namespace Builder

/-- Operands below this height belong to another argument or to an enclosing expression. -/
def floor : List Pending → Nat
  | [] => 0
  | .paren _ _ argBase :: _ => argBase
  | _ :: rest => floor rest

def apply (b : Builder) (op : Token) : Except Error Builder :=
  match b.operands with
  | right :: left :: rest =>
    if b.operands.length < floor b.pending + 2 then
      .error (.missingOperand op.value op.start)
    else
      .ok { b with operands := .binary op left right :: rest }
  | _ => .error (.missingOperand op.value op.start)

def reduce (strength : Nat) (operands : List Expr) (calls : List Nat) :
    List Pending → Except Error Builder
  | .operator op :: rest =>
    if strength ≤ precedence op.value then
      match apply ⟨operands, rest, calls⟩ op with
      | .ok b => reduce strength b.operands calls rest
      | .error e => .error e
    else
      .ok ⟨operands, .operator op :: rest, calls⟩
  | pending => .ok ⟨operands, pending, calls⟩

def reduceTo (strength : Nat) (b : Builder) : Except Error Builder :=
  reduce strength b.operands b.calls b.pending

def pushOperand (b : Builder) (t : Token) : Builder :=
  { b with operands := .leaf t :: b.operands }

def pushFunction (b : Builder) (t : Token) : Builder :=
  { b with pending := .function t :: b.pending, calls := 0 :: b.calls }

def openParen (b : Builder) (t : Token) : Builder :=
  { b with pending := .paren t b.operands.length b.operands.length :: b.pending }

def pushOperator (b : Builder) (t : Token) : Except Error Builder := do
  let b ← b.reduceTo (precedence t.value)
  return { b with pending := .operator t :: b.pending }

def countComma : List Pending → List Nat → List Nat
  | .function _ :: _, commas :: calls => (commas + 1) :: calls
  | _, calls => calls

def separate (b : Builder) : Except Error Builder := do
  let b ← b.reduceTo 0
  match b.pending with
  | .paren t base _ :: rest =>
    return ⟨b.operands, .paren t base b.operands.length :: rest, countComma rest b.calls⟩
  | _ => return b

def finishCall (operands : List Expr) (function : Token) (base commas : Nat) :
    Except Error (List Expr) :=
  let available := operands.length - base
  let arity := Function.arityOf function.value
  if commas + 1 < available then
    .error (.missingOperator function.value)
  else if available < arity.least then
    .error (.tooFewArguments function.value arity.least available)
  else
    let call := .call function (operands.take available).reverse :: operands.drop available
    match arity.most with
    | none => .ok call
    | some most =>
      if most < available then .error (.tooManyArguments function.value most available)
      else .ok call

def closeParen (b : Builder) (t : Token) : Except Error Builder := do
  let b ← b.reduceTo 0
  match b.pending with
  | .paren _ base _ :: .function f :: rest =>
    let operands ← finishCall b.operands f base (b.calls.headD 0)
    return ⟨operands, rest, b.calls.tail⟩
  | .paren _ _ _ :: rest => return { b with pending := rest }
  | _ => throw (.unmatchedParentheses t.start)

def push (b : Builder) (t : Token) : Except Error Builder :=
  match t.kind with
  | .function => .ok (b.pushFunction t)
  | .operator =>
    if t.value = "(" then .ok (b.openParen t)
    else if t.value = ")" then b.closeParen t
    else if t.value = "," then b.separate
    else b.pushOperator t
  | _ => .ok (b.pushOperand t)

def openPosition : Pending → Option Nat
  | .operator _ => none
  | .paren t _ _ => some t.start
  | .function t => some t.stop

def finish (b : Builder) : Except Error Expr := do
  if let some position := b.pending.reverse.findSome? openPosition then
    throw (.unmatchedParentheses position)
  let b ← b.reduceTo 0
  match b.operands with
  | [e] => return e
  | operands => throw (.invalidStructure operands.length)

end Builder

def ofTokens (tokens : List Token) : Except Error Expr := do
  if tokens.isEmpty then
    throw .empty
  let b ← tokens.foldlM Builder.push {}
  b.finish

end FormulaAudit.Expr
