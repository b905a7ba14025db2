import FormulaAudit.Token.Basic

/-! Expressions: operands, binary operators and function calls, each with its own token. -/

namespace FormulaAudit

inductive Expr
  | leaf (token : Token)
  | binary (operator : Token) (left right : Expr)
  | call (function : Token) (arguments : List Expr)
  deriving Repr

namespace Expr

def token : Expr → Token
  | leaf t => t
  | binary t _ _ => t
  | call t _ => t

def children : Expr → List Expr
  | leaf _ => []
  | binary _ l r => [l, r]
  | call _ args => args

def isLeaf : Expr → Bool
  | leaf _ => true
  | _ => false

def precedence (operator : String) : Nat :=
  if operator = ":" then 5
  else if operator = "^" then 4
  else if operator = "*" ∨ operator = "/" then 3
  else if operator = "+" ∨ operator = "-" then 2
  else if operator = "&" then 1
  else 0

end Expr

end FormulaAudit
