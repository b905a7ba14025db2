/-! Why a formula has no expression. -/

namespace FormulaAudit.Formula

inductive Error
  | empty
  | unmatchedParentheses (position : Nat)
  | missingOperand (operator : String) (position : Nat)
  | tooFewArguments (function : String) (least actual : Nat)
  | tooManyArguments (function : String) (most actual : Nat)
  | missingOperator (function : String)
  | invalidStructure (operands : Nat)
  deriving DecidableEq, Repr

def Error.message : Error → String
  | .empty => "Empty formula"
  | .unmatchedParentheses _ => "Unmatched parentheses"
  | .missingOperand operator position =>
    s!"Operator '{operator}' at position {position} is missing an operand"
  | .tooFewArguments function least actual =>
    s!"Function {function} requires at least {least} arguments, got {actual}"
  | .tooManyArguments function most actual =>
    s!"Function {function} accepts at most {most} arguments, got {actual}"
  | .missingOperator function => s!"Missing operator or ',' between arguments of {function}"
  | .invalidStructure operands =>
    s!"Invalid formula structure: expected a single expression, found {operands}"

end FormulaAudit.Formula
