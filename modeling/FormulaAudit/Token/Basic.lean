import FormulaAudit.Text.Quoted

/-! Tokens of a formula, with the bytes of the text that they cover. -/

namespace FormulaAudit

inductive Token.Kind
  | number
  | text
  | operator
  | function
  | cellRef
  | rangeRef
  deriving DecidableEq, Repr

def Token.Kind.name : Token.Kind → String
  | .number => "number"
  | .text => "text"
  | .operator => "operator"
  | .function => "function"
  | .cellRef => "cell-ref"
  | .rangeRef => "range-ref"

/-- A token covers the bytes from `start` up to `stop` of the UTF-8 text. -/
structure Token where
  kind : Token.Kind
  value : String
  start : Nat
  stop : Nat
  deriving DecidableEq, Repr

namespace Token

def display (t : Token) : String :=
  t.kind.name ++ " " ++ Text.quoted t.value ++ " " ++ toString t.start ++ ".." ++ toString t.stop

end Token

end FormulaAudit
