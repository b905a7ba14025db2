import FormulaAudit.Expr.Builder
import FormulaAudit.Text.Blank
import FormulaAudit.Token.Scan

/-! Formulas as text: white space around them and one leading `=` do not matter. -/

namespace FormulaAudit.Formula

open Text

def body (s : String) : List Char :=
  match trimChars s.toList with
  | '=' :: cs => cs
  | cs => cs

def tokens (s : String) : List Token :=
  Token.scanFrom 0 (body s)

def parse (s : String) : Except Error Expr :=
  if (body s).all isBlank then .error .empty
  else Expr.ofTokens (tokens s)

end FormulaAudit.Formula
