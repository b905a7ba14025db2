import FormulaAudit.Token.Basic
import FormulaAudit.Text.Case

/-! The longest lexeme that starts with a given character. -/

namespace FormulaAudit

open Text

structure Lexeme where
  kind : Token.Kind
  source : List Char
  value : List Char
  deriving DecidableEq, Repr

namespace Lexeme

def plain (kind : Token.Kind) (source : List Char) : Lexeme :=
  ⟨kind, source, source⟩

def singleOperators : List Char :=
  [',', '(', ')', '+', '-', '*', '/', '^', '&', '=', ':']

def joinsComparison (c d : Char) : Bool :=
  (c == '<' && (d == '=' || d == '>')) || (c == '>' && d == '=')

def comparison (c : Char) : List Char → Lexeme
  | [] => plain .operator [c]
  | d :: _ => if joinsComparison c d then plain .operator [c, d] else plain .operator [c]

def text (quote : Char) (cs : List Char) : Lexeme :=
  let body := cs.takeWhile (· != quote)
  let closing := (cs.dropWhile (· != quote)).take 1
  ⟨.text, quote :: (body ++ closing), body⟩

/-- What a number has had so far: its point, its exponent mark, and whether that mark came last. -/
structure NumberState where
  point : Bool := false
  exponent : Bool := false
  atSign : Bool := false

def NumberState.next (s : NumberState) (c : Char) : Option NumberState :=
  if c.isDigit then some { s with atSign := false }
  else if c == '.' && !s.point then some { s with point := true, atSign := false }
  else if (c == 'e' || c == 'E') && !s.exponent then
    some { s with exponent := true, atSign := true }
  else if (c == '+' || c == '-') && s.atSign then some { s with atSign := false }
  else none

def numberRun (s : NumberState) : List Char → List Char
  | [] => []
  | c :: cs =>
    match s.next c with
    | some s' => c :: numberRun s' cs
    | none => []

def number (c : Char) (cs : List Char) : Lexeme :=
  plain .number (c :: numberRun {} cs)

def isNameStart (c : Char) : Bool :=
  c.isAlpha || c == '$'

def isNameChar (c : Char) : Bool :=
  c.isAlpha || c.isDigit || c == '$' || c == '_' || c == ':'

def nameKind (name rest : List Char) : Token.Kind :=
  if name.contains ':' then .rangeRef
  else if rest.head? == some '(' then .function
  else .cellRef

def name (c : Char) (cs : List Char) : Lexeme :=
  let source := c :: cs.takeWhile isNameChar
  plain (nameKind source (cs.dropWhile isNameChar)) source

def first? (c : Char) (cs : List Char) : Option Lexeme :=
  if singleOperators.contains c then some (plain .operator [c])
  else if c == '<' || c == '>' then some (comparison c cs)
  else if c == '"' || c == '\x27' then some (text c cs)
  else if c.isDigit then some (number c cs)
  else if isNameStart c then some (name c cs)
  else none

end Lexeme

end FormulaAudit
