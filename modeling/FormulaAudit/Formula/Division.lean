import FormulaAudit.Address.Cell
import FormulaAudit.Text.Digit
import FormulaAudit.Text.Word

/-!
Divisions that may divide by zero, found in the raw text of a formula: by a zero, by a cell or by a
parenthesis, unless the formula catches errors with `IFERROR` or `IFNA` anywhere.
-/

namespace FormulaAudit.Formula

namespace Division

open Text
open Address (splitMarker)

def startsWithZero (cs : List Char) : Bool :=
  match cs.head? with
  | some '0' =>
    let rest :=
      match cs.dropWhile (· == '0') with
      | '.' :: ds => ds.dropWhile (· == '0')
      | ds => ds
    match rest with
    | [] => true
    | c :: _ => !isDecimal c && c != '.'
  | _ => false

def startsWithCell (cs : List Char) : Bool :=
  let body := (splitMarker cs).2
  let digits := (splitMarker (body.dropWhile Char.isAlpha)).2
  !(body.takeWhile Char.isAlpha).isEmpty &&
    match digits with
    | [] => false
    | c :: _ => isDecimal c

def startsWithParen (cs : List Char) : Bool :=
  cs.head? == some '('

def isSuspect (divisor : List Char) : Bool :=
  startsWithZero divisor || startsWithCell divisor || startsWithParen divisor

def hasSuspect : List Char → Bool
  | [] => false
  | c :: cs => (c == '/' && isSuspect (trimStart cs)) || hasSuspect cs

def afterWord : List Char → List Char → Option (List Char)
  | [], cs => some cs
  | _ :: _, [] => none
  | w :: ws, c :: cs => if c.toUpper == w then afterWord ws cs else none

def startsWithGuard (cs : List Char) : Bool :=
  ["IFERROR", "IFNA"].any fun word =>
    match afterWord word.toList cs with
    | some rest => startsWithParen (trimStart rest)
    | none => false

/-- A guard counts where a word can start: at the start of the text, or after a character that
belongs to no word. -/
def hasGuard (wordMayStart : Bool) : List Char → Bool
  | [] => false
  | c :: cs => (wordMayStart && startsWithGuard (c :: cs)) || hasGuard (!isWord c) cs

end Division

def mayDivideByZero (s : String) : Bool :=
  Division.hasSuspect s.toList && !Division.hasGuard true s.toList

end FormulaAudit.Formula
