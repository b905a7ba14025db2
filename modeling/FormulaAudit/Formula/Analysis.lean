import FormulaAudit.Expr.Walk
import FormulaAudit.Formula.Parse

/-! What is measured of one formula: its references, its calls, its complexity and its faults. -/

namespace FormulaAudit

open Text

structure RepeatedReference where
  reference : String
  occurrences : Nat
  deriving DecidableEq, Repr

def RepeatedReference.message (r : RepeatedReference) : String :=
  "Reference " ++ r.reference ++ " appears " ++ toString r.occurrences ++
    " times in the same formula"

/-- A remark on a formula; repeated references do not make it invalid. -/
inductive Remark
  | rejected (error : Formula.Error)
  | unmatchedParentheses
  | repeated (reference : RepeatedReference)
  deriving DecidableEq, Repr

def Remark.message : Remark → String
  | .rejected error => error.message
  | .unmatchedParentheses => "Unmatched parentheses"
  | .repeated reference => reference.message

structure Analysis where
  isValid : Bool := false
  errors : List Remark := []
  halfUnits : Nat := 0
  volatileFunctions : List String := []
  dependencies : List String := []
  usedRanges : List String := []
  repeatedReferences : List RepeatedReference := []
  deriving DecidableEq, Repr

namespace Analysis

def hasVolatile (a : Analysis) : Bool :=
  !a.volatileFunctions.isEmpty

end Analysis

namespace Expr

def leafValues (kind : Token.Kind) (e : Expr) : List String :=
  e.walk.filterMap fun p =>
    match p.2 with
    | leaf t => if t.kind = kind then some t.value else none
    | _ => none

def volatileFunctions (e : Expr) : List String :=
  e.walk.filterMap fun p =>
    match p.2 with
    | call t _ => if Function.isVolatileName t.value then some (upper t.value) else none
    | _ => none

def dependencies (e : Expr) : List String :=
  (e.leafValues .cellRef).eraseDups

def usedRanges (e : Expr) : List String :=
  (e.leafValues .rangeRef).eraseDups

def repeatedReferences (e : Expr) : List RepeatedReference :=
  let references := e.leafValues .cellRef
  references.eraseDups.filterMap fun r =>
    if 1 < references.count r then some ⟨r, references.count r⟩ else none

def analyze (e : Expr) : Analysis where
  isValid := true
  errors := e.repeatedReferences.map .repeated
  halfUnits := e.halfUnits
  volatileFunctions := e.volatileFunctions
  dependencies := e.dependencies
  usedRanges := e.usedRanges
  repeatedReferences := e.repeatedReferences

end Expr

namespace Formula

/-- The text has as many opening as closing parentheses, literals included. -/
def isBalanced (s : String) : Bool :=
  s.toList.count '(' == s.toList.count ')'

def rejection (balanced : Bool) : Error → Analysis
  | .unmatchedParentheses position => { errors := [.rejected (.unmatchedParentheses position)] }
  | e => { errors := .rejected e :: if balanced then [] else [.unmatchedParentheses] }

def analyze (s : String) : Analysis :=
  match parse s with
  | .error e => rejection (isBalanced s) e
  | .ok e =>
    if isBalanced s then e.analyze
    else { e.analyze with isValid := false, errors := e.analyze.errors ++ [.unmatchedParentheses] }

end Formula

end FormulaAudit
