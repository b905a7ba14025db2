/-! Issues: what the checks report, and where. -/

namespace FormulaAudit

inductive Issue.Kind
  | formula
  | data
  | style
  deriving DecidableEq, Repr

def Issue.Kind.name : Issue.Kind → String
  | .formula => "formula"
  | .data => "data"
  | .style => "style"

inductive Severity
  | error
  | warning
  | info
  deriving DecidableEq, Repr

namespace Severity

def name : Severity → String
  | error => "error"
  | warning => "warning"
  | info => "info"

def rank : Severity → Nat
  | error => 0
  | warning => 1
  | info => 2

def sort (severities : List Severity) : List Severity :=
  severities.mergeSort fun a b => decide (a.rank ≤ b.rank)

end Severity

structure Issue where
  kind : Issue.Kind
  severity : Severity
  sheet : String
  cell : String
  message : String
  suggestion : Option String := none
  deriving DecidableEq, Repr

namespace Issue

def isError (i : Issue) : Bool :=
  i.severity == .error

def display (i : Issue) : String :=
  i.sheet ++ "!" ++ i.cell ++ ": " ++ i.severity.name ++ " [" ++ i.kind.name ++ "] " ++ i.message ++
    match i.suggestion with
    | some s => " (" ++ s ++ ")"
    | none => ""

end Issue

end FormulaAudit
