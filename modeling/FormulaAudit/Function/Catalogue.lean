import FormulaAudit.Text.Case

/-! The known functions: how many arguments they take, and whether they are volatile. -/

namespace FormulaAudit

structure Arity where
  least : Nat
  most : Option Nat
  deriving DecidableEq, Repr

structure Function where
  name : String
  arity : Arity
  isVolatile : Bool
  deriving DecidableEq, Repr

namespace Function

def steady (name : String) (least : Nat) (most : Option Nat) : Function :=
  ⟨name, ⟨least, most⟩, false⟩

def changing (name : String) (least most : Nat) : Function :=
  ⟨name, ⟨least, some most⟩, true⟩

def catalogue : List Function :=
  [steady "SUM" 1 none, steady "AVERAGE" 1 none, steady "COUNT" 1 none,
    steady "MIN" 1 none, steady "MAX" 1 none,
    steady "SUMIF" 2 (some 3), steady "COUNTIF" 2 (some 2), steady "SUMIFS" 3 none,
    steady "COUNTIFS" 2 none, steady "AVERAGEIFS" 3 none,
    steady "IF" 2 (some 3), steady "AND" 2 none, steady "OR" 2 none, steady "NOT" 1 (some 1),
    steady "IFERROR" 2 (some 2), steady "IFNA" 2 (some 2), steady "ISERROR" 1 (some 1),
    steady "VLOOKUP" 3 (some 4), steady "HLOOKUP" 3 (some 4), steady "INDEX" 2 (some 3),
    steady "MATCH" 2 (some 3),
    steady "LEFT" 1 (some 2), steady "RIGHT" 1 (some 2), steady "MID" 3 (some 3),
    changing "NOW" 0 0, changing "TODAY" 0 0, changing "RAND" 0 0, changing "RANDBETWEEN" 2 2,
    changing "INDIRECT" 1 2, changing "OFFSET" 3 5, changing "CELL" 1 2]

def find? (name : String) : Option Function :=
  catalogue.find? fun f => f.name == Text.upper name

def arityOf (name : String) : Arity :=
  match find? name with
  | some f => f.arity
  | none => ⟨1, none⟩

def isVolatileName (name : String) : Bool :=
  match find? name with
  | some f => f.isVolatile
  | none => false

end Function

end FormulaAudit
