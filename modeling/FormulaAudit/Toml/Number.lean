import FormulaAudit.Number.Decimal
import FormulaAudit.Toml.Item
import FormulaAudit.Toml.Text

/-! Numbers, dates and times of TOML. -/

namespace FormulaAudit.Toml

open Text (digitsValue)

def digitRun (isDig : Char → Bool) : List Char → Option (List Char × List Char)
  | [] => none
  | c :: cs =>
    if isDig c then
      match cs with
      | '_' :: ds => (digitRun isDig ds).map fun p => (c :: p.1, p.2)
      | d :: ds =>
        if isDig d then (digitRun isDig (d :: ds)).map fun p => (c :: p.1, p.2)
        else some ([c], d :: ds)
      | [] => some ([c], [])
    else none

def wholeDigits (cs : List Char) : Option (List Char × List Char) :=
  match cs with
  | '0' :: ds => some (['0'], ds)
  | _ => digitRun Char.isDigit cs

def exponentPart (cs : List Char) : Option (Int × List Char) :=
  let (negative, ds) := Decimal.splitSign cs
  (digitRun Char.isDigit ds).map fun p =>
    (if negative then -(digitsValue p.1 : Int) else digitsValue p.1, p.2)

def integerItem (n : Int) : Option Item :=
  if -0x8000000000000000 ≤ n ∧ n ≤ 0x7fffffffffffffff then some (.scalar (.integer n)) else none

/-- A float may overflow to negative infinity, but not to positive infinity. -/
def floatItem (negative : Bool) (digits : List Char) (exponent : Int) : Option Item :=
  let x := Binary64.ofDecimal negative (digitsValue digits) exponent
  if x = .infinity false then none else some (.scalar (.float x))

def isExponentMark (c : Char) : Bool :=
  c == 'e' || c == 'E'

def decimal (negative : Bool) (cs : List Char) : Option (Item × List Char) := do
  let (whole, rest) ← wholeDigits cs
  let (fraction, rest) ←
    match rest with
    | '.' :: ds => (digitRun Char.isDigit ds).map fun p => (some p.1, p.2)
    | _ => some (none, rest)
  let (exponent, rest) ←
    match rest with
    | c :: ds =>
      if isExponentMark c then (exponentPart ds).map fun p => (some p.1, p.2)
      else some (none, rest)
    | [] => some (none, [])
  match fraction, exponent with
  | none, none =>
    let n : Int := digitsValue whole
    return (← integerItem (if negative then -n else n), rest)
  | _, _ =>
    let fraction := fraction.getD []
    return (← floatItem negative (whole ++ fraction) (exponent.getD 0 - fraction.length), rest)

def radixInteger (radix : Nat) (cs : List Char) : Option (Item × List Char) := do
  let isDig := fun c => match hexDigit? c with
    | some d => decide (d < radix)
    | none => false
  let (digits, rest) ← digitRun isDig cs
  let n := digits.foldl (fun n c => n * radix + (hexDigit? c).getD 0) 0
  return (← integerItem n, rest)

def number (cs : List Char) : Option (Item × List Char) :=
  match cs with
  | '0' :: 'x' :: ds => radixInteger 16 ds
  | '0' :: 'o' :: ds => radixInteger 8 ds
  | '0' :: 'b' :: ds => radixInteger 2 ds
  | _ =>
    let (negative, ds) := Decimal.splitSign cs
    match ds with
    | 'i' :: 'n' :: 'f' :: rest => some (.scalar (.float (.infinity negative)), rest)
    | 'n' :: 'a' :: 'n' :: rest => some (.scalar (.float .nan), rest)
    | _ => decimal negative ds

def fixedDigits (count least most : Nat) (cs : List Char) : Option (Nat × List Char) :=
  let digits := cs.take count
  let n := digitsValue digits
  if digits.length = count ∧ digits.all Char.isDigit ∧ least ≤ n ∧ n ≤ most then
    some (n, cs.drop count)
  else none

def afterChar (c : Char) : List Char → Option (List Char)
  | d :: cs => if d == c then some cs else none
  | [] => none

def daysOf (year month : Nat) : Nat :=
  if month = 2 then
    if year % 4 = 0 ∧ (year % 100 ≠ 0 ∨ year % 400 = 0) then 29 else 28
  else if month = 4 ∨ month = 6 ∨ month = 9 ∨ month = 11 then 30
  else 31

def afterTime (cs : List Char) : Option (List Char) := do
  let (_, cs) ← fixedDigits 2 0 23 cs
  let cs ← afterChar ':' cs
  let (_, cs) ← fixedDigits 2 0 59 cs
  let cs ← afterChar ':' cs
  let (_, cs) ← fixedDigits 2 0 60 cs
  match cs with
  | '.' :: ds =>
    if (ds.takeWhile Char.isDigit).isEmpty then return cs else return ds.dropWhile Char.isDigit
  | _ => return cs

def afterOffset (cs : List Char) : Option (List Char) :=
  match cs with
  | [] => some []
  | c :: ds =>
    if c == 'Z' || c == 'z' then some ds
    else if c == '+' || c == '-' then do
      let (_, ds) ← fixedDigits 2 0 23 ds
      let ds ← afterChar ':' ds
      let (_, ds) ← fixedDigits 2 0 59 ds
      return ds
    else some cs

def afterDate (cs : List Char) : Option (List Char) := do
  let (year, cs) ← fixedDigits 4 0 9999 cs
  let cs ← afterChar '-' cs
  let (month, cs) ← fixedDigits 2 1 12 cs
  let cs ← afterChar '-' cs
  let (_, cs) ← fixedDigits 2 1 (daysOf year month) cs
  return cs

def startsTime (cs : List Char) : Bool :=
  (fixedDigits 2 0 99 cs).any fun p => p.2.head? == some ':'

def startsDate (cs : List Char) : Bool :=
  (fixedDigits 4 0 9999 cs).any fun p => p.2.head? == some '-'

def afterMoment (cs : List Char) : Option (List Char) := do
  let rest ← afterDate cs
  match rest with
  | [] => return []
  | c :: ds =>
    if (c == 'T' || c == 't' || c == ' ') && startsTime ds then
      afterOffset (← afterTime ds)
    else return rest

def numeric (cs : List Char) : Option (Item × List Char) :=
  if startsDate cs then (afterMoment cs).map fun rest => (.scalar .moment, rest)
  else if startsTime cs then (afterTime cs).map fun rest => (.scalar .moment, rest)
  else number cs

end FormulaAudit.Toml
