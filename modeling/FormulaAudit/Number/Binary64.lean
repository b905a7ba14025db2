/-!
Double-precision numbers as 64-bit words: the nearest one to a fraction, and exact comparison.
-/

namespace FormulaAudit

structure Binary64 where
  bits : UInt64
  deriving DecidableEq, Repr

namespace Binary64

/-- The quotient rounded to the nearest integer, ties to even. -/
def roundDiv (a b : Nat) : Nat :=
  let q := a / b
  let r := a % b
  if b < 2 * r ∨ (2 * r = b ∧ q % 2 = 1) then q + 1 else q

def infinityWord : Nat := 0x7ff0000000000000

def signWord : Nat := 0x8000000000000000

def hiddenBit : Nat := 0x10000000000000

/-- The least exponent `e` that leaves `a / b` below `2 ^ (e + 53)`, but at least -1074. -/
def exponentOf (a b : Nat) : Int :=
  let e : Int := (a.log2 : Int) - b.log2 - 53
  let fits := if 0 ≤ e then a < b <<< (e.toNat + 53) else a <<< (-e).toNat < b <<< 53
  max (if fits then e else e + 1) (-1074)

def nearestWord (a b : Nat) : Nat :=
  if a = 0 then 0
  else
    let e := exponentOf a b
    let m := if 0 ≤ e then roundDiv a (b <<< e.toNat) else roundDiv (a <<< (-e).toNat) b
    min ((e + 1074).toNat <<< 52 + m) infinityWord

def ofWord (negative : Bool) (word : Nat) : Binary64 :=
  ⟨.ofNat (if negative then signWord + word else word)⟩

def ofDecimal (negative : Bool) (digits : Nat) (exponent : Int) : Binary64 :=
  let size : Int := (Nat.toDigits 10 digits).length + exponent
  let word :=
    if digits = 0 ∨ size < -400 then 0
    else if 400 < size then infinityWord
    else if 0 ≤ exponent then nearestWord (digits * Nat.pow 10 exponent.toNat) 1
    else nearestWord digits (Nat.pow 10 (-exponent).toNat)
  ofWord negative word

def ofInt (n : Int) : Binary64 :=
  ofDecimal (decide (n < 0)) n.natAbs 0

def infinity (negative : Bool) : Binary64 :=
  ofWord negative infinityWord

def nan : Binary64 :=
  ofWord false 0x7ff8000000000000

/-- What a word stands for; a finite number is counted in units of `2 ^ (-1074)`. -/
inductive Value
  | finite (units : Int)
  | infinite (negative : Bool)
  | nan
  deriving DecidableEq, Repr

def value (x : Binary64) : Value :=
  let word := x.bits.toNat
  let negative := decide (signWord ≤ word)
  let exponent := word / hiddenBit % 2048
  let fraction := word % hiddenBit
  if exponent = 2047 then
    if fraction = 0 then .infinite negative else .nan
  else
    let units : Nat := if exponent = 0 then fraction else (hiddenBit + fraction) <<< (exponent - 1)
    .finite (if negative then -(units : Int) else units)

def isNan (x : Binary64) : Bool :=
  x.value == .nan

/-- Whether a number of halves is larger than `x`; nothing is larger than a NaN. -/
def isBelowHalves (x : Binary64) (halves : Nat) : Bool :=
  match x.value with
  | .finite units => decide (units < ((halves <<< 1073 : Nat) : Int))
  | .infinite negative => negative
  | .nan => false

end Binary64

end FormulaAudit
