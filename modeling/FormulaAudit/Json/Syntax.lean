import FormulaAudit.Text.Utf8

/-! JSON read from bytes. -/

namespace FormulaAudit.Json

abbrev Bytes := List UInt8

/-- A value as far as it matters here: numbers, truth values and null are only recognised. A string
without a text has bytes or escapes that spell none. -/
inductive Input
  | atom
  | string (text : Option String)
  | array (items : List Input)
  | object (entries : List (Option String × Input))

def skipSpace (bs : Bytes) : Bytes :=
  bs.dropWhile fun b => b == 0x20 || b == 0x0a || b == 0x0d || b == 0x09

def isDigitByte (b : UInt8) : Bool :=
  decide (0x30 ≤ b) && decide (b ≤ 0x39)

def afterDigits (bs : Bytes) : Option Bytes :=
  match bs with
  | b :: rest => if isDigitByte b then some (rest.dropWhile isDigitByte) else none
  | [] => none

def afterWhole (bs : Bytes) : Option Bytes :=
  match bs with
  | 0x30 :: rest =>
    match rest.head? with
    | some b => if isDigitByte b then none else some rest
    | none => some rest
  | _ => afterDigits bs

def afterFraction (bs : Bytes) : Option Bytes :=
  match bs with
  | 0x2e :: rest => afterDigits rest
  | _ => some bs

def afterSign (bs : Bytes) : Bytes :=
  match bs with
  | 0x2b :: rest => rest
  | 0x2d :: rest => rest
  | _ => bs

def afterExponent (bs : Bytes) : Option Bytes :=
  match bs with
  | 0x65 :: rest => afterDigits (afterSign rest)
  | 0x45 :: rest => afterDigits (afterSign rest)
  | _ => some bs

def afterNumber (bs : Bytes) : Option Bytes :=
  let unsigned :=
    match bs with
    | 0x2d :: rest => rest
    | _ => bs
  ((afterWhole unsigned).bind afterFraction).bind afterExponent

def hexByte? (b : UInt8) : Option Nat :=
  if isDigitByte b then some (b.toNat - 0x30)
  else if 0x61 ≤ b ∧ b ≤ 0x66 then some (b.toNat - 0x61 + 10)
  else if 0x41 ≤ b ∧ b ≤ 0x46 then some (b.toNat - 0x41 + 10)
  else none

def shortEscape? (b : UInt8) : Option UInt8 :=
  match b with
  | 0x22 => some 0x22
  | 0x5c => some 0x5c
  | 0x2f => some 0x2f
  | 0x62 => some 0x08
  | 0x66 => some 0x0c
  | 0x6e => some 0x0a
  | 0x72 => some 0x0d
  | 0x74 => some 0x09
  | _ => none

inductive Piece
  | byte (b : UInt8)
  | unit (code : Nat)
  deriving DecidableEq, Repr

inductive StringState
  | plain
  | escape
  | code (digits value : Nat)

def prepend (p : Piece) (r : Option (List Piece × Bytes)) : Option (List Piece × Bytes) :=
  r.map fun q => (p :: q.1, q.2)

def pieces (state : StringState) : Bytes → Option (List Piece × Bytes)
  | [] => none
  | b :: bs =>
    match state with
    | .plain =>
      if b == 0x22 then some ([], bs)
      else if b == 0x5c then pieces .escape bs
      else if b < 0x20 then none
      else prepend (.byte b) (pieces .plain bs)
    | .escape =>
      if b == 0x75 then pieces (.code 4 0) bs
      else
        match shortEscape? b with
        | some e => prepend (.byte e) (pieces .plain bs)
        | none => none
    | .code digits value =>
      match hexByte? b with
      | none => none
      | some d =>
        if digits ≤ 1 then prepend (.unit (value * 16 + d)) (pieces .plain bs)
        else pieces (.code (digits - 1) (value * 16 + d)) bs

def isHighUnit (n : Nat) : Bool :=
  decide (0xd800 ≤ n) && decide (n < 0xdc00)

def isLowUnit (n : Nat) : Bool :=
  decide (0xdc00 ≤ n) && decide (n < 0xe000)

/-- The bytes of a string; two units may pair up to one character, and none may stand alone that
needs a partner. -/
def pieceBytes : List Piece → Option Bytes
  | [] => some []
  | .byte b :: ps => (pieceBytes ps).map (b :: ·)
  | .unit n :: ps =>
    if isHighUnit n then
      match ps with
      | .unit m :: qs =>
        if isLowUnit m then
          let c := Char.ofNat (0x10000 + (n - 0xd800) * 0x400 + (m - 0xdc00))
          (pieceBytes qs).map (c.toString.toUTF8.toList ++ ·)
        else none
      | _ => none
    else if isLowUnit n then none
    else (pieceBytes ps).map ((Char.ofNat n).toString.toUTF8.toList ++ ·)

def stringText (bs : Bytes) : Option (Option String × Bytes) :=
  (pieces .plain bs).map fun p => ((pieceBytes p.1).bind Text.ofUtf8?, p.2)

def afterWord : Bytes → Bytes → Option Bytes
  | [], bs => some bs
  | _ :: _, [] => none
  | w :: ws, b :: bs => if w == b then afterWord ws bs else none

abbrev Reader (α : Type) := Bytes → Option (α × Bytes)

/-- Items with commas between them, up to the byte `close`; at most `fuel` items are read. -/
def items {α : Type} (item : Reader α) (close : UInt8) : Nat → Reader (List α)
  | 0, _ => none
  | fuel + 1, bs => do
    let (a, rest) ← item bs
    match skipSpace rest with
    | 0x2c :: rest =>
      let (as, rest) ← items item close fuel rest
      return (a :: as, rest)
    | b :: rest => if b == close then return ([a], rest) else none
    | [] => none

def container {α : Type} (item : Reader α) (close : UInt8) (bs : Bytes) : Option (List α × Bytes) :=
  match skipSpace bs with
  | b :: rest =>
    if b == close then some ([], rest) else items item close (rest.length + 1) (b :: rest)
  | [] => none

def entry (value : Reader Input) (bs : Bytes) : Option ((Option String × Input) × Bytes) :=
  match skipSpace bs with
  | 0x22 :: rest => do
    let (name, rest) ← stringText rest
    match skipSpace rest with
    | 0x3a :: rest =>
      let (v, rest) ← value rest
      return ((name, v), rest)
    | _ => none
  | _ => none

def value : Nat → Reader Input
  | 0, _ => none
  | depth + 1, bs =>
    match skipSpace bs with
    | 0x22 :: rest => (stringText rest).map fun p => (.string p.1, p.2)
    | 0x5b :: rest => (container (value depth) 0x5d rest).map fun p => (.array p.1, p.2)
    | 0x7b :: rest => (container (entry (value depth)) 0x7d rest).map fun p => (.object p.1, p.2)
    | 0x6e :: rest => (afterWord [0x75, 0x6c, 0x6c] rest).map (.atom, ·)
    | 0x74 :: rest => (afterWord [0x72, 0x75, 0x65] rest).map (.atom, ·)
    | 0x66 :: rest => (afterWord [0x61, 0x6c, 0x73, 0x65] rest).map (.atom, ·)
    | rest => (afterNumber rest).map (.atom, ·)

def parse (bs : Bytes) : Option Input :=
  match value (bs.length + 1) bs with
  | some (v, rest) => if (skipSpace rest).isEmpty then some v else none
  | none => none

end FormulaAudit.Json
