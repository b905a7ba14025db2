import FormulaAudit.Text.Case

/-! White space, comments, strings and keys of TOML. A reader gives what it read and the rest. -/

namespace FormulaAudit.Toml

abbrev Reader (α : Type) := List Char → Option (α × List Char)

def isSpace (c : Char) : Bool :=
  c == ' ' || c == '\t'

def skipSpace (cs : List Char) : List Char :=
  cs.dropWhile isSpace

def isVisible (c : Char) : Bool :=
  c == '\t' || (decide (0x20 ≤ c.toNat) && c.toNat != 0x7f)

def afterBreak : List Char → Option (List Char)
  | '\n' :: cs => some cs
  | '\r' :: '\n' :: cs => some cs
  | _ => none

def afterLine (cs : List Char) : Option (List Char) :=
  let rest :=
    match skipSpace cs with
    | '#' :: ds => ds.dropWhile isVisible
    | ds => ds
  match rest with
  | [] => some []
  | ds => afterBreak ds

def skipLines (inComment : Bool) : List Char → List Char
  | [] => []
  | '\n' :: cs => skipLines false cs
  | '\r' :: '\n' :: cs => skipLines false cs
  | c :: cs =>
    if inComment then
      if isVisible c then skipLines true cs else c :: cs
    else if isSpace c then skipLines false cs
    else if c == '#' then skipLines true cs
    else c :: cs

def hexDigit? (c : Char) : Option Nat :=
  if c.isDigit then some (c.toNat - '0'.toNat)
  else if 'a' ≤ c ∧ c ≤ 'f' then some (c.toNat - 'a'.toNat + 10)
  else if 'A' ≤ c ∧ c ≤ 'F' then some (c.toNat - 'A'.toNat + 10)
  else none

def charOfCode? (n : Nat) : Option Char :=
  if h : n.isValidChar then some (Char.ofNatAux n h) else none

def shortEscape? (c : Char) : Option Char :=
  match c with
  | 'b' => some '\x08'
  | 't' => some '\t'
  | 'n' => some '\n'
  | 'f' => some '\x0c'
  | 'r' => some '\r'
  | '"' => some '"'
  | '\\' => some '\\'
  | _ => none

inductive EscapeState
  | plain
  | escape
  | code (digits value : Nat)
  /-- After a backslash and space, before the line break that has to follow. -/
  | lineEnd
  /-- After an escaped line break: space and further line breaks are dropped. -/
  | trimming

def prepend (c : Char) (r : Option (List Char × List Char)) : Option (List Char × List Char) :=
  r.map fun p => (c :: p.1, p.2)

def basicString (state : EscapeState) : Reader (List Char)
  | [] => none
  | c :: cs =>
    match state with
    | .escape =>
      match shortEscape? c with
      | some d => prepend d (basicString .plain cs)
      | none =>
        if c == 'u' then basicString (.code 4 0) cs
        else if c == 'U' then basicString (.code 8 0) cs
        else none
    | .code digits value =>
      match hexDigit? c with
      | none => none
      | some d =>
        if digits ≤ 1 then
          match charOfCode? (value * 16 + d) with
          | some e => prepend e (basicString .plain cs)
          | none => none
        else basicString (.code (digits - 1) (value * 16 + d)) cs
    | _ =>
      if c == '"' then some ([], cs)
      else if c == '\\' then basicString .escape cs
      else if isVisible c then prepend c (basicString .plain cs)
      else none

def literalString (cs : List Char) : Option (List Char × List Char) :=
  match cs.dropWhile fun c => isVisible c && c != '\x27' with
  | '\x27' :: rest => some (cs.takeWhile fun c => isVisible c && c != '\x27', rest)
  | _ => none

/-- The end of a string over several lines, after the three quotes that close it: up to two more
quotes belong to the string. -/
def closeQuotes (quote : Char) : List Char → List Char × List Char
  | c :: d :: cs =>
    if c == quote then
      if d == quote then ([quote, quote], cs) else ([quote], d :: cs)
    else ([], c :: d :: cs)
  | [c] => if c == quote then ([quote], []) else ([], [c])
  | [] => ([], [])

def basicLines (state : EscapeState) : Reader (List Char)
  | [] => none
  | '"' :: '"' :: '"' :: cs =>
    match state with
    | .plain => some (closeQuotes '"' cs)
    | .trimming => some (closeQuotes '"' cs)
    | .escape => prepend '"' (basicLines .plain ('"' :: '"' :: cs))
    | _ => none
  | '\r' :: '\n' :: cs =>
    match state with
    | .plain => prepend '\n' (basicLines .plain cs)
    | .code _ _ => none
    | _ => basicLines .trimming cs
  | c :: cs =>
    match state with
    | .escape =>
      match shortEscape? c with
      | some d => prepend d (basicLines .plain cs)
      | none =>
        if c == 'u' then basicLines (.code 4 0) cs
        else if c == 'U' then basicLines (.code 8 0) cs
        else if c == '\n' then basicLines .trimming cs
        else if isSpace c then basicLines .lineEnd cs
        else none
    | .code digits value =>
      match hexDigit? c with
      | none => none
      | some d =>
        if digits ≤ 1 then
          match charOfCode? (value * 16 + d) with
          | some e => prepend e (basicLines .plain cs)
          | none => none
        else basicLines (.code (digits - 1) (value * 16 + d)) cs
    | .lineEnd =>
      if c == '\n' then basicLines .trimming cs
      else if isSpace c then basicLines .lineEnd cs
      else none
    | .trimming =>
      if c == '\n' || isSpace c then basicLines .trimming cs
      else if c == '\\' then basicLines .escape cs
      else if isVisible c then prepend c (basicLines .plain cs)
      else none
    | .plain =>
      if c == '\\' then basicLines .escape cs
      else if c == '\n' || isVisible c then prepend c (basicLines .plain cs)
      else none

def literalLines : Reader (List Char)
  | [] => none
  | '\x27' :: '\x27' :: '\x27' :: cs => some (closeQuotes '\x27' cs)
  | '\r' :: '\n' :: cs => prepend '\n' (literalLines cs)
  | c :: cs => if c == '\n' || isVisible c then prepend c (literalLines cs) else none

def dropBreak (cs : List Char) : List Char :=
  (afterBreak cs).getD cs

def string (cs : List Char) : Option (String × List Char) :=
  let read :=
    match cs with
    | '"' :: '"' :: '"' :: ds => basicLines .plain (dropBreak ds)
    | '\x27' :: '\x27' :: '\x27' :: ds => literalLines (dropBreak ds)
    | '"' :: ds => basicString .plain ds
    | '\x27' :: ds => literalString ds
    | _ => none
  read.map fun p => (.ofList p.1, p.2)

def isBareKey (c : Char) : Bool :=
  c.isAlpha || c.isDigit || c == '-' || c == '_'

def keyPart (cs : List Char) : Option (String × List Char) :=
  match cs with
  | '"' :: ds => (basicString .plain ds).map fun p => (.ofList p.1, p.2)
  | '\x27' :: ds => (literalString ds).map fun p => (.ofList p.1, p.2)
  | _ =>
    let bare := cs.takeWhile isBareKey
    if bare.isEmpty then none else some (.ofList bare, cs.dropWhile isBareKey)

end FormulaAudit.Toml
