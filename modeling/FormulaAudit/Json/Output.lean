/-! JSON written over several lines, with two spaces for each level. -/

namespace FormulaAudit.Json

inductive Output
  | boolean (value : Bool)
  | number (text : String)
  | string (text : String)
  | array (items : List Output)
  | object (entries : List (String × Output))

def hexPair (n : Nat) : String :=
  String.ofList (Nat.toDigits 16 (n / 16) ++ Nat.toDigits 16 (n % 16))

def escapedChar (c : Char) : String :=
  match c with
  | '"' => "\\\""
  | '\\' => "\\\\"
  | '\n' => "\\n"
  | '\r' => "\\r"
  | '\t' => "\\t"
  | '\x08' => "\\b"
  | '\x0c' => "\\f"
  | c => if c.toNat < 0x20 then "\\u00" ++ hexPair c.toNat else c.toString

def escaped (s : String) : String :=
  "\"" ++ String.join (s.toList.map escapedChar) ++ "\""

def newLine (level : Nat) : String :=
  "\n" ++ String.ofList (List.replicate (2 * level) ' ')

def block (level : Nat) (opening closing : String) (parts : List String) : String :=
  if parts.isEmpty then opening ++ closing
  else
    opening ++ newLine (level + 1) ++ ("," ++ newLine (level + 1)).intercalate parts ++
      newLine level ++ closing

namespace Output

mutual

def render (level : Nat) : Output → String
  | boolean b => if b then "true" else "false"
  | number text => text
  | string text => escaped text
  | array items => block level "[" "]" (renderItems (level + 1) items)
  | object entries => block level "\x7b" "\x7d" (renderEntries (level + 1) entries)

def renderItems (level : Nat) : List Output → List String
  | [] => []
  | v :: vs => render level v :: renderItems level vs

def renderEntries (level : Nat) : List (String × Output) → List String
  | [] => []
  | (k, v) :: es => (escaped k ++ ": " ++ render level v) :: renderEntries level es

end

def pretty (v : Output) : String :=
  render 0 v

def ofNat (n : Nat) : Output :=
  number (toString n)

def strings (texts : List String) : Output :=
  array (texts.map string)

end Output

end FormulaAudit.Json
