import FormulaAudit.Text.Printable

/-!
Quoted display of a text: between double quotes, with short escapes for the quote, the backslash
and the common control characters, and code points in hexadecimal for what cannot be shown.
-/

namespace FormulaAudit.Text

def codeEscape (c : Char) : String :=
  "\\u\x7b" ++ String.ofList (Nat.toDigits 16 c.toNat) ++ "\x7d"

def quotedChar (c : Char) : String :=
  match c with
  | '"' => "\\\""
  | '\\' => "\\\\"
  | '\n' => "\\n"
  | '\r' => "\\r"
  | '\t' => "\\t"
  | '\x00' => "\\0"
  | c => if isPrintable c then c.toString else codeEscape c

def quoted (s : String) : String :=
  "\"" ++ String.join (s.toList.map quotedChar) ++ "\""

end FormulaAudit.Text
