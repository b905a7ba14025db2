import FormulaAudit.Token.Lexeme

/-! The tokens of a text. Characters that start no lexeme are skipped, so scanning never fails. -/

namespace FormulaAudit.Token

def byteSize : List Char → Nat
  | [] => 0
  | c :: cs => c.utf8Size + byteSize cs

def scanFrom (pos : Nat) : List Char → List Token
  | [] => []
  | c :: cs =>
    match Lexeme.first? c cs with
    | none => scanFrom (pos + c.utf8Size) cs
    | some l =>
      let stop := pos + byteSize l.source
      ⟨l.kind, .ofList l.value, pos, stop⟩ :: scanFrom stop (cs.drop (l.source.length - 1))
termination_by cs => cs.length
decreasing_by all_goals (simp only [List.length_cons, List.length_drop]; omega)

def scan (s : String) : List Token :=
  scanFrom 0 s.toList

end FormulaAudit.Token
