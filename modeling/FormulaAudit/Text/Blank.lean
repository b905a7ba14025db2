import FormulaAudit.Text.Ranges

/-! White space: the characters with the Unicode property White_Space, and trimming. -/

namespace FormulaAudit.Text

def blankRanges : List (Nat × Nat) :=
  [(0x9, 0xd), (0x20, 0x20), (0x85, 0x85), (0xa0, 0xa0), (0x1680, 0x1680), (0x2000, 0x200a),
  (0x2028, 0x2029), (0x202f, 0x202f), (0x205f, 0x205f), (0x3000, 0x3000)]

def isBlank (c : Char) : Bool :=
  inRanges blankRanges c

def trimStart (cs : List Char) : List Char :=
  cs.dropWhile isBlank

def trimEnd (cs : List Char) : List Char :=
  (cs.reverse.dropWhile isBlank).reverse

def trimChars (cs : List Char) : List Char :=
  trimEnd (trimStart cs)

def trim (s : String) : String :=
  .ofList (trimChars s.toList)

def allBlank (s : String) : Bool :=
  s.toList.all isBlank

@[simp]
theorem trimChars_nil : trimChars [] = [] := rfl

theorem toList_trim (s : String) : (trim s).toList = trimChars s.toList := by
  simp [trim]

end FormulaAudit.Text
