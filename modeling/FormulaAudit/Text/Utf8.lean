/-! Texts from bytes. -/

namespace FormulaAudit.Text

def ofUtf8? (bytes : List UInt8) : Option String :=
  String.fromUTF8? bytes.toByteArray

end FormulaAudit.Text
