/-!
Records of comma-separated values, as bytes. A field may be quoted from its first byte on; inside,
two quotes stand for one. A line break ends a record, and empty lines are skipped.
-/

namespace FormulaAudit.Csv

abbrev Bytes := List UInt8

abbrev Record := List Bytes

inductive Mode
  | startRecord
  | startField
  | bare
  | quoted
  | afterQuote
  deriving DecidableEq, Repr

/-- A record that is being read; the newest byte and the newest field stand first. -/
structure Partial where
  mode : Mode := .startRecord
  field : Bytes := []
  fields : List Bytes := []

def quote : UInt8 := 0x22

def comma : UInt8 := 0x2c

def isBreak (b : UInt8) : Bool :=
  b == 0x0a || b == 0x0d

namespace Partial

def add (p : Partial) (mode : Mode) (b : UInt8) : Partial :=
  { p with mode, field := b :: p.field }

def endField (p : Partial) : Partial :=
  { mode := .startField, fields := p.field.reverse :: p.fields }

def record (p : Partial) : Record :=
  p.endField.fields.reverse

def next (p : Partial) (b : UInt8) : Partial ⊕ Record :=
  match p.mode with
  | .quoted => if b == quote then .inl { p with mode := .afterQuote } else .inl (p.add .quoted b)
  | .startRecord =>
    if isBreak b then .inl p
    else if b == quote then .inl { p with mode := .quoted }
    else if b == comma then .inl p.endField
    else .inl (p.add .bare b)
  | .startField =>
    if b == quote then .inl { p with mode := .quoted }
    else if b == comma then .inl p.endField
    else if isBreak b then .inr p.record
    else .inl (p.add .bare b)
  | .bare =>
    if b == comma then .inl p.endField
    else if isBreak b then .inr p.record
    else .inl (p.add .bare b)
  | .afterQuote =>
    if b == quote then .inl (p.add .quoted b)
    else if b == comma then .inl p.endField
    else if isBreak b then .inr p.record
    else .inl (p.add .bare b)

end Partial

def recordsFrom (p : Partial) : Bytes → List Record
  | [] => if p.mode = .startRecord then [] else [p.record]
  | b :: bs =>
    match p.next b with
    | .inl p => recordsFrom p bs
    | .inr r => r :: recordsFrom {} bs

def records (bytes : Bytes) : List Record :=
  match bytes with
  | 0xef :: 0xbb :: 0xbf :: rest => recordsFrom {} rest
  | _ => recordsFrom {} bytes

end FormulaAudit.Csv
