import FormulaAudit.Toml.Number

/-! Documents of TOML 1.0: values, lines, and the tree that the lines build. -/

namespace FormulaAudit.Toml

def nestingLimit : Nat := 80

/-- A key of parts with dots between them; at most `fuel` parts are read. -/
def dottedParts : Nat → List Char → Option (List String × List Char)
  | 0, _ => none
  | fuel + 1, cs => do
    let (part, rest) ← keyPart (skipSpace cs)
    match skipSpace rest with
    | '.' :: ds =>
      let (parts, rest) ← dottedParts fuel ds
      return (part :: parts, rest)
    | rest => return ([part], rest)

def key (cs : List Char) : Option (Key × List Char) := do
  let (parts, rest) ← dottedParts (nestingLimit - 1) cs
  let last ← parts.getLast?
  return (⟨parts.dropLast, last⟩, rest)

def elements (value : Reader Item) : Nat → List Char → Option (List Item × List Char)
  | 0, _ => none
  | fuel + 1, cs =>
    match skipLines false cs with
    | ']' :: rest => some ([], rest)
    | rest => do
      let (item, rest) ← value rest
      match skipLines false rest with
      | ',' :: rest =>
        let (items, rest) ← elements value fuel rest
        return (item :: items, rest)
      | ']' :: rest => return ([item], rest)
      | _ => none

def bracePairs (value : Reader Item) : Nat → Table → List Char → Option (Table × List Char)
  | 0, _, _ => none
  | fuel + 1, t, cs => do
    let (k, rest) ← key cs
    let rest ← afterChar '=' rest
    let (item, rest) ← value (skipSpace rest)
    let t ← t.insertDotted k.last item k.path
    match skipSpace rest with
    | ',' :: rest => bracePairs value fuel t rest
    | '\x7d' :: rest => return (t, rest)
    | _ => none

def braceTable (value : Reader Item) (cs : List Char) : Option (Table × List Char) :=
  match skipSpace cs with
  | '\x7d' :: rest => some ([], rest)
  | rest => bracePairs value rest.length [] rest

def value : Nat → Reader Item
  | depth, cs =>
    match cs with
    | [] => none
    | c :: rest =>
      match c, depth with
      | '[', 0 => none
      | '\x7b', 0 => none
      | '[', depth + 1 => (elements (value depth) cs.length rest).map fun p => (.array p.1, p.2)
      | '\x7b', depth + 1 => (braceTable (value depth) rest).map fun p => (.table .braces p.1, p.2)
      | '"', _ => (string cs).map fun p => (.scalar (.string p.1), p.2)
      | '\x27', _ => (string cs).map fun p => (.scalar (.string p.1), p.2)
      | 't', _ =>
        match cs with
        | 't' :: 'r' :: 'u' :: 'e' :: rest => some (.scalar (.boolean true), rest)
        | _ => none
      | 'f', _ =>
        match cs with
        | 'f' :: 'a' :: 'l' :: 's' :: 'e' :: rest => some (.scalar (.boolean false), rest)
        | _ => none
      | _, _ => numeric cs

inductive Line
  | pair (key : Key) (item : Item)
  | header (key : Key)
  | element (key : Key)

def line (cs : List Char) : Option (Line × List Char) :=
  match cs with
  | '[' :: '[' :: rest => do
    let (k, rest) ← key rest
    let rest ← afterChar ']' rest
    let rest ← afterChar ']' rest
    return (.element k, ← afterLine rest)
  | '[' :: rest => do
    let (k, rest) ← key rest
    let rest ← afterChar ']' rest
    return (.header k, ← afterLine rest)
  | _ => do
    let (k, rest) ← key cs
    let rest ← afterChar '=' rest
    let (item, rest) ← value (nestingLimit - 1) (skipSpace rest)
    return (.pair k item, ← afterLine rest)

def lines : Nat → List Char → Option (List Line)
  | 0, _ => none
  | fuel + 1, cs =>
    match skipLines false cs with
    | [] => some []
    | rest => do
      let (l, rest) ← line rest
      let ls ← lines fuel rest
      return l :: ls

structure Document where
  root : Table := []
  current : List String := []

def Document.add (d : Document) : Line → Option Document
  | .pair k item => do
    let root ← d.root.within (fun t => t.insertDotted k.last item k.path) d.current
    return { d with root }
  | .header k => do
    let root ← d.root.within (·.openTable k.last) k.path
    return ⟨root, k.parts⟩
  | .element k => do
    let root ← d.root.within (·.openElement k.last) k.path
    return ⟨root, k.parts⟩

def parse (s : String) : Option Table := do
  let cs :=
    match s.toList with
    | '\ufeff' :: cs => cs
    | cs => cs
  let ls ← lines (cs.length + 1) cs
  let d ← ls.foldlM Document.add {}
  return d.root

end FormulaAudit.Toml
