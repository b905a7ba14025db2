import FormulaAudit.Number.Binary64

/-!
TOML documents as trees. A table remembers how it came to be, because that decides whether later
lines of the document may still add to it.
-/

namespace FormulaAudit.Toml

/-- A table is opened by a header of its own, implied by the header of a table inside it, made by a
dotted key, or written in braces. -/
inductive Origin
  | header
  | implied
  | dotted
  | braces
  deriving DecidableEq, Repr

inductive Scalar
  | string (text : String)
  | integer (value : Int)
  | float (value : Binary64)
  | boolean (value : Bool)
  | moment
  deriving DecidableEq, Repr

/-- The newest element of an array of tables stands first. -/
inductive Item
  | scalar (value : Scalar)
  | array (items : List Item)
  | table (origin : Origin) (entries : List (String × Item))
  | tables (newest : List (String × Item)) (older : List (List (String × Item)))

abbrev Table := List (String × Item)

namespace Table

def set (key : String) (item : Item) : Table → Table
  | [] => [(key, item)]
  | (k, old) :: rest => if k = key then (k, item) :: rest else (k, old) :: set key item rest

def insertNew (key : String) (item : Item) (t : Table) : Option Table :=
  match t.lookup key with
  | none => some (t ++ [(key, item)])
  | some _ => none

/-- Adds a dotted key. Its parts may go through tables that are open to dotted keys, and have to end
in one made by dotted keys. -/
def insertDotted (key : String) (item : Item) : List String → Table → Option Table
  | [], t => t.insertNew key item
  | part :: path, t =>
    match t.lookup part with
    | none => (insertDotted key item path []).map fun sub => t ++ [(part, .table .dotted sub)]
    | some (.table origin sub) =>
      if origin = .dotted ∨ (origin = .implied ∧ path ≠ []) then
        (insertDotted key item path sub).map fun sub => set part (.table origin sub) t
      else none
    | some (.tables newest older) =>
      if path = [] then none
      else (insertDotted key item path newest).map fun newest => set part (.tables newest older) t
    | some _ => none

def within (change : Table → Option Table) : List String → Table → Option Table
  | [], t => change t
  | part :: path, t =>
    match t.lookup part with
    | none => (within change path []).map fun sub => t ++ [(part, .table .implied sub)]
    | some (.table origin sub) =>
      if origin = .braces then none
      else (within change path sub).map fun sub => set part (.table origin sub) t
    | some (.tables newest older) =>
      (within change path newest).map fun newest => set part (.tables newest older) t
    | some _ => none

def openTable (key : String) (t : Table) : Option Table :=
  match t.lookup key with
  | none => some (t ++ [(key, .table .header [])])
  | some (.table .implied sub) => some (set key (.table .header sub) t)
  | some _ => none

def openElement (key : String) (t : Table) : Option Table :=
  match t.lookup key with
  | none => some (t ++ [(key, .tables [] [])])
  | some (.tables newest older) => some (set key (.tables [] (newest :: older)) t)
  | some _ => none

end Table

structure Key where
  path : List String
  last : String
  deriving DecidableEq, Repr

def Key.parts (k : Key) : List String :=
  k.path ++ [k.last]

end FormulaAudit.Toml
