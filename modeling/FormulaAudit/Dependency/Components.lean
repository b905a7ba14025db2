import Std.Data.HashMap

/-!
Strongly connected components by one depth-first pass. Vertices are numbered as they are reached
and stay on a stack until the component they belong to is complete.
-/

namespace FormulaAudit.Dependency

namespace Components

variable {α : Type} [BEq α] [Hashable α]

/-- A vertex that has been reached: with its number while its component is open. -/
inductive Mark
  | active (number : Nat)
  | settled
  deriving DecidableEq, Repr

structure State (α : Type) [BEq α] [Hashable α] where
  count : Nat := 0
  marks : Std.HashMap α Mark := {}
  stack : List α := []
  components : List (List α) := []

namespace State

def enter (s : State α) (v : α) : State α :=
  { s with
    count := s.count + 1
    marks := s.marks.insert v (.active s.count)
    stack := v :: s.stack }

def close (s : State α) (v : α) : State α :=
  let component := s.stack.takeWhile (· != v) ++ [v]
  { s with
    marks := component.foldl (fun marks w => marks.insert w .settled) s.marks
    stack := (s.stack.dropWhile (· != v)).tail
    components := component :: s.components }

end State

def scan (visit : α → State α → Nat × State α) : List α → Nat → State α → Nat × State α
  | [], low, s => (low, s)
  | w :: ws, low, s =>
    match s.marks[w]? with
    | some (.active number) => scan visit ws (min low number) s
    | some .settled => scan visit ws low s
    | none =>
      let (number, s) := visit w s
      scan visit ws (min low number) s

/-- Visits `v` and all that it reaches; gives the least number reached. The vertices entered on the
way to `v` are at most `depth` fewer than all vertices. -/
def visit (edges : α → List α) : (depth : Nat) → α → State α → Nat × State α
  | 0, _, s => (s.count, s)
  | depth + 1, v, s =>
    let (low, s') := scan (visit edges depth) (edges v) s.count (s.enter v)
    if low < s.count then (low, s') else (s.count, s'.close v)

def visitAll (edges : α → List α) (depth : Nat) (s : State α) (v : α) : State α :=
  if s.marks.contains v then s else (visit edges depth v s).2

end Components

variable {α : Type} [BEq α] [Hashable α]

/-- The strongly connected components of the vertices, each after those that it reaches. -/
def components (vertices : List α) (edges : α → List α) : List (List α) :=
  (vertices.foldl (Components.visitAll edges vertices.length) {}).components.reverse

end FormulaAudit.Dependency
