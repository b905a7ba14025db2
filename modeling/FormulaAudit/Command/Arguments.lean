import FormulaAudit.Lint.Options
import FormulaAudit.Number.Decimal

/-! The command line: a command, its options and its argument. -/

namespace FormulaAudit.Command

inductive Format
  | text
  | json
  deriving DecidableEq, Repr

structure Check where
  input : String
  sheet : String
  config : Option String
  format : Format
  complexityThreshold : Option Binary64
  largeRangeRows : Option Nat
  search : Option Lint.CycleSearch
  failOnError : Bool
  deriving DecidableEq, Repr

inductive Request
  | version
  | help
  | check (arguments : Check)
  | analyze (formula : String)
  | tokens (formula : String)
  deriving DecidableEq, Repr

inductive Given
  | flag (name : String)
  | value (name text : String)
  | positional (text : String)
  deriving DecidableEq, Repr

structure Grammar where
  flags : List String
  values : List String
  short : List (Char × String)
  hyphens : Bool := false
  path : Bool := false

namespace Grammar

def program : Grammar where
  flags := ["verbose", "help", "version"]
  values := []
  short := [('v', "verbose"), ('h', "help"), ('V', "version")]

def check : Grammar where
  flags := ["verbose", "help", "fail-on-error"]
  values := ["sheet", "config", "format", "complexity-threshold", "large-range-rows", "strategy"]
  short := [('v', "verbose"), ('h', "help"), ('s', "sheet"), ('c', "config"), ('f', "format")]
  path := true

def formula : Grammar where
  flags := ["verbose", "help"]
  values := []
  short := [('v', "verbose"), ('h', "help")]
  hyphens := true

end Grammar

def looksLikeOption (arg : String) : Bool :=
  arg.startsWith "-" && arg != "-"

/-- What one argument gives; its last option may still wait for its value, and it may be broken off
by a letter or a name that is no option. -/
structure Piece where
  given : List Given := []
  awaiting : Option String := none
  broken : Bool := false

def Piece.cons (g : Given) (p : Piece) : Piece :=
  { p with given := g :: p.given }

def longOption (g : Grammar) (body : List Char) : Piece :=
  let name := String.ofList (body.takeWhile (· != '='))
  match body.dropWhile (· != '=') with
  | [] =>
    if g.flags.contains name then { given := [.flag name] }
    else if g.values.contains name then { awaiting := some name }
    else { broken := true }
  | _ :: text =>
    if g.values.contains name then { given := [.value name (.ofList text)] } else { broken := true }

def attachedValue (cs : List Char) : String :=
  match cs with
  | '=' :: rest => .ofList rest
  | _ => .ofList cs

def shortOptions (g : Grammar) : List Char → Piece
  | [] => {}
  | c :: cs =>
    match g.short.lookup c with
    | none => { broken := true }
    | some name =>
      if g.flags.contains name then (shortOptions g cs).cons (.flag name)
      else if cs.isEmpty then { awaiting := some name }
      else { given := [.value name (attachedValue cs)] }

def options (g : Grammar) (arg : List Char) : Piece :=
  match arg with
  | '-' :: '-' :: body => longOption g body
  | _ :: letters => shortOptions g letters
  | [] => { broken := true }

def isHyphenValue (g : Grammar) (arg : List Char) : Bool :=
  g.hyphens &&
    match arg with
    | '-' :: '-' :: body =>
      let name := String.ofList (body.takeWhile (· != '='))
      !(g.flags.contains name || g.values.contains name)
    | '-' :: letters => letters.any fun c => !(g.short.any (·.1 == c))
    | _ => false

def argument (g : Grammar) (arg : String) : Option Given :=
  if g.path && arg.isEmpty then none else some (.positional arg)

/-- The options and arguments in order; `none` where they break the grammar. With `hyphens`, one
argument that looks like an unknown option is taken as the argument. -/
def readArguments (g : Grammar) (hasPositional : Bool) : List String → List (Option Given)
  | [] => []
  | arg :: rest =>
    if arg = "--" then rest.map (argument g)
    else if !looksLikeOption arg || (!hasPositional && isHyphenValue g arg.toList) then
      argument g arg :: readArguments g true rest
    else
      let p := options g arg.toList
      p.given.map some ++
        if p.broken then [none]
        else
          match p.awaiting, rest with
          | none, rest => readArguments g hasPositional rest
          | some _, [] => [none]
          | some name, text :: rest =>
            if looksLikeOption text then [none]
            else some (.value name text) :: readArguments g hasPositional rest

def rows? (s : String) : Option Nat :=
  match Decimal.integer? s.toList with
  | some n => if 0 ≤ n ∧ n ≤ 4294967295 then some n.toNat else none
  | none => none

def format? (s : String) : Option Format :=
  if s = "text" then some .text else if s = "json" then some .json else none

def search? (s : String) : Option Lint.CycleSearch :=
  if s = "path-copy" then some .paths else if s = "scc" then some .components else none

structure State where
  flags : List String := []
  values : List (String × String) := []
  positional : Option String := none

def isValue (name text : String) : Bool :=
  if name = "config" then !text.isEmpty
  else if name = "format" then (format? text).isSome
  else if name = "complexity-threshold" then (Decimal.binary64? text).isSome
  else if name = "large-range-rows" then (rows? text).isSome
  else if name = "strategy" then (search? text).isSome
  else true

namespace State

def add (s : State) : Given → Option State
  | .flag name => if s.flags.contains name then none else some { s with flags := name :: s.flags }
  | .value name text =>
    if s.values.any (·.1 == name) || !isValue name text then none
    else some { s with values := (name, text) :: s.values }
  | .positional text =>
    if s.positional.isSome then none else some { s with positional := some text }

def takeAll (s : State) : List (Option Given) → Option (State ⊕ Request)
  | [] => some (.inl s)
  | none :: _ => none
  | some (.flag "help") :: _ => some (.inr .help)
  | some given :: rest =>
    match s.add given with
    | some s => takeAll s rest
    | none => none

def check? (s : State) : Option Request := do
  let input ← s.positional
  return .check
    { input
      sheet := (s.values.lookup "sheet").getD "Sheet1"
      config := s.values.lookup "config"
      format := ((s.values.lookup "format").bind format?).getD .text
      complexityThreshold := (s.values.lookup "complexity-threshold").bind Decimal.binary64?
      largeRangeRows := (s.values.lookup "large-range-rows").bind rows?
      search := (s.values.lookup "strategy").bind search?
      failOnError := s.flags.contains "fail-on-error" }

end State

def finish (read : Option (State ⊕ Request)) (make : State → Option Request) : Option Request :=
  match read with
  | some (.inl s) => make s
  | some (.inr r) => some r
  | none => none

def commands : List String :=
  ["check", "analyze", "tokens", "help"]

def helpRequest? : List String → Option Request
  | [] => some .help
  | [name] => if commands.contains name then some .help else none
  | _ => none

def commandRequest? (name : String) (args : List String) : Option Request :=
  if name = "check" then
    finish (State.takeAll {} (readArguments .check false args)) State.check?
  else if name = "analyze" then
    finish (State.takeAll {} (readArguments .formula false args)) fun s => s.positional.map .analyze
  else if name = "tokens" then
    finish (State.takeAll {} (readArguments .formula false args)) fun s => s.positional.map .tokens
  else if name = "help" then helpRequest? args
  else none

def programFlags (seen : List String) : List Given → Option (List String ⊕ Request)
  | [] => some (.inl seen)
  | .flag name :: rest =>
    if name = "version" then some (.inr .version)
    else if name = "help" then some (.inr .help)
    else if seen.contains name then none
    else programFlags (name :: seen) rest
  | _ :: _ => none

def requestFrom? (seen : List String) : List String → Option Request
  | [] => none
  | arg :: rest =>
    if !looksLikeOption arg then commandRequest? arg rest
    else
      let p := options .program arg.toList
      match programFlags seen p.given with
      | none => none
      | some (.inr r) => some r
      | some (.inl seen) => if p.broken then none else requestFrom? seen rest

def request? (args : List String) : Option Request :=
  requestFrom? [] args

end FormulaAudit.Command
