import FormulaAudit.Command.Arguments
import FormulaAudit.Lint.Output
import FormulaAudit.Lint.Settings
import FormulaAudit.Workbook.Csv
import FormulaAudit.Workbook.Json

/-! What a command line does, given the files it can read. -/

namespace FormulaAudit.Command

open Text (lower ofUtf8?)

abbrev Files := String → Option (List UInt8)

inductive Failure
  | config (path : String)
  | unsupported (path : String)
  | cannotOpen (path : String)
  | cannotRead (path : String)
  deriving DecidableEq, Repr

def Failure.message : Failure → String
  | .config path => s!"Failed to load config '{path}'"
  | .unsupported path => s!"Unsupported input '{path}': expected a .csv or .json file"
  | .cannotOpen path => s!"Failed to open '{path}'"
  | .cannotRead path => s!"Failed to read '{path}'"

/-- A usage error shows on the exit status only. -/
inductive Outcome
  | done (exit : Nat) (stdout : String)
  | failed (failure : Failure)
  | usage
  deriving DecidableEq, Repr

def Outcome.exit : Outcome → Nat
  | .done exit _ => exit
  | .failed _ => 1
  | .usage => 2

def splitPath (path : List Char) : List (List Char) :=
  path.splitBy fun a b => a != '/' && b != '/'

def fileName? (path : String) : Option (List Char) :=
  ((splitPath path.toList).filter fun part => part != ['/'] && part != ['.']).getLast?

def extension? (path : String) : Option String := do
  let name ← fileName? path
  let after := (name.reverse.takeWhile (· != '.')).reverse
  let before := name.take (name.length - after.length - 1)
  if after.length = name.length || before.isEmpty || name == ['.', '.'] then none
  else some (.ofList after)

inductive InputFormat
  | csv
  | json
  deriving DecidableEq, Repr

def inputFormat? (path : String) : Option InputFormat :=
  match (extension? path).map lower with
  | some "csv" => some .csv
  | some "json" => some .json
  | _ => none

def readWorkbook (files : Files) (path sheet : String) : Except Failure Workbook :=
  match inputFormat? path with
  | none => .error (.unsupported path)
  | some format =>
    match files path with
    | none => .error (.cannotOpen path)
    | some bytes =>
      let workbook :=
        match format with
        | .csv => (Workbook.ofCsv sheet bytes).toOption
        | .json => Workbook.ofJson bytes
      match workbook with
      | some w => .ok w
      | none => .error (.cannotRead path)

def loadOptions (files : Files) : Option String → Except Failure Lint.Options
  | none => .ok {}
  | some path =>
    match ((files path).bind ofUtf8?).bind Lint.Options.ofToml with
    | some o => .ok o
    | none => .error (.config path)

def Check.override (c : Check) (o : Lint.Options) : Lint.Options :=
  { o with
    complexityThreshold := c.complexityThreshold.getD o.complexityThreshold
    largeRangeRows := c.largeRangeRows.getD o.largeRangeRows
    cycleSearch := c.search.getD o.cycleSearch }

def linesText (lines : List String) : String :=
  String.join (lines.map (· ++ "\n"))

def Check.report (c : Check) (files : Files) : Except Failure Lint.Report := do
  let o ← loadOptions files c.config
  let w ← readWorkbook files c.input c.sheet
  return .ofWorkbook (c.override o) w

def Check.run (c : Check) (files : Files) : Outcome :=
  match c.report files with
  | .error e => .failed e
  | .ok r =>
    let stdout :=
      match c.format with
      | .text => linesText r.lines
      | .json => linesText [r.output.pretty]
    .done (if c.failOnError && r.hasErrors then 1 else 0) stdout

def versionLine : String := "sheetlint 0.1.0"

def helpLines : List String :=
  ["Static quality checks for spreadsheet formulas", "",
    "Usage: sheetlint [OPTIONS] <COMMAND>", "",
    "Commands:",
    "  check    Lint a formula dump (.csv or .json) and report issues",
    "  analyze  Print the analysis of one formula as JSON",
    "  tokens   Print the tokens of one formula",
    "  help     Print this message or the help of the given subcommand(s)", "",
    "Options:",
    "  -v, --verbose  Log lint progress to stderr",
    "  -h, --help     Print help",
    "  -V, --version  Print version"]

def Request.run (files : Files) : Request → Outcome
  | .version => .done 0 (linesText [versionLine])
  | .help => .done 0 (linesText helpLines)
  | .check c => c.run files
  | .analyze formula => .done 0 (linesText [(Formula.analyze formula).output.pretty])
  | .tokens formula => .done 0 (linesText ((Token.scan formula).map Token.display))

def run (files : Files) (args : List String) : Outcome :=
  match request? args with
  | some r => r.run files
  | none => .usage

end FormulaAudit.Command
