import FormulaAudit.Command.Run

/-! The program: reads its files, runs the command line and prints what comes of it. -/

namespace FormulaAudit

def readBytes (path : String) : IO (Option (List UInt8)) := do
  try
    return some (← IO.FS.readBinFile path).toList
  catch _ =>
    return none

def pathsOf (args : List String) : List String :=
  match Command.request? args with
  | some (.check c) => c.input :: c.config.toList
  | _ => []

def execute (args : List String) : IO UInt32 := do
  let files ← (pathsOf args).mapM fun path => do return (path, ← readBytes path)
  let outcome := Command.run (fun path => (files.lookup path).join) args
  match outcome with
  | .done _ stdout => IO.print stdout
  | .failed failure => IO.eprintln ("Error: " ++ failure.message)
  | .usage => IO.eprint (Command.linesText Command.helpLines)
  return outcome.exit.toUInt32

end FormulaAudit

def main (args : List String) : IO UInt32 :=
  FormulaAudit.execute args
