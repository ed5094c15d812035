import Calculator.Script

/-!
The command line.

`--file path` reports every line of a script, an argument by itself is an expression, and without
arguments the lines of the standard input are reported as they arrive. A run that asks for input is
started again with all of the standard input, which it is only then known to need.
-/

namespace Calculator

namespace CommandLine

inductive Request where
  | expression (text : String)
  | file (path : String)
  | interactive
  deriving DecidableEq, Repr

def Request.ofArguments? : List String → Option Request
  | [] => some .interactive
  | ["--file", path] => some (.file path)
  | ["-f", path] => some (.file path)
  | ["--", text] => some (.expression text)
  | [text] => if text.startsWith "-" then none else some (.expression text)
  | _ => none

def usage : String := "usage: calculator [--file PATH] [[--] EXPRESSION]"

/-- More than any run on a machine can use. -/
def fuel : Nat := 1000000000000000000

def printConsole (console : Console) : IO Unit := do
  let stdout ← IO.getStdout
  stdout.putStr console.output
  stdout.flush
  (← IO.getStderr).putStr console.errors

/-- Runs without input, and again with all of it if some was asked for. -/
def finish (run : Engine → Option Script.Outcome) : IO UInt32 := do
  let outcome ← match run (Script.screenEngine "") with
    | some outcome =>
      if outcome.console.starved then
        pure (run (Script.screenEngine (← (← IO.getStdin).readToEnd)))
      else pure (some outcome)
    | none => pure none
  match outcome with
  | some outcome =>
    printConsole outcome.console
    return outcome.code.toUInt32
  | none => return 1

partial def interact (engine : Engine) : IO UInt32 := do
  let line ← (← IO.getStdin).getLine
  if line.isEmpty then return 0
  match (Text.fullLines line).foldlM (Script.report fuel) engine with
  | none => return 1
  | some engine =>
    printConsole engine.session.console
    interact (engine.mapSession fun s => { s with console := .withInput .screen [] })

def readScript (path : String) : IO (Option String) := do
  try
    return some (← IO.FS.readFile path)
  catch _ => return none

end CommandLine

end Calculator

open Calculator Calculator.CommandLine in
def main (arguments : List String) : IO UInt32 := do
  match Request.ofArguments? arguments with
  | some (.expression text) => finish fun engine => Script.runExpression fuel engine text
  | some (.file path) =>
    match ← readScript path with
    | some text => finish fun engine => Script.runReports fuel engine text
    | none => finish fun _ => some (Script.missingFile path)
  | some .interactive => interact (Script.screenEngine "")
  | none =>
    IO.eprintln usage
    return 2
