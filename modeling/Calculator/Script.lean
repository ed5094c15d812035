import Calculator.Engine
import Calculator.Text.Lines

/-!
Scripts: lines that run one after the other, and what the command line shows of them.
-/

namespace Calculator

namespace Script

def runLines (fuel : Nat) : Engine → Number → List String → Option (Except Error Number)
  | _, last, [] => some (.ok last)
  | engine, _, line :: lines => do
    match ← engine.run fuel line engine.options.record with
    | (.ok (value, _), engine) => runLines fuel engine value lines
    | (.error fault, _) => return .error fault

def value (fuel : Nat) (text : String) : Option (Except Error Number) :=
  runLines fuel (.new .standard (.withInput .screen [])) .zero (Text.fullLines text)

def report (fuel : Nat) (engine : Engine) (line : String) : Option Engine := do
  let (result, engine) ← engine.run fuel line engine.options.record
  return engine.mapSession fun s =>
    { s with console := match result with
      | .ok (value, _) => s.console.writeLine ("> " ++ value.render)
      | .error fault => s.console.writeError fault.message }

structure Outcome where
  console : Console
  code : UInt8

def runExpression (fuel : Nat) (engine : Engine) (text : String) : Option Outcome := do
  let (result, engine) ← engine.run fuel text engine.options.record
  let console := engine.session.console
  return match result with
    | .ok (value, _) => ⟨console.writeLine value.render, 0⟩
    | .error fault => ⟨console.writeError fault.message, 1⟩

def runReports (fuel : Nat) (engine : Engine) (text : String) : Option Outcome := do
  let engine ← (Text.fullLines text).foldlM (report fuel) engine
  return ⟨engine.session.console, 0⟩

def missingFile (path : String) : Outcome :=
  ⟨(Console.withInput .screen []).writeError
    ("Failed to read the input file '" ++ path ++ "'. Perhaps this file does not exist?"), 1⟩

/-- The lines that `read` finds on a standard input that holds a text. -/
def inputLines (text : String) : List String := (Text.lines text).map Text.dropLineEnd

def screenEngine (input : String) : Engine :=
  .new .standard (.withInput .screen (inputLines input))

end Script

end Calculator
