import Calculator.Builtin

/-!
Functions that write and read text.
-/

namespace Calculator

namespace Builtin

def writeText (function lineEnd : String) : Handler := fun m args frame => do
  let text ← Argument.text m function args 0 frame
  Eval.write (text ++ lineEnd)
  return .ofNat text.length

def print : Handler := fun m args frame => do
  let values ← Argument.values m args frame
  Eval.writeLine (Text.listString values)
  return .ofNat values.length

/-- `read(p)` reads a line into an array and yields its length, or `-1` if there is no line. -/
def read : Handler := fun m args frame => do
  let pointer ← Argument.pointer "read" args 0
  match ← Eval.readLine with
  | none => return .negativeOne
  | some line =>
    let cells := Text.toCells line
    let _ ← CellArray.allocate m pointer cells frame
    return .ofNat cells.length

def clearOut : Handler := fun _ _ _ => do
  Eval.clear
  return .one

def flush : Handler := fun _ _ _ => return .one

def channelTable : List (String × Builtin) :=
  [("write", ⟨.exact 1, writeText "write" ""⟩),
   ("writeline", ⟨.exact 1, writeText "writeline" "\n"⟩),
   ("print", ⟨.atLeast 1, print⟩),
   ("read", ⟨.exact 1, read⟩),
   ("clearout", ⟨.exact 0, clearOut⟩),
   ("flush", ⟨.exact 0, flush⟩)]

end Builtin

end Calculator
