import Calculator.Eval.Call
import Calculator.Eval.CellArray
import Calculator.Text.Cells

/-!
How functions look at their arguments, which they receive unevaluated.

An argument that is missing or of the wrong form is an error that names the function and the position,
counted from one.
-/

namespace Calculator

namespace Argument

def refuse {α : Type} (function message : String) : Eval α := throw (.evaluation function message)

def refuseForm {α : Type} (function what : String) (index : Nat) : Eval α :=
  refuse function ("expects " ++ what ++ " as argument " ++ toString (index + 1))

def get (function : String) (args : List Expr) (index : Nat) : Eval Expr :=
  match args[index]? with
  | some arg => return arg
  | none => refuse function ("is missing argument " ++ toString (index + 1))

def getForm (accepts : Expr → Bool) (what function : String) (args : List Expr) (index : Nat) :
    Eval Expr := do
  let arg ← get function args index
  if accepts arg then return arg else refuseForm function what index

def pointer : String → List Expr → Nat → Eval Expr := getForm Expr.isAddressable "a pointer"

def callable : String → List Expr → Nat → Eval Expr := getForm Expr.isCallable "a callable"

def assignable : String → List Expr → Nat → Eval Expr := getForm Expr.isAssignable "an assignable"

def quote (function : String) (args : List Expr) (index : Nat) : Eval String := do
  match ← get function args index with
  | .quote text => return text
  | _ => refuseForm function "a quote" index

variable (m : Machine)

def solve (function : String) (args : List Expr) (index : Nat) (frame : FrameId) : Eval Number := do
  m.solve (← get function args index) frame

def text (function : String) (args : List Expr) (index : Nat) (frame : FrameId) : Eval String := do
  match ← get function args index with
  | .quote text => return text
  | arg =>
    if ← m.pointsToMemory arg frame then
      return Text.ofCells (← CellArray.toList m arg frame)
    else refuseForm function "a pointer or a quote" index

def solveAll (args : List Expr) (frame : FrameId) : Eval (List Number) :=
  args.mapM (m.solve · frame)

/-- The array that the first argument points to, or else the values of all arguments. -/
def values (args : List Expr) (frame : FrameId) : Eval (List Number) := do
  match args with
  | [] => return []
  | first :: _ =>
    if ← m.pointsToMemory first frame then CellArray.toList m first frame
    else solveAll m args frame

def stored (args : List Expr) (frame : FrameId) : Eval (List Number) :=
  match args with
  | [.quote text] => return Text.toCells text
  | _ => solveAll m args frame

def callWithElement (callee : Expr) (element : Number) (index : Nat) (frame : FrameId) :
    Eval Number :=
  m.call callee [.constant element, .constant (.ofNat index)] frame frame

end Argument

end Calculator
