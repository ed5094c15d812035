import Calculator.Builtin
import Calculator.Eval.Assignment

/-!
Conditions and loops. They choose which arguments are evaluated, and how often.
-/

namespace Calculator

namespace Builtin

def ifThen : Handler := fun m args frame => do
  if (← Argument.solve m "if" args 0 frame).isTrue then Argument.solve m "if" args 1 frame
  else if 2 < args.length then Argument.solve m "if" args 2 frame
  else return .zero

def elseThen : Handler := fun m args frame => do
  if (← Argument.solve m "else" args 0 frame).isTrue then return .one
  else Argument.solve m "else" args 1 frame

/-- The result of the first case equal to the subject; a single argument left over is the default. -/
def switchCases (m : Machine) (subject : Number) (frame : FrameId) : List Expr → Eval Number
  | [] => return .zero
  | [default] => m.solve default frame
  | case :: result :: rest => do
    if subject.equal (← m.solve case frame) then m.solve result frame
    else switchCases m subject frame rest

def switch : Handler := fun m args frame => do
  let subject ← Argument.solve m "switch" args 0 frame
  switchCases m subject frame args.tail

def loopWhile (condition : Eval Number) (round : Eval Unit) (count : Nat) :
    (fuel : Nat) → Eval Number
  | 0 => Eval.outOfFuel
  | fuel + 1 => do
    if (← condition).isTrue then
      round
      loopWhile condition round (count + 1) fuel
    else return .ofNat count

/-- `for(init, cond, step, body)` runs the body before the step and yields the number of rounds. -/
def forLoop : Handler := fun m args frame => do
  let _ ← Argument.solve m "for" args 0 frame
  let round : Eval Unit := do
    let _ ← Argument.solve m "for" args 3 frame
    let _ ← Argument.solve m "for" args 2 frame
  loopWhile (Argument.solve m "for" args 1 frame) round 0 m.fuel

def whileLoop : Handler := fun m args frame => do
  let round : Eval Unit := do
    let _ ← Argument.solve m "while" args 1 frame
  loopWhile (Argument.solve m "while" args 0 frame) round 0 m.fuel

def doWhile : Handler := fun m args frame => do
  let round : Eval Unit := do
    let _ ← Argument.solve m "dowhile" args 1 frame
  round
  loopWhile (Argument.solve m "dowhile" args 0 frame) round 1 m.fuel

def repeatBelow (round : Eval Unit) (bound counter : Number) : (fuel : Nat) → Eval Unit
  | 0 => Eval.outOfFuel
  | fuel + 1 => do
    if counter.less bound then
      round
      repeatBelow round bound (counter.add .one) fuel

def repeatTimes : Handler := fun m args frame => do
  let times ← Argument.solve m "repeat" args 1 frame
  let round : Eval Unit := do
    let _ ← Argument.solve m "repeat" args 0 frame
  repeatBelow round times .zero m.fuel
  return times

def accumulateTo (m : Machine) (combine : Number → Number → Number) (counter : Expr)
    (last : Number) (term : Eval Number) (frame : FrameId) :
    (fuel : Nat) → Number → Eval Number
  | 0, _ => Eval.outOfFuel
  | fuel + 1, total => do
    if (← m.solve counter frame).lessEqual last then
      let total := combine total (← term)
      let next := (← m.solve counter frame).add .one
      let _ ← m.assign counter (.value next) frame
      accumulateTo m combine counter last term frame fuel total
    else return total

/-- `msum(counter = first, last, term)`, and the same for products: the first argument is an assignment
to the counter. -/
def accumulate (function : String) (start : Number) (combine : Number → Number → Number) : Handler :=
  fun m args frame => do
    let first ← Argument.get function args 0
    match first with
    | .assign counter _ =>
      if !counter.isAssignable then throw (.notAssignable counter.describe)
      let _ ← m.solve first frame
      let last ← Argument.solve m function args 1 frame
      accumulateTo m combine counter last (Argument.solve m function args 2 frame) frame
        m.fuel start
    | _ => Argument.refuseForm function "an assignment" 0

def controlTable : List (String × Builtin) :=
  [("if", ⟨.oneOf [2, 3], ifThen⟩),
   ("else", ⟨.exact 2, elseThen⟩),
   ("switch", ⟨.atLeast 1, switch⟩),
   ("for", ⟨.exact 4, forLoop⟩),
   ("while", ⟨.exact 2, whileLoop⟩),
   ("dowhile", ⟨.exact 2, doWhile⟩),
   ("repeat", ⟨.exact 2, repeatTimes⟩),
   ("msum", ⟨.exact 3, accumulate "msum" .zero .add⟩),
   ("mproduct", ⟨.exact 3, accumulate "mproduct" .one .mul⟩)]

end Builtin

end Calculator
