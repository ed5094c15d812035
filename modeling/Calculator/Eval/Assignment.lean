import Calculator.Eval.Memory

/-!
Assignment.

What is assigned is a binding: a value, or an expression together with its frame. Locals take it as it
is, so that they may stand for what another local stands for; macros take the expression as their body;
all other targets take the value.
-/

namespace Calculator

namespace Machine

def assign (m : Machine) (target : Expr) (source : Binding) (frame : FrameId) : Eval Number := do
  match target with
  | .globalVar name =>
    let value ← m.resolve source
    Eval.setVariable name value
    return value
  | .localVar name =>
    Eval.bind name source frame
    match source with
    | .value value => return value
    | .reference .. => return .one
  | .macroRef name args definable =>
    if !definable then throw (.macroWithArguments name)
    let body := match source with
      | .value value => .constant value
      | .reference expr _ => expr
    Eval.defineMacro name ⟨body, args.filterMap Expr.alias?⟩
    return .one
  | .pointer _ | .localPointer _ =>
    let value ← m.resolve source
    let address ← m.address target frame
    m.writeCell target address value frame
    return value
  | _ => throw (.notAssignable target.describe)

/-- Prepares a binding for a frame: what refers to a frame above it would outlive that one, so its value
is taken. -/
def settle (m : Machine) (source : Binding) (frame : FrameId) : Eval Binding := do
  match source with
  | .reference expr origin =>
    if frame < origin then return .value (← m.solve expr origin) else return source
  | .value _ => return source

/-- Assigns to what a target refers to in the end, over at most `steps` references: a local to what it
is bound to, and a macro to its body, as long as these can be assigned to. The source is settled in each
frame that a reference leads to. -/
def deepAssignWithin (m : Machine) (settle : Binding → FrameId → Eval Binding) :
    Nat → Expr → Binding → FrameId → Eval Number
  | 0, _, _, _ => Eval.outOfFuel
  | steps + 1, target, source, frame => do
    match target with
    | .localVar name =>
      match (← Eval.session).lookup name frame with
      | some (.reference expr origin) =>
        if expr.isAssignable then
          let source ← settle source origin
          m.deepAssignWithin settle steps expr source origin
        else m.assign target source frame
      | _ => m.assign target source frame
    | .macroRef name _ _ =>
      match (← Eval.session).macro? name with
      | some definition =>
        if definition.body.isAssignable then
          m.deepAssignWithin settle steps definition.body source frame
        else m.assign target source frame
      | none => m.assign target source frame
    | _ => m.assign target source frame

def deepAssign (m : Machine) (target : Expr) (source : Binding) (frame : FrameId) : Eval Number :=
  m.deepAssignWithin m.settle m.fuel target source frame

/-- Evaluates `target = value`. A macro keeps the right side unevaluated; any other target takes what the
right side hands on. -/
def assignment (m : Machine) (target value : Expr) (frame : FrameId) : Eval Number := do
  if !target.isAssignable then throw (.notAssignable target.describe)
  match target with
  | .macroRef .. => m.assign target (.reference value frame) frame
  | _ => m.assign target (← m.handOn value frame) frame

end Machine

end Calculator
