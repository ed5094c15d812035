import Calculator.Builtin
import Calculator.Eval.Assignment

/-!
Evaluating expressions.

`step` evaluates one expression, given how to evaluate those it needs; `solve` ties the knot with fuel,
of which every level of nesting takes one unit.
-/

namespace Calculator

namespace Machine

/-- A binary expression. `&&` and `||` evaluate their right operand only if the left one leaves the
answer open; the other operators evaluate both, left before right. -/
def binary (m : Machine) (op : BinaryOp) (left right : Expr) (frame : FrameId) : Eval Number := do
  let a ← m.solve left frame
  match op with
  | .value op => return op.apply a (← m.solve right frame)
  | .and =>
    if a.isTrue then return .ofBool (← m.solve right frame).isTrue else return .zero
  | .or =>
    if a.isTrue then return .one else return .ofBool (← m.solve right frame).isTrue
  | .xor => return .ofBool (a.isTrue != (← m.solve right frame).isTrue)
  | .sequence => m.solve right frame

def step (registry : Registry) (m : Machine) (expr : Expr) (frame : FrameId) : Eval Number := do
  match expr with
  | .constant value => return value
  | .globalVar name => Eval.readVariable name
  | .localVar name => m.resolve (← Eval.require name frame)
  | .macroRef name args _ => m.invokeMacro name (args.map (Binding.reference · frame)) frame
  | .lambda _ body => Eval.withFrame (.ofLambda frame) (m.solve body)
  | .pointer _ | .localPointer _ => m.readCell expr (← m.address expr frame) frame
  | .assign target value => m.assignment target value frame
  | .binary op left right => m.binary op left right frame
  | .unary op operand => return op.apply (← m.solve operand frame)
  | .call name args => registry.call m name args frame
  | .quote text => return .ofNat text.length

end Machine

/-- What does not change while a session runs: the functions, and whether input may continue from the
last answer. -/
structure Setting where
  registry : Registry
  imply : Bool

namespace Setting

def machine (setting : Setting) (fuel : Nat) (solve : Expr → FrameId → Eval Number) : Machine :=
  ⟨fuel, solve, setting.registry.isFunction, setting.imply⟩

def solve (setting : Setting) : (fuel : Nat) → Expr → FrameId → Eval Number
  | 0, _, _ => Eval.outOfFuel
  | fuel + 1, expr, frame => do
    Eval.tick
    (setting.machine fuel (solve setting fuel)).step setting.registry expr frame

end Setting

end Calculator
