import Calculator.Eval

/-!
Calls of lambdas, macros and locals that stand for them.

Arguments are bound under their position, counted from zero, and under the names that the callee gives
them. Macros receive their arguments unevaluated; lambdas receive names, pointers, callables and
literals so, and the values of all other expressions.
-/

namespace Calculator

namespace Machine

def bindArguments (index : Nat) : List Binding → List String → FrameId → Eval Unit
  | [], _, _ => return ()
  | binding :: bindings, aliases, frame => do
    Eval.bind (Number.ofNat index).key binding frame
    if let name :: _ := aliases then Eval.bind name binding frame
    bindArguments (index + 1) bindings aliases.tail frame

def invokeMacro (m : Machine) (name : String) (bindings : List Binding) (invoker : FrameId) :
    Eval Number := do
  match (← Eval.session).macro? name with
  | none => throw (.unknownMacro name)
  | some definition =>
    Eval.withFrame (.ofMacro name invoker) fun frame => do
      bindArguments 0 bindings definition.aliases frame
      m.solve definition.body frame

def lambdaBinding (m : Machine) (arg : Expr) (invoker : FrameId) : Eval Binding := do
  match arg with
  | .localVar name => Eval.require name invoker
  | .globalVar _ | .pointer _ | .localPointer _ | .macroRef .. | .lambda .. | .quote _
  | .constant _ => return .reference arg invoker
  | _ => return .value (← m.solve arg invoker)

/-- Calls a lambda or a macro that was found in the frame `definition`, with arguments written in the
frame `invoker`. A macro's own arguments give way to the new ones. -/
def callDirect? (m : Machine) (callee : Expr) (args : List Expr) (invoker definition : FrameId) :
    Option (Eval Number) :=
  match callee with
  | .lambda aliases body => some do
    let bindings ← args.mapM (m.lambdaBinding · invoker)
    Eval.withFrame (.ofLambda definition) fun frame => do
      bindArguments 0 bindings aliases frame
      m.solve body frame
  | .macroRef name own _ =>
    let bindings := args.map (Binding.reference · invoker)
      ++ (own.drop args.length).map (Binding.reference · definition)
    some (m.invokeMacro name bindings invoker)
  | _ => none

def failCall {α : Type} (expr : Expr) : Eval α := throw (.notCallable expr.describe)

def call (m : Machine) (callee : Expr) (args : List Expr) (invoker definition : FrameId) :
    Eval Number := do
  match callee with
  | .localVar name =>
    match ← m.referent name definition with
    | .unbound last frame => Eval.failUnbound last frame
    | .value last _ => failCall (.localVar last)
    | .expr last target frame =>
      (m.callDirect? target args invoker frame).getD (failCall (.localVar last))
  | _ => (m.callDirect? callee args invoker definition).getD (failCall callee)

end Machine

end Calculator
