import Calculator.Eval.Argument

/-!
Functions and the registry that knows them by name.
-/

namespace Calculator

inductive Arity where
  | exact (count : Nat)
  | oneOf (counts : List Nat)
  | atLeast (count : Nat)
  deriving DecidableEq, Repr

namespace Arity

def accepts (arity : Arity) (count : Nat) : Bool :=
  match arity with
  | .exact n => count == n
  | .oneOf counts => counts.contains count
  | .atLeast n => n ≤ count

def noun (count : Nat) : String := if count = 1 then "argument" else "arguments"

def render : Arity → String
  | .exact n => toString n ++ " " ++ noun n
  | .oneOf counts =>
    String.intercalate " or " (counts.map toString) ++ " " ++ noun (counts.getLast?.getD 0)
  | .atLeast n => "at least " ++ toString n ++ " " ++ noun n

end Arity

/-- What a function does with its arguments, which it receives unevaluated, in the frame of the call. -/
abbrev Handler := Machine → List Expr → FrameId → Eval Number

structure Builtin where
  arity : Arity
  handler : Handler

abbrev Registry := Std.TreeMap String Builtin

namespace Registry

def find? (registry : Registry) (name : String) : Option Builtin := registry[Text.fold name]?

def isFunction (registry : Registry) (name : String) : Bool :=
  registry.contains (Text.fold name)

def register (registry : Registry) (name : String) (builtin : Builtin) : Registry :=
  registry.insert (Text.fold name) builtin

def call (registry : Registry) (m : Machine) (name : String) (args : List Expr) (frame : FrameId) :
    Eval Number :=
  match registry.find? name with
  | none => throw (.unknownFunction name)
  | some builtin =>
    if builtin.arity.accepts args.length then builtin.handler m args frame
    else Argument.refuse name
      ("expects " ++ builtin.arity.render ++ " but received " ++ toString args.length)

end Registry

end Calculator
