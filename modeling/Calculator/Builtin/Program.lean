import Calculator.Builtin
import Calculator.Eval.Assignment
import Calculator.Expr.Reader

/-!
Functions that evaluate, assign, run text, and raise and catch errors.
-/

namespace Calculator

/-- Runs text as a nested line, in a frame of its own. Malformed text is an error of the language; text
without an expression is zero. -/
def Machine.runText (m : Machine) (text : String) : Eval Number := do
  let s ← Eval.session
  match Parsed.ofText ⟨m.isFunction, s.hasMacro⟩ m.imply text with
  | .error fault => throw (.malformed fault.message)
  | .ok parsed =>
    match parsed.root with
    | none => return .zero
    | some root => Eval.withFrame .main (m.solve root)

namespace Builtin

def eval : Handler := fun m args frame => Argument.solve m "eval" args 0 frame

def call : Handler := fun m args frame => do
  m.call (← Argument.callable "call" args 0) args.tail frame frame

def val : Handler := fun m args frame => do
  let target ← Argument.assignable "val" args 0
  let value ← Argument.solve m "val" args 1 frame
  m.assign target (.value value) frame

def ignore : Handler := fun _ _ _ => return .zero

/-- `deepset(target, source)` assigns to what the target refers to; a local source hands its binding
on. -/
def deepSet : Handler := fun m args frame => do
  let target ← Argument.assignable "deepset" args 0
  let source ← m.handOn (← Argument.get "deepset" args 1) frame
  m.deepAssign target source frame

def deepVal : Handler := fun m args frame => do
  let target ← Argument.assignable "deepval" args 0
  let value ← Argument.solve m "deepval" args 1 frame
  m.deepAssign target (.value value) frame

def enumerateFrom (m : Machine) (args : List Expr) (frame : FrameId) (index : Nat) :
    List Expr → Eval Number
  | [] => return .one
  | _ :: rest => do
    let target ← Argument.assignable "enum" args index
    let _ ← m.assign target (.value (.ofNat index)) frame
    enumerateFrom m args frame (index + 1) rest

def enumerate : Handler := fun m args frame => enumerateFrom m args frame 0 args

def exec : Handler := fun m args frame => do
  m.runText (← Argument.text m "exec" args 0 frame)

/-- `catch(body, handler)` and its kin evaluate the handler if the body fails with an error that they
intercept. -/
def catching (function : String) (intercepts : ErrorCategory → Bool) : Handler :=
  fun m args frame =>
    tryCatch (Argument.solve m function args 0 frame) fun fault =>
      if intercepts fault.category then Argument.solve m function args 1 frame else throw fault

def raise : Handler := fun _ args _ => do
  throw (.thrown (← Argument.quote "throw" args 0))

def programTable : List (String × Builtin) :=
  [("eval", ⟨.exact 1, eval⟩),
   ("call", ⟨.atLeast 1, call⟩),
   ("val", ⟨.exact 2, val⟩),
   ("ignore", ⟨.atLeast 0, ignore⟩),
   ("deepset", ⟨.exact 2, deepSet⟩),
   ("deepval", ⟨.exact 2, deepVal⟩),
   ("enum", ⟨.atLeast 1, enumerate⟩),
   ("exec", ⟨.exact 1, exec⟩),
   ("catch", ⟨.exact 2, catching "catch" fun _ => true⟩),
   ("catchlang", ⟨.exact 2, catching "catchlang" (· == .language)⟩),
   ("catchhost", ⟨.exact 2, catching "catchhost" (· == .host)⟩),
   ("throw", ⟨.exact 1, raise⟩)]

end Builtin

end Calculator
