import Calculator.Builtin
import Calculator.Eval.Assignment

/-!
Sample functions that a host may register: each shows one way to use arguments.
-/

namespace Calculator

namespace Sample

def twice : Handler := fun m args frame => do
  return (Number.ofNat 2).mul (← Argument.solve m "twice" args 0 frame)

def third : Handler := fun m args frame => Argument.solve m "third" args 2 frame

def pointer : Handler := fun m args frame => do
  m.address (← Argument.pointer "pointer" args 1) frame

def callable : Handler := fun m args frame => do
  m.call (← Argument.callable "callable" args 0) args.tail frame frame

def assignable : Handler := fun m args frame => do
  m.assign (← Argument.assignable "assignable" args 0) (.value (.ofNat 7)) frame

def quote : Handler := fun _ args _ => do
  return .ofNat (← Argument.quote "quote" args 0).utf8ByteSize

def text : Handler := fun m args frame => do
  let text ← Argument.text m "text" args 0 frame
  Eval.writeLine text
  return .ofNat text.utf8ByteSize

def invoke : Handler := fun m args frame => do
  m.call (← Argument.get "invoke" args 0) args.tail frame frame

def address : Handler := fun m args frame => do
  m.address (← Argument.get "address" args 0) frame

def store : Handler := fun m args frame => do
  let value ← Argument.solve m "store" args 1 frame
  m.assign (← Argument.get "store" args 0) (.value value) frame

def memory : Handler := fun m args frame => do
  return .ofBool (← m.pointsToMemory (← Argument.get "memory" args 0) frame)

def whereCalled : Handler := fun _ _ frame => do
  let s ← Eval.session
  Eval.writeLine (s.frameName frame)
  return .zero

def bound : Handler := fun _ args frame => do
  let name ← Argument.quote "bound" args 0
  match (← Eval.session).lookup name frame with
  | none => return .zero
  | some (.value _) => return .one
  | some (.reference ..) => return .ofNat 2

def table : List (String × Builtin) :=
  [("twice", ⟨.exact 1, twice⟩),
   ("third", ⟨.atLeast 0, third⟩),
   ("pointer", ⟨.oneOf [0, 1, 2], pointer⟩),
   ("callable", ⟨.atLeast 0, callable⟩),
   ("assignable", ⟨.atLeast 0, assignable⟩),
   ("quote", ⟨.atLeast 0, quote⟩),
   ("text", ⟨.atLeast 0, text⟩),
   ("invoke", ⟨.atLeast 1, invoke⟩),
   ("address", ⟨.exact 1, address⟩),
   ("store", ⟨.exact 2, store⟩),
   ("memory", ⟨.exact 1, memory⟩),
   ("where", ⟨.exact 0, whereCalled⟩),
   ("bound", ⟨.exact 1, bound⟩)]

end Sample

end Calculator
