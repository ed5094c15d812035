import Calculator.Builtin

/-!
Functions on arrays. The first argument is a pointer, into the global store or into a frame.
-/

namespace Calculator

namespace Builtin

def alloc : Handler := fun m args frame => do
  let pointer ← Argument.pointer "alloc" args 0
  let values ← Argument.stored m args.tail frame
  CellArray.allocate m pointer values frame

def calloc : Handler := fun m args frame => do
  let pointer ← Argument.pointer "calloc" args 0
  let count := (← Argument.solve m "calloc" args 1 frame).toCount
  CellArray.allocate m pointer (List.replicate count .zero) frame

/-- `malloc(p, n)` writes only the length cell and yields `n`. -/
def malloc : Handler := fun m args frame => do
  let pointer ← Argument.pointer "malloc" args 0
  let length ← Argument.solve m "malloc" args 1 frame
  let base ← m.address pointer frame
  m.writeCell pointer base length frame
  return length

def countUp (bound : Number) : (fuel : Nat) → Number → List Number → Eval (List Number)
  | 0, _, _ => Eval.outOfFuel
  | fuel + 1, next, values =>
    if next.less bound then countUp bound fuel (next.add .one) (next :: values)
    else return values.reverse

def range : Handler := fun m args frame => do
  let pointer ← Argument.pointer "range" args 0
  let second ← Argument.solve m "range" args 1 frame
  let (first, bound) ←
    if 3 ≤ args.length then
      let third ← Argument.solve m "range" args 2 frame
      pure (second, third)
    else pure (.zero, second)
  let values ← countUp bound m.fuel first []
  CellArray.allocate m pointer values frame

def len : Handler := fun m args frame => do
  CellArray.length m (← Argument.pointer "len" args 0) frame

def get : Handler := fun m args frame => do
  let pointer ← Argument.pointer "get" args 0
  CellArray.get m pointer (← Argument.solve m "get" args 1 frame) frame

def set : Handler := fun m args frame => do
  let pointer ← Argument.pointer "set" args 0
  let index ← Argument.solve m "set" args 1 frame
  let value ← Argument.solve m "set" args 2 frame
  CellArray.set m pointer index value frame

def add : Handler := fun m args frame => do
  let pointer ← Argument.pointer "add" args 0
  CellArray.add m pointer (← Argument.solve m "add" args 1 frame) frame

def insert : Handler := fun m args frame => do
  let pointer ← Argument.pointer "insert" args 0
  let index ← Argument.solve m "insert" args 1 frame
  let value ← Argument.solve m "insert" args 2 frame
  CellArray.insert m pointer index value frame

def remove : Handler := fun m args frame => do
  let pointer ← Argument.pointer "remove" args 0
  let value ← Argument.solve m "remove" args 1 frame
  return .ofBool (← CellArray.remove m pointer value frame)

def indexOf : Handler := fun m args frame => do
  let pointer ← Argument.pointer "indexof" args 0
  let value ← Argument.solve m "indexof" args 1 frame
  match ← CellArray.indexOf? m pointer value frame with
  | some index => return .ofNat index
  | none => return .negativeOne

def contains : Handler := fun m args frame => do
  let pointer ← Argument.pointer "contains" args 0
  let value ← Argument.solve m "contains" args 1 frame
  return .ofBool (← CellArray.indexOf? m pointer value frame).isSome

def clear : Handler := fun m args frame => do
  CellArray.allocate m (← Argument.pointer "clear" args 0) [] frame

/-- `concat(a, b[, target])` writes both arrays to the target, or else to `a`. -/
def concat : Handler := fun m args frame => do
  let first ← Argument.pointer "concat" args 0
  let second ← Argument.pointer "concat" args 1
  let target ← if 3 ≤ args.length then Argument.pointer "concat" args 2 else pure first
  CellArray.concat m first second target frame

def copy : Handler := fun m args frame => do
  let source ← Argument.pointer "copy" args 0
  let target ← Argument.pointer "copy" args 1
  CellArray.copy m source target frame

def setify : Handler := fun m args frame => do
  CellArray.setify m (← Argument.pointer "setify" args 0) frame

def sort : Handler := fun m args frame => do
  CellArray.sort m (← Argument.pointer "sort" args 0) frame

def visitCalls {σ : Type} (function : String) (state : σ)
    (visit : Expr → σ → Nat → Number → Number → Eval (ForInStep σ))
    (m : Machine) (args : List Expr) (frame : FrameId) : Eval (Expr × σ) := do
  let pointer ← Argument.pointer function args 0
  let callee ← Argument.callable function args 1
  let state ← CellArray.visit m pointer frame state fun state index element => do
    let result ← Argument.callWithElement m callee element index frame
    visit pointer state index element result
  return (pointer, state)

def iter : Handler := fun m args frame => do
  let (_, count) ← visitCalls "iter" 0 (fun _ count _ _ _ => return .yield (count + 1)) m args frame
  return .ofNat count

def mutate : Handler := fun m args frame => do
  let (_, count) ← visitCalls "mut" 0 (fun pointer count index _ result => do
    let _ ← CellArray.set m pointer (.ofNat index) result frame
    return .yield (count + 1)) m args frame
  return .ofNat count

def filter : Handler := fun m args frame => do
  let (pointer, reversed) ← visitCalls "filter" [] (fun _ kept _ element result =>
    return .yield (if result.isTrue then element :: kept else kept)) m args frame
  let _ ← CellArray.allocate m pointer reversed.reverse frame
  return .ofNat reversed.length

def any : Handler := fun m args frame => do
  let (_, found) ← visitCalls "any" false (fun _ _ _ _ result =>
    return if result.isTrue then .done true else .yield false) m args frame
  return .ofBool found

def count : Handler := fun m args frame => do
  let (_, count) ← visitCalls "count" 0 (fun _ count _ _ result =>
    return .yield (if result.isTrue then count + 1 else count)) m args frame
  return .ofNat count

def memprint : Handler := fun m args frame => do
  let pointer ← Argument.pointer "memprint" args 0
  let base ← m.address pointer frame
  let value ← m.readCell pointer base frame
  Eval.writeLine ("$" ++ base.render ++ " = " ++ value.render)
  return value

def memoryTable : List (String × Builtin) :=
  [("alloc", ⟨.atLeast 1, alloc⟩),
   ("calloc", ⟨.exact 2, calloc⟩),
   ("malloc", ⟨.exact 2, malloc⟩),
   ("range", ⟨.oneOf [2, 3], range⟩),
   ("len", ⟨.exact 1, len⟩),
   ("get", ⟨.exact 2, get⟩),
   ("set", ⟨.exact 3, set⟩),
   ("add", ⟨.exact 2, add⟩),
   ("insert", ⟨.exact 3, insert⟩),
   ("remove", ⟨.exact 2, remove⟩),
   ("indexof", ⟨.exact 2, indexOf⟩),
   ("contains", ⟨.exact 2, contains⟩),
   ("clear", ⟨.exact 1, clear⟩),
   ("concat", ⟨.oneOf [2, 3], concat⟩),
   ("copy", ⟨.exact 2, copy⟩),
   ("setify", ⟨.exact 1, setify⟩),
   ("sort", ⟨.exact 1, sort⟩),
   ("iter", ⟨.exact 2, iter⟩),
   ("mut", ⟨.exact 2, mutate⟩),
   ("filter", ⟨.exact 2, filter⟩),
   ("any", ⟨.exact 2, any⟩),
   ("count", ⟨.exact 2, count⟩),
   ("memprint", ⟨.exact 1, memprint⟩)]

end Builtin

end Calculator
