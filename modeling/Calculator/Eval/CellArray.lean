import Calculator.Eval.Memory

/-!
Arrays laid over cells.

Where a pointer has the base address `a`, the cell at `a` holds the number of elements, and the cells
from `a + 1` on hold the elements. The pointer's address is worked out anew for each access to the base,
and elements are read one by one, so that changes made meanwhile are seen.
-/

namespace Calculator

namespace CellArray

variable (m : Machine) (pointer : Expr)

def storeFrom (base : Number) (index : Nat) : List Number → FrameId → Eval Unit
  | [], _ => return ()
  | value :: values, frame => do
    m.writeCell pointer (base.add (.ofNat (index + 1))) value frame
    storeFrom base (index + 1) values frame

def allocate (values : List Number) (frame : FrameId) : Eval Number := do
  let base ← m.address pointer frame
  m.writeCell pointer base (.ofNat values.length) frame
  storeFrom m pointer base 0 values frame
  return base

def length (frame : FrameId) : Eval Number := do
  m.readCell pointer (← m.address pointer frame) frame

def cell (index : Number) (frame : FrameId) : Eval Number := do
  let index ← if index.less .zero then
      let length ← length m pointer frame
      pure (length.add index)
    else pure index
  let base ← m.address pointer frame
  return (base.add index).add .one

def get (index : Number) (frame : FrameId) : Eval Number := do
  m.readCell pointer (← cell m pointer index frame) frame

def set (index value : Number) (frame : FrameId) : Eval Number := do
  m.writeCell pointer (← cell m pointer index frame) value frame
  return value

def add (value : Number) (frame : FrameId) : Eval Number := do
  let base ← m.address pointer frame
  let length := (← m.readCell pointer base frame).add .one
  m.writeCell pointer base length frame
  m.writeCell pointer (base.add length) value frame
  return value

def visitFrom {σ : Type} (base : Number) (frame : FrameId)
    (visit : σ → Nat → Number → Eval (ForInStep σ)) (index : Nat) : Nat → σ → Eval σ
  | 0, state => return state
  | count + 1, state => do
    let element ← m.readCell pointer (base.add (.ofNat (index + 1))) frame
    match ← visit state index element with
    | .done state => return state
    | .yield state => visitFrom base frame visit (index + 1) count state

/-- Visits the elements in order. Their number is read once, at the start. -/
def visit {σ : Type} (frame : FrameId) (state : σ)
    (visit : σ → Nat → Number → Eval (ForInStep σ)) : Eval σ := do
  let base ← m.address pointer frame
  let count := (← m.readCell pointer base frame).toCount
  visitFrom m pointer base frame visit 0 count state

def toList (frame : FrameId) : Eval (List Number) := do
  let reversed ← visit m pointer frame [] fun elements _ element =>
    return .yield (element :: elements)
  return reversed.reverse

/-- Inserts a value before the element at an index, which may be one past the last; a negative index
counts from the end. -/
def insert (index value : Number) (frame : FrameId) : Eval Number := do
  let values ← toList m pointer frame
  let index := index.truncate
  let position := if index < 0 then index + values.length else index
  if 0 ≤ position && position ≤ values.length then
    let _ ← allocate m pointer (values.insertIdx position.toNat value) frame
    return value
  else
    let base ← m.address pointer frame
    throw (.insertOutOfRange base.key position)

def remove (value : Number) (frame : FrameId) : Eval Bool := do
  let values ← toList m pointer frame
  match values.findIdx? (·.equal value) with
  | none => return false
  | some position =>
    let _ ← allocate m pointer (values.eraseIdx position) frame
    return true

def indexOf? (value : Number) (frame : FrameId) : Eval (Option Nat) :=
  visit m pointer frame none fun _ index element =>
    return if element.equal value then .done (some index) else .yield none

def concat (first second : Expr) (target : Expr) (frame : FrameId) : Eval Number := do
  let values ← toList m first frame
  let more ← toList m second frame
  allocate m target (values ++ more) frame

def copy (source target : Expr) (frame : FrameId) : Eval Number := do
  let values ← toList m source frame
  allocate m target values frame

/-- Whether two elements count as one in a set: equal data, or zeros of either sign. -/
def sameElement (x y : Number) : Bool := (x.isZero && y.isZero) || x == y

def distinct (seen : List Number) : List Number → List Number
  | [] => []
  | x :: rest =>
    if seen.any (sameElement x) then distinct seen rest else x :: distinct (x :: seen) rest

def setify (frame : FrameId) : Eval Number := do
  let values ← toList m pointer frame
  allocate m pointer (distinct [] values) frame

def sorted (values : List Number) : List Number := values.mergeSort fun x y => x.rank ≤ y.rank

def sort (frame : FrameId) : Eval Number := do
  let values ← toList m pointer frame
  allocate m pointer (sorted values) frame

end CellArray

end Calculator
