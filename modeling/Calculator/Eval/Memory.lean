import Calculator.Eval

/-!
Pointers: expressions that stand for numeric cells, in the global store or in a frame.

A local is a pointer if following it ends at one. It is followed anew for every access.
-/

namespace Calculator

inductive Store where
  | global
  | frame
  deriving DecidableEq, Repr

/-- The pointer an expression comes down to: a store, the expression of the base address, and the frame
in which that is evaluated and whose cells are meant. -/
structure Pointer where
  store : Store
  base : Expr
  frame : FrameId
  deriving Repr

def Pointer.ofExpr? (expr : Expr) (frame : FrameId) : Option Pointer :=
  match expr with
  | .pointer base => some ⟨.global, base, frame⟩
  | .localPointer base => some ⟨.frame, base, frame⟩
  | _ => none

namespace Machine

def failAddress {α : Type} (expr : Expr) : Eval α := throw (.notAddressable expr.describe)

def pointer (m : Machine) (expr : Expr) (frame : FrameId) : Eval Pointer := do
  match expr with
  | .localVar name =>
    match ← m.referent name frame with
    | .unbound last frame => Eval.failUnbound last frame
    | .value last _ => failAddress (.localVar last)
    | .expr last target frame =>
      match Pointer.ofExpr? target frame with
      | some pointer => return pointer
      | none => failAddress (.localVar last)
  | _ =>
    match Pointer.ofExpr? expr frame with
    | some pointer => return pointer
    | none => failAddress expr

def pointsToMemory (m : Machine) (expr : Expr) (frame : FrameId) : Eval Bool := do
  match expr with
  | .localVar name =>
    match ← m.referent name frame with
    | .expr _ target frame => return (Pointer.ofExpr? target frame).isSome
    | _ => return false
  | _ => return (Pointer.ofExpr? expr frame).isSome

def address (m : Machine) (expr : Expr) (frame : FrameId) : Eval Number := do
  let pointer ← m.pointer expr frame
  m.solve pointer.base pointer.frame

def readCell (m : Machine) (expr : Expr) (address : Number) (frame : FrameId) : Eval Number := do
  let pointer ← m.pointer expr frame
  match pointer.store with
  | .global => Eval.readVariable address.key
  | .frame =>
    match (← Eval.session).lookup address.key pointer.frame with
    | some binding => m.resolve binding
    | none => return .zero

def writeCell (m : Machine) (expr : Expr) (address value : Number) (frame : FrameId) :
    Eval Unit := do
  let pointer ← m.pointer expr frame
  match pointer.store with
  | .global => Eval.setVariable address.key value
  | .frame => Eval.bind address.key (.value value) pointer.frame

end Machine

end Calculator
