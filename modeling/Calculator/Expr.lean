import Calculator.Operator

/-!
Expressions.
-/

namespace Calculator

inductive Expr where
  | constant (value : Number)
  | globalVar (name : String)
  | localVar (name : String)
  /-- A macro `@name` with the arguments of this use. It may be the target of a definition if every
  argument is a plain name. -/
  | macroRef (name : String) (args : List Expr) (definable : Bool)
  | lambda (aliases : List String) (body : Expr)
  | pointer (address : Expr)
  | localPointer (address : Expr)
  | assign (target value : Expr)
  | binary (op : BinaryOp) (left right : Expr)
  | unary (op : UnaryOp) (operand : Expr)
  /-- A call of a function, which receives its arguments unevaluated. -/
  | call (name : String) (args : List Expr)
  | quote (text : String)
  deriving Repr

instance : Inhabited Expr := ⟨.constant .zero⟩

namespace Expr

def alias? : Expr → Option String
  | .globalVar name | .localVar name | .macroRef name [] _ => some name
  | _ => none

def isAssignable : Expr → Bool
  | .globalVar _ | .localVar _ | .macroRef .. | .pointer _ | .localPointer _ => true
  | _ => false

def isAddressable : Expr → Bool
  | .pointer _ | .localPointer _ | .localVar _ => true
  | _ => false

def isCallable : Expr → Bool
  | .lambda .. | .macroRef .. | .localVar _ => true
  | _ => false

/-- What an operator makes of its operands. A compound assignment reads its target and writes it. -/
def build (left : Expr) (role : Operator.Role) (right : Expr) : Expr :=
  match role with
  | .binary op => .binary op left right
  | .assign none => .assign left right
  | .assign (some op) => .assign left (.binary (.value op) left right)

end Expr

end Calculator
