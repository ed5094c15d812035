import Calculator.Error
import Calculator.Expr

/-!
From a flat list of expressions and operators to one expression.

Prefix operators are applied first, from the right. Then the binary operators are joined with their
operands, the tightest tier first.
-/

namespace Calculator

inductive Element where
  | node (expr : Expr)
  | op (symbol : String)
  deriving Repr

namespace Element

def isOp : Element → Bool
  | .node _ => false
  | .op _ => true

def atOperand : List Element → Bool
  | [] => true
  | e :: _ => e.isOp

def prefixed? (symbol : String) (operand : Expr) : Option Expr :=
  match symbol with
  | "+" => some operand
  | "$" => some (.pointer operand)
  | "#" => some (.localPointer operand)
  | "!" => some (.unary .not operand)
  | "~" => some (.unary .complement operand)
  | _ => none

/-- Applies the prefix operators of `before` (nearest first), `current` and `after`, where `after` holds
none any more. A minus becomes the factor `-1`, to which the operators before it then apply. -/
def foldPrefixes : List Element → Element → List Element → Except ParseError (List Element)
  | [], current, after => .ok (current :: after)
  | .op symbol :: before, .node operand, after =>
    if !atOperand before then foldPrefixes before (.op symbol) (.node operand :: after)
    else if !Operator.isUnary symbol then .error (.notUnary symbol)
    else match prefixed? symbol operand with
      | some e => foldPrefixes before (.node e) after
      | none =>
        foldPrefixes before (.node (.constant .negativeOne))
          (.op Operator.coefficient :: .node operand :: after)
  | e :: before, current, after => foldPrefixes before e (current :: after)

def applyPrefixes (elements : List Element) : Except ParseError (List Element) :=
  match elements.reverse with
  | [] => .ok []
  | last :: before => foldPrefixes before last []

def hasTier (tier : Nat) : Element → Bool
  | .node _ => false
  | .op symbol => Operator.tier? symbol = some tier

def join (symbol : String) : Option Element → Option Element → Except ParseError Expr
  | some (.node left), some (.node right) =>
    match Operator.info? symbol with
    | some (_, role) => .ok (left.build role right)
    | none => .error (.unknownOperator symbol)
  | some (.node _), _ => .error (.missingRightOperand symbol)
  | _, _ => .error (.missingLeftOperand symbol)

/-- Joins the operators of a tier from the left; `before` are the elements already passed, nearest
first. -/
def joinLeft (tier : Nat) : List Element → List Element → Except ParseError (List Element)
  | before, [] => .ok before.reverse
  | before, .node e :: rest => joinLeft tier (.node e :: before) rest
  | before, .op symbol :: rest =>
    if hasTier tier (.op symbol) then
      match join symbol before.head? rest.head?, rest with
      | .ok e, _ :: rest => joinLeft tier (.node e :: before.tail) rest
      | .ok e, [] => joinLeft tier (.node e :: before.tail) []
      | .error fault, _ => .error fault
    else joinLeft tier (.op symbol :: before) rest

def joinRight (tier : Nat) : List Element → List Element → Except ParseError (List Element)
  | [], after => .ok after
  | .node e :: before, after => joinRight tier before (.node e :: after)
  | .op symbol :: before, after =>
    if hasTier tier (.op symbol) then
      match join symbol before.head? after.head?, before with
      | .ok e, _ :: before => joinRight tier before (.node e :: after.tail)
      | .ok e, [] => joinRight tier [] (.node e :: after.tail)
      | .error fault, _ => .error fault
    else joinRight tier before (.op symbol :: after)

def joinTier (elements : List Element) (tier : Nat) : Except ParseError (List Element) :=
  if Operator.groupsRight tier then joinRight tier elements.reverse []
  else joinLeft tier [] elements

def unknown? (elements : List Element) : Option String :=
  elements.findSome? fun
    | .node _ => none
    | .op symbol => if (Operator.info? symbol).isSome then none else some symbol

def joinTiers (elements : List Element) : Except ParseError (List Element) :=
  match unknown? elements with
  | some symbol => .error (.unknownOperator symbol)
  | none => Operator.tiers.foldlM joinTier elements

def collapse (elements : List Element) : Except ParseError (Option Expr) :=
  match elements with
  | [] => .ok none
  | _ => do
    match ← joinTiers (← applyPrefixes elements) with
    | [.node e] => .ok (some e)
    | [.op _] | [] => .ok none
    | _ => .error .trailingExpression

end Element

end Calculator
