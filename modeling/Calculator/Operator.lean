import Calculator.Number.Arithmetic
import Calculator.Number.Bitwise
import Calculator.Number.Elementary
import Calculator.Number.Root

/-!
Operators: what they do to numbers, and how tightly they bind.
-/

namespace Calculator

inductive ValueOp where
  | power | multiply | divide | remainder | floorDivide | add | subtract
  | shiftLeft | shiftRight
  | less | lessEqual | greater | greaterEqual | equal | notEqual
  | bitAnd | bitXor | bitOr
  deriving DecidableEq, Repr

/-- Binary operators. The logical ones and the sequence decide themselves whether their right operand
is evaluated. -/
inductive BinaryOp where
  | value (op : ValueOp)
  | and | xor | or
  | sequence
  deriving DecidableEq, Repr

inductive UnaryOp where
  | not | complement
  deriving DecidableEq, Repr

def ValueOp.apply (op : ValueOp) (a b : Number) : Number :=
  match op with
  | .power => a.pow b
  | .multiply => a.mul b
  | .divide => a.div b
  | .remainder => a.rem b
  | .floorDivide => a.floorDiv b
  | .add => a.add b
  | .subtract => a.sub b
  | .shiftLeft => a.shiftLeft b
  | .shiftRight => a.shiftRight b
  | .less => .ofBool (a.less b)
  | .lessEqual => .ofBool (a.lessEqual b)
  | .greater => .ofBool (b.less a)
  | .greaterEqual => .ofBool (b.lessEqual a)
  | .equal => .ofBool (a.equal b)
  | .notEqual => .ofBool (!a.equal b)
  | .bitAnd => a.bitAnd b
  | .bitXor => a.bitXor b
  | .bitOr => a.bitOr b

def UnaryOp.apply : UnaryOp → Number → Number
  | .not, x => .ofBool (!x.isTrue)
  | .complement, x => x.complement

def ValueOp.symbol : ValueOp → String
  | .power => "**"
  | .multiply => "*"
  | .divide => "/"
  | .remainder => "%"
  | .floorDivide => "//"
  | .add => "+"
  | .subtract => "-"
  | .shiftLeft => "<<"
  | .shiftRight => ">>"
  | .less => "<"
  | .lessEqual => "<="
  | .greater => ">"
  | .greaterEqual => ">="
  | .equal => "=="
  | .notEqual => "!="
  | .bitAnd => "&"
  | .bitXor => "^"
  | .bitOr => "|"

def BinaryOp.symbol : BinaryOp → String
  | .value op => op.symbol
  | .and => "&&"
  | .xor => "^^"
  | .or => "||"
  | .sequence => ";"

def UnaryOp.symbol : UnaryOp → String
  | .not => "!"
  | .complement => "~"

namespace Operator

/-- What an operator makes of its operands: a binary expression, or an assignment that may first
combine the target's value with the new one. -/
inductive Role where
  | binary (op : BinaryOp)
  | assign (compound : Option ValueOp)
  deriving DecidableEq, Repr

def coefficient : String := "coeff"

def assignmentTier : Nat := 13

/-- All tiers; the lower ones bind tighter. -/
def tiers : List Nat := List.range 15

def table : List (String × Nat × Role) :=
  [("**", 0, .binary (.value .power)),
   (coefficient, 1, .binary (.value .multiply)),
   ("*", 2, .binary (.value .multiply)),
   ("/", 2, .binary (.value .divide)),
   ("%", 2, .binary (.value .remainder)),
   ("//", 2, .binary (.value .floorDivide)),
   ("+", 3, .binary (.value .add)),
   ("-", 3, .binary (.value .subtract)),
   ("<<", 4, .binary (.value .shiftLeft)),
   (">>", 4, .binary (.value .shiftRight)),
   ("<", 5, .binary (.value .less)),
   ("<=", 5, .binary (.value .lessEqual)),
   (">", 5, .binary (.value .greater)),
   (">=", 5, .binary (.value .greaterEqual)),
   ("==", 6, .binary (.value .equal)),
   ("!=", 6, .binary (.value .notEqual)),
   ("&", 7, .binary (.value .bitAnd)),
   ("^", 8, .binary (.value .bitXor)),
   ("|", 9, .binary (.value .bitOr)),
   ("&&", 10, .binary .and),
   ("^^", 11, .binary .xor),
   ("||", 12, .binary .or),
   ("=", 13, .assign none),
   ("+=", 13, .assign (some .add)),
   ("-=", 13, .assign (some .subtract)),
   ("*=", 13, .assign (some .multiply)),
   ("/=", 13, .assign (some .divide)),
   ("%=", 13, .assign (some .remainder)),
   ("//=", 13, .assign (some .floorDivide)),
   ("**=", 13, .assign (some .power)),
   ("&=", 13, .assign (some .bitAnd)),
   ("|=", 13, .assign (some .bitOr)),
   ("^=", 13, .assign (some .bitXor)),
   ("<<=", 13, .assign (some .shiftLeft)),
   (">>=", 13, .assign (some .shiftRight)),
   (";", 14, .binary .sequence)]

def info? (symbol : String) : Option (Nat × Role) := table.lookup symbol

def tier? (symbol : String) : Option Nat := (info? symbol).map (·.1)

/-- Powers and assignments group to the right, all other tiers to the left. -/
def groupsRight (tier : Nat) : Bool := tier == 0 || tier == assignmentTier

def unarySymbols : List String := ["+", "-", "$", "!", "~", "#"]

def isUnary (symbol : String) : Bool := unarySymbols.contains symbol

end Operator

end Calculator
