import Calculator.Expr
import Calculator.Text.Quoted
import Calculator.Number.Decimal

/-!
Expressions as text: in full, and in short for messages.
-/

namespace Calculator

namespace Expr

mutual

/-- An expression with every bracket written out. -/
def render : Expr → String
  | .constant value => value.render
  | .globalVar name => "$" ++ name
  | .localVar name => "#" ++ name
  | .macroRef name [] _ => "@" ++ name
  | .macroRef name (arg :: args) _ =>
    "@" ++ name ++ "(" ++ arg.render ++ renderFurther args ++ ")"
  | .lambda aliases body => "@(" ++ String.join (aliases.map (· ++ ", ")) ++ body.render ++ ")"
  | .pointer address => "$(" ++ address.render ++ ")"
  | .localPointer address => "#(" ++ address.render ++ ")"
  | .assign target value => "(" ++ target.render ++ " = " ++ value.render ++ ")"
  | .binary op left right => "(" ++ left.render ++ " " ++ op.symbol ++ " " ++ right.render ++ ")"
  | .unary op operand => op.symbol ++ operand.render
  | .call name [] => name ++ "()"
  | .call name (arg :: args) => name ++ "(" ++ arg.render ++ renderFurther args ++ ")"
  | .quote text => Text.quote text

def renderFurther : List Expr → String
  | [] => ""
  | arg :: args => ", " ++ arg.render ++ renderFurther args

end

def describe : Expr → String
  | .constant value => "constant " ++ value.render
  | .globalVar name => "$" ++ name
  | .localVar name => "#" ++ name
  | .macroRef name _ _ => "@" ++ name
  | .lambda .. => "lambda"
  | .pointer _ => "pointer"
  | .localPointer _ => "local pointer"
  | .assign .. => "assignment"
  | .binary op _ _ => op.symbol ++ " expression"
  | .unary op _ => op.symbol ++ " expression"
  | .call name _ => "call to " ++ name
  | .quote text => "quote \"" ++ text ++ "\""

end Expr

end Calculator
