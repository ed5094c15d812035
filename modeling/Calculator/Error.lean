import Calculator.Token

/-!
What can go wrong, by cause, and the message for each cause.
-/

namespace Calculator

inductive InputEnd where
  | start | finish
  deriving DecidableEq, Repr

def InputEnd.name : InputEnd → String
  | .start => "start"
  | .finish => "end"

inductive TokenError where
  /-- A quote or character literal is never closed; the text is what follows its mark. -/
  | unterminatedQuote (text : String)
  | unterminatedChar (text : String)
  | unknownMark (letter : Char)
  | unexpectedCharacter (character : Char)
  /-- Three signs stand in a row. -/
  | signRun (sign : String)
  /-- The same sign is doubled at an end of the input. -/
  | doubledSign (sign : String) (position : InputEnd)
  deriving DecidableEq, Repr

def TokenError.message : TokenError → String
  | .unterminatedQuote text => "Quote literal \"" ++ text ++ " is missing its end quote."
  | .unterminatedChar text => "Character literal '" ++ text ++ " is missing its end apostrophe."
  | .unknownMark letter => s!"0{letter} is not a recognized numeric literal."
  | .unexpectedCharacter c => "Token could not be constructed from character '" ++ c.toString ++ "'."
  | .signRun sign =>
    "Unexpected character '" ++ sign ++ "' found. Only up to two + or - signs in a row are legal."
  | .doubledSign sign position =>
    "Unexpected character '" ++ sign ++ "' found. Only one + or - sign is legal at the "
      ++ position.name ++ " of an equation."

inductive LiteralKind where
  | hex | binary | octal | roman
  deriving DecidableEq, Repr

def LiteralKind.name : LiteralKind → String
  | .hex => "Hex"
  | .binary => "Binary"
  | .octal => "Octal"
  | .roman => "Roman numeral"

inductive ParseError where
  | mismatchedBracket (opening closing : Char)
  | unclosedBracket (opening : Char)
  | emptyBrackets (opening closing : Char)
  | unexpectedToken (token : String)
  | missingLeftOperand (op : String)
  | missingRightOperand (op : String)
  | notUnary (op : String)
  | unknownOperator (op : String)
  | emptyParameter
  | trailingExpression
  | invalidNumber (text : String)
  | emptyLiteral (kind : LiteralKind)
  | invalidLiteral (kind : LiteralKind) (text : String)
  | charLength (text : String)
  | invalidEscape (text : String)
  | bareLambdaSigil
  | invalidAlias (found : String)
  | literalCoefficient (kind : LiteralKind)
  deriving DecidableEq, Repr

def ParseError.message : ParseError → String
  | .mismatchedBracket opening closing =>
    s!"Closing bracket {closing} does not match opening bracket {opening}."
  | .unclosedBracket opening => s!"Closing bracket for {opening} expected but not found."
  | .emptyBrackets opening closing => s!"Empty brackets {opening}{closing} found."
  | .unexpectedToken token => "Unexpected character '" ++ token ++ "' found."
  | .missingLeftOperand op => s!"Operator {op} is missing a left-hand operand."
  | .missingRightOperand op => s!"Operator {op} is missing a right-hand operand."
  | .notUnary op => "\"" ++ op ++ "\" is not a valid unary operator."
  | .unknownOperator op => "\"" ++ op ++ "\" is not a recognized operator."
  | .emptyParameter => "Empty parameters are not allowed."
  | .trailingExpression => "Unexpected trailing expression; the expression tree could not be made."
  | .invalidNumber text => s!"Unable to parse constant {text}."
  | .emptyLiteral kind => s!"{kind.name} literals cannot be empty."
  | .invalidLiteral kind text => s!"{kind.name} literal {text} could not be read."
  | .charLength text =>
    "Character '" ++ text
      ++ "' could not be resolved: a character literal must hold exactly one character."
  | .invalidEscape text => "Invalid escape sequence in \"" ++ text ++ "\"."
  | .bareLambdaSigil => "'@' found without a macro name and without an opening parenthesis."
  | .invalidAlias found => s!"{found} is not a valid alias for an argument."
  | .literalCoefficient kind =>
    s!"Tokens of type {kind.name} may not serve as function coefficients. "
      ++ "Try adding parentheses around the function call."

/-- The family an evaluation error belongs to; the catching functions choose by it. -/
inductive ErrorCategory where
  | language
  | thrown
  | host
  deriving DecidableEq, Repr

inductive RuntimeError where
  | unknownMacro (name : String)
  | unknownLocal (name frame : String)
  | unknownFunction (name : String)
  | notAssignable (what : String)
  | notAddressable (what : String)
  | notCallable (what : String)
  /-- A macro used as a target has arguments that are no plain names. -/
  | macroWithArguments (name : String)
  | evaluation (function message : String)
  | insertOutOfRange (address : String) (index : Int)
  | malformed (message : String)
  | thrown (message : String)
  | host (message : String)
  deriving DecidableEq, Repr

def RuntimeError.message : RuntimeError → String
  | .unknownMacro name => s!"Macro {name} does not exist."
  | .unknownLocal name frame => s!"Scope {frame} does not contain local #{name}."
  | .unknownFunction name => s!"Function {name} does not exist."
  | .notAssignable what => s!"{what} cannot be assigned to."
  | .notAddressable what => s!"{what} could not be interpreted as a pointer."
  | .notCallable what => s!"{what} could not be interpreted as callable."
  | .macroWithArguments name => s!"Macro {name} has arguments and cannot be assigned to."
  | .evaluation function message => "Function \"" ++ function ++ "\" " ++ message
  | .insertOutOfRange address index =>
    s!"List at address {address} is not big enough to insert at {index}."
  | .malformed message => message
  | .thrown message => message
  | .host message => message

def RuntimeError.category : RuntimeError → ErrorCategory
  | .thrown _ => .thrown
  | .host _ => .host
  | _ => .language

inductive Error where
  | token (error : TokenError)
  | parse (error : ParseError)
  | runtime (error : RuntimeError)
  deriving DecidableEq, Repr

def Error.message : Error → String
  | .token error => error.message
  | .parse error => error.message
  | .runtime error => error.message

end Calculator
