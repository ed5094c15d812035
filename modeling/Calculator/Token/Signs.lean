import Calculator.Token.Lexer

/-!
Rules on signs that concern a whole line of tokens, and the tokens of a line.
-/

namespace Calculator

namespace Token

/-- Checks the signs of `rest`, which begins at `index`; `run` signs stand directly before it, the
last of them `previous`. -/
def checkSignsFrom (index run : Nat) (previous : String) : List Token → Except TokenError Unit
  | [] => .ok ()
  | t :: rest =>
    if !t.isSign then checkSignsFrom (index + 1) 0 t.text rest
    else if run ≥ 2 then .error (.signRun t.text)
    else if run = 1 && previous = t.text && index = 1 then .error (.doubledSign t.text .start)
    else if run = 1 && previous = t.text && rest.isEmpty then .error (.doubledSign t.text .finish)
    else checkSignsFrom (index + 1) (run + 1) t.text rest

/-- Up to two signs may stand in a row, but not the same one twice at an end of the line. -/
def checkSigns (line : List Token) : Except TokenError Unit := checkSignsFrom 0 0 "" line

/-- Puts brackets around a minus and the token after it where they directly follow `**`, so that
`2**-3` is `2**(-3)`. A bracketed operand is left alone. -/
def groupNegativeExponents : List Token → List Token
  | power :: minus :: operand :: rest =>
    if power.isOperator "**" && minus.isOperator "-" && operand.kind != .openParen then
      power :: openRound :: minus :: operand :: closeRound :: groupNegativeExponents rest
    else power :: groupNegativeExponents (minus :: operand :: rest)
  | short => short

def tokenize (text : String) : Except TokenError (List Token) := do
  let line ← tokens text.toList
  checkSigns line
  return groupNegativeExponents line

end Token

end Calculator
