/-!
Tokens: the pieces a line of text is split into.
-/

namespace Calculator

inductive TokenKind where
  | number
  | operator
  | name
  /-- Literals behind `0x`, `0b`, `0o` and `0r`; the text holds only what follows that mark. -/
  | hex | binary | octal | roman
  | openParen
  | closeParen
  | comma
  /-- Quotes and characters; the text holds what stands between the marks, escapes included. -/
  | quote | char
  deriving DecidableEq, Repr

structure Token where
  kind : TokenKind
  text : String
  deriving DecidableEq, Repr

namespace Token

def isOperator (t : Token) (symbol : String) : Bool := t.kind == .operator && t.text == symbol

def isSign (t : Token) : Bool := t.isOperator "+" || t.isOperator "-"

def openRound : Token := ⟨.openParen, "("⟩

def closeRound : Token := ⟨.closeParen, ")"⟩

end Token

end Calculator
