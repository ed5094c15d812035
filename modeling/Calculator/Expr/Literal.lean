import Calculator.Error
import Calculator.Expr
import Calculator.Number.Decimal
import Calculator.Number.Roman
import Calculator.Text.Escape

/-!
The constants that literal tokens stand for.
-/

namespace Calculator

namespace Token

def readDecimal (text : String) : Except ParseError Number :=
  match Number.ofText? text.toList with
  | some value => .ok value
  | none => .error (.invalidNumber text)

def radixValue? (base : Nat) (digits : List Char) : Option Nat :=
  digits.foldlM (fun value c =>
    (Text.hexDigit? c).bind fun digit =>
      if digit < base then some (value * base + digit) else none) 0

/-- The integer of digits in a base, behind a sign or none. A sign alone is no integer. -/
def radixInteger? (base : Nat) : List Char → Option Int
  | '+' :: first :: rest => (radixValue? base (first :: rest)).map Int.ofNat
  | '-' :: first :: rest => (radixValue? base (first :: rest)).map fun value => -Int.ofNat value
  | digits => (radixValue? base digits).map Int.ofNat

def readRadix (kind : LiteralKind) (base : Nat) (text : String) : Except ParseError Number :=
  if text.isEmpty then .error (.emptyLiteral kind)
  else match radixInteger? base text.toList with
    | some value =>
      if Number.leastInteger ≤ value && value ≤ Number.largestInteger then .ok (.ofInt value)
      else .error (.invalidLiteral kind text)
    | none => .error (.invalidLiteral kind text)

def readRoman (text : String) : Except ParseError Number :=
  if text.isEmpty then .error (.emptyLiteral .roman)
  else match Roman.value? text with
    | some value => .ok value
    | none => .error (.invalidLiteral .roman text)

def readQuote (raw : String) : Except ParseError String :=
  match Text.unescapeString? raw with
  | some text => .ok text
  | none => .error (.invalidEscape raw)

/-- A character literal is the code point of its one character. -/
def readChar (raw : String) : Except ParseError Number := do
  let text ← readQuote raw
  match text.toList with
  | [c] => return .ofNat c.toNat
  | _ => throw (.charLength raw)

def literal? (t : Token) : Option (Except ParseError Expr) :=
  match t.kind with
  | .number => some (.constant <$> readDecimal t.text)
  | .hex => some (.constant <$> readRadix .hex 16 t.text)
  | .binary => some (.constant <$> readRadix .binary 2 t.text)
  | .octal => some (.constant <$> readRadix .octal 8 t.text)
  | .roman => some (.constant <$> readRoman t.text)
  | .char => some (.constant <$> readChar t.text)
  | .quote => some (.quote <$> readQuote t.text)
  | _ => none

end Token

end Calculator
