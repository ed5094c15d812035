import Calculator.Number.Decimal

/-!
Text as numbers: a cell holds the code point of one character.
-/

namespace Calculator

namespace Text

def toCells (text : String) : List Number := text.toList.map fun c => Number.ofNat c.toNat

/-- The character a cell stands for; a number that is no code point shows as `U+FFFD`. -/
def charOfCell (cell : Number) : Char :=
  let code := cell.truncate
  if 0 ≤ code && code.toNat.isValidChar then Char.ofNat code.toNat else '\ufffd'

def ofCells (cells : List Number) : String := String.ofList (cells.map charOfCell)

/-- A list as it is printed: `\x7b 1, 2, 3 \x7d` with the braces written out. -/
def listString (values : List Number) : String :=
  "\x7b " ++ String.intercalate ", " (values.map Number.render) ++ " \x7d"

end Text

end Calculator
