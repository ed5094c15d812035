import Calculator.Number.Arithmetic

/-!
Roman numerals, with the subtractive notation and with overlines, which multiply by a thousand.
-/

namespace Calculator

namespace Roman

def overline : Char := '\u0305'

def letter? (c : Char) : Option Nat :=
  match c.toUpper with
  | 'I' => some 1
  | 'V' => some 5
  | 'X' => some 10
  | 'L' => some 50
  | 'C' => some 100
  | 'D' => some 500
  | 'M' => some 1000
  | _ => none

def lettersAfter? (held : Number) : List Char → Option (List Number)
  | [] => some [held]
  | c :: rest =>
    if c = overline then lettersAfter? (held.mul (.ofNat 1000)) rest
    else do
      let next ← letter? c
      return held :: (← lettersAfter? (.ofNat next) rest)

def letters? : List Char → Option (List Number)
  | [] => some []
  | c :: rest => do lettersAfter? (.ofNat (← letter? c)) rest

/-- Adds letters to a sum from left to right; a letter before a larger one is subtracted. -/
def addLetters (sum : Number) : List Number → Number
  | [] => sum
  | [last] => sum.add last
  | first :: second :: rest =>
    addLetters (if first.less second then sum.sub first else sum.add first) (second :: rest)

def value? (numeral : String) : Option Number := (letters? numeral.toList).map (addLetters .zero)

end Roman

end Calculator
