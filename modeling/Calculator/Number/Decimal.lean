import Calculator.Number.Rounding

/-!
Numbers as decimal text.

Reading rounds the exact decimal value to the nearest number. Writing takes the coarsest power of
ten of which a multiple next to the number reads back as the number, and writes that multiple
without an exponent. So what is written always reads back, with as few digits as possible.
-/

namespace Calculator

namespace Number

def patternOfScaled (digits : Nat) (exponent : Int) : Nat :=
  if 0 ≤ exponent then nearestPattern (digits * Nat.pow 10 exponent.toNat * unitsInOne) 1
  else nearestPattern (digits * unitsInOne) (Nat.pow 10 (-exponent).toNat)

def digitsValue (digits : List Char) : Nat :=
  digits.foldl (fun value c => value * 10 + (c.toNat - '0'.toNat)) 0

/-- The pattern of a decimal. Beyond the range of exponents that can matter the answer is infinity or
zero, so that no huge power is ever formed. -/
def patternOfDecimal (digits : List Char) (exponent : Int) : Nat :=
  if digitsValue digits = 0 then 0
  else if 400 < exponent then infinityPattern
  else if exponent + digits.length < -400 then 0
  else patternOfScaled (digitsValue digits) exponent

theorem patternOfScaled_le (digits : Nat) (exponent : Int) :
    patternOfScaled digits exponent ≤ infinityPattern := by
  unfold patternOfScaled
  split <;> exact nearestPattern_le _ _

theorem patternOfDecimal_le (digits : List Char) (exponent : Int) :
    patternOfDecimal digits exponent ≤ infinityPattern := by
  unfold patternOfDecimal
  split
  · exact Nat.zero_le _
  split
  · exact Nat.le_refl _
  split
  · exact Nat.zero_le _
  · exact patternOfScaled_le _ _

def ofDecimal (negative : Bool) (digits : List Char) (exponent : Int) : Number :=
  ⟨negative, patternOfDecimal digits exponent,
    Nat.lt_of_le_of_lt (patternOfDecimal_le digits exponent) infinityPattern_lt⟩

def splitSign : List Char → Bool × List Char
  | '-' :: rest => (true, rest)
  | '+' :: rest => (false, rest)
  | text => (false, text)

def readExponent? : List Char → Option Int
  | [] => some 0
  | c :: rest =>
    if c = 'e' || c = 'E' then
      let (negative, digits) := splitSign rest
      if digits.isEmpty || !digits.all Char.isDigit then none
      else some (if negative then -(digitsValue digits : Int) else digitsValue digits)
    else none

def readMantissa? (negative : Bool) (text : List Char) : Option Number :=
  let whole := text.takeWhile Char.isDigit
  let afterWhole := text.dropWhile Char.isDigit
  let (fraction, rest) := match afterWhole with
    | '.' :: more => (more.takeWhile Char.isDigit, more.dropWhile Char.isDigit)
    | _ => ([], afterWhole)
  let digits := whole ++ fraction
  if digits.isEmpty then none
  else (readExponent? rest).map fun exponent =>
    ofDecimal negative digits (exponent - fraction.length)

def ofText? (text : List Char) : Option Number :=
  let (negative, rest) := splitSign text
  let word := String.ofList (rest.map Char.toLower)
  if word = "inf" || word = "infinity" then some { infinity with negative }
  else if word = "nan" then some { nan with negative }
  else readMantissa? negative rest

def digitChar (d : Nat) : Char := Char.ofNat ('0'.toNat + d)

def digitsOf (n : Nat) : List Char :=
  if n < 10 then [digitChar n] else digitsOf (n / 10) ++ [digitChar (n % 10)]

def lowDigits : Nat → Nat → List Char
  | 0, _ => []
  | count + 1, n => lowDigits count (n / 10) ++ [digitChar (n % 10)]

def dropFinalZeros (digits : List Char) : List Char :=
  (digits.reverse.dropWhile (· == '0')).reverse

def positional (digits : Nat) (exponent : Int) : List Char :=
  if 0 ≤ exponent then digitsOf (digits * Nat.pow 10 exponent.toNat)
  else
    let places := (-exponent).toNat
    let fraction := dropFinalZeros (lowDigits places (digits % Nat.pow 10 places))
    digitsOf (digits / Nat.pow 10 places) ++ if fraction.isEmpty then [] else '.' :: fraction

/-- The multiple of `10 ^ exponent` next to a finite pattern that reads back as the pattern; of two
such multiples the nearer one. -/
def onGrid? (pattern : Nat) (exponent : Int) : Option Nat :=
  let num := unitsOfPattern pattern * Nat.pow 10 (-exponent).toNat
  let den := unitsInOne * Nat.pow 10 exponent.toNat
  let below := num / den
  let candidates := if 2 * (num % den) < den then [below, below + 1] else [below + 1, below]
  candidates.find? fun candidate => patternOfScaled candidate exponent == pattern

def searchGrid? (pattern : Nat) : Nat → Int → Option (Nat × Int)
  | 0, _ => none
  | steps + 1, exponent =>
    match onGrid? pattern exponent with
    | some digits => some (digits, exponent)
    | none => searchGrid? pattern steps (exponent - 1)

def exponentAbove (pattern : Nat) : Int :=
  ((Nat.log2 (unitsOfPattern pattern) : Int) - 1073) * 30103 / 100000 + 1

/-- The shortest decimal that reads back as a finite pattern; 17 digits always suffice, and the exact
value stands behind them. -/
def shortest (pattern : Nat) : Nat × Int :=
  (searchGrid? pattern 20 (exponentAbove pattern)).getD
    (unitsOfPattern pattern * Nat.pow 5 1074, -1074)

def textOfPattern (pattern : Nat) : List Char :=
  if pattern = infinityPattern then "inf".toList
  else if pattern = 0 then ['0']
  else
    let (digits, exponent) := shortest pattern
    positional digits exponent

def toText (x : Number) : List Char :=
  if x.isNaN then "NaN".toList
  else if x.negative then '-' :: textOfPattern x.pattern
  else textOfPattern x.pattern

def render (x : Number) : String := String.ofList x.toText

instance : ToString Number := ⟨render⟩

/-- The name under which the cell at an address is stored; the two zeros share one cell. -/
def key (x : Number) : String := if x.isZero then "0" else x.render

end Number

end Calculator
