import Calculator.Number.Rounding

/-!
Square and cube roots, rounded to the nearest number.

The root of the significant bits is taken in whole numbers, with so many bits that what is cut off only
matters as being something or nothing.
-/

namespace Calculator

namespace Number

/-- Adds to `root` the powers of two below `2 ^ bits`, the largest first, that keep its `degree`-th power
at or below `n`. -/
def rootWithin (degree n : Nat) : (bits : Nat) → (root : Nat) → Nat
  | 0, root => root
  | bits + 1, root =>
    rootWithin degree n bits (if Nat.pow (root + 1 <<< bits) degree ≤ n then root + 1 <<< bits else root)

def wholeRoot (degree n : Nat) : Nat := rootWithin degree n 90 0

def extraBits : Nat := 60

/-- The pattern nearest to the root of a finite pattern, for degree two or three. With `s` the shift of
the significant bits `m`, the root in units is that of `m * 2 ^ (s + 1074 * (degree - 1))`. -/
def rootPattern (degree pattern : Nat) : Nat :=
  let shift := shiftOfPattern pattern + 1074 * (degree - 1)
  let radicand := mantissaOfPattern pattern <<< (shift % degree + extraBits * degree)
  let root := wholeRoot degree radicand
  let rest := if Nat.pow root degree = radicand then 0 else 1
  nearestPattern ((2 * root + rest) <<< (shift / degree)) (2 <<< extraBits)

theorem rootPattern_le (degree pattern : Nat) : rootPattern degree pattern ≤ infinityPattern :=
  nearestPattern_le _ _

def root (degree : Nat) (x : Number) : Number :=
  ⟨x.negative, rootPattern degree x.pattern,
    Nat.lt_of_le_of_lt (rootPattern_le degree x.pattern) infinityPattern_lt⟩

def sqrt (x : Number) : Number :=
  if x.isNaN || x.isZero then x
  else if x.negative then invalid
  else if x.isInfinite then x
  else x.root 2

def cbrt (x : Number) : Number := if x.isNaN || x.isZero || x.isInfinite then x else x.root 3

end Number

end Calculator
