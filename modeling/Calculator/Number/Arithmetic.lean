import Calculator.Number.Rounding

/-!
Arithmetic: each operation gives the exact result rounded once.

A NaN operand is handed on as it is, the left one first. An operation that has no value at all, such
as `0 / 0`, gives `Number.invalid`.
-/

namespace Calculator

namespace Number

def add (x y : Number) : Number :=
  if x.isNaN then x
  else if y.isNaN then y
  else if x.isInfinite then
    if y.isInfinite && x.negative != y.negative then invalid else x
  else if y.isInfinite then y
  else
    let sum := x.units + y.units
    if sum = 0 then
      if x.negative && y.negative then negativeZero else zero
    else ofUnits sum

def sub (x y : Number) : Number :=
  if x.isNaN then x else if y.isNaN then y else x.add y.neg

def mul (x y : Number) : Number :=
  if x.isNaN then x
  else if y.isNaN then y
  else
    let negative := x.negative != y.negative
    if x.isInfinite || y.isInfinite then
      if x.isZero || y.isZero then invalid else { infinity with negative }
    else ofUnitRatio negative (x.unitsAbs * y.unitsAbs) unitsInOne

def div (x y : Number) : Number :=
  if x.isNaN then x
  else if y.isNaN then y
  else
    let negative := x.negative != y.negative
    if x.isInfinite then
      if y.isInfinite then invalid else { infinity with negative }
    else if y.isInfinite then { zero with negative }
    else if y.isZero then
      if x.isZero then invalid else { infinity with negative }
    else ofUnitRatio negative (x.unitsAbs * unitsInOne) y.unitsAbs

/-- The remainder of the division that rounds toward zero; it has the sign of the dividend. -/
def rem (x y : Number) : Number :=
  if x.isNaN then x
  else if y.isNaN then y
  else if x.isInfinite || y.isZero then invalid
  else if y.isInfinite then x
  else ofUnitRatio x.negative (x.unitsAbs % y.unitsAbs) 1

def mapWhole (whole : Nat → Nat) (x : Number) : Number :=
  if x.isNaN || x.isInfinite then x
  else ofUnitRatio x.negative (whole x.unitsAbs * unitsInOne) 1

def wholeAbove (count : Nat) : Nat := (count + (unitsInOne - 1)) / unitsInOne

def wholeBelow (count : Nat) : Nat := count / unitsInOne

def floor (x : Number) : Number := x.mapWhole (if x.negative then wholeAbove else wholeBelow)

def ceil (x : Number) : Number := x.mapWhole (if x.negative then wholeBelow else wholeAbove)

def trunc (x : Number) : Number := x.mapWhole wholeBelow

/-- Rounds to the nearest whole number, a half away from zero. -/
def round (x : Number) : Number :=
  x.mapWhole fun count => (2 * count + unitsInOne) / (2 * unitsInOne)

def floorDiv (x y : Number) : Number := (x.div y).floor

def sign? (x : Number) : Option Number :=
  if x.isNaN then none
  else if x.isZero then some zero
  else some (if x.negative then negativeOne else one)

end Number

end Calculator
