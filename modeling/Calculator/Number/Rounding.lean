import Calculator.Number

/-!
Exact magnitudes and rounding.

Every finite number is a whole multiple of the least positive one, `2 ^ -1074`, called a unit here.
So sums, products and quotients are formed exactly, as integers or fractions of units, and then
rounded once to the nearest pattern, ties to the even one.
-/

namespace Calculator

namespace Number

def unitsInOne : Nat := Nat.pow 2 1074

def mantissaOfPattern (p : Nat) : Nat := if p < binade then p else binade + p % binade

def shiftOfPattern (p : Nat) : Nat := p / binade - 1

/-- The magnitude of a finite pattern in units. -/
def unitsOfPattern (p : Nat) : Nat := mantissaOfPattern p <<< shiftOfPattern p

def units (x : Number) : Int :=
  if x.negative then -(unitsOfPattern x.pattern : Int) else unitsOfPattern x.pattern

def unitsAbs (x : Number) : Nat := unitsOfPattern x.pattern

/-- The quotient rounded to the nearest whole number, a half to the even one. -/
def divideToEven (num den : Nat) : Nat :=
  let quotient := num / den
  let twice := 2 * (num % den)
  if twice < den then quotient
  else if den < twice then quotient + 1
  else quotient + quotient % 2

/-- The pattern nearest to `num / den` units: 53 significant bits are kept, and what rounds past the
largest finite number is infinite. -/
def nearestPattern (num den : Nat) : Nat :=
  let shift := Nat.log2 (num / den) - 52
  Nat.min (divideToEven num (den <<< shift) + shift * binade) infinityPattern

theorem nearestPattern_le (num den : Nat) : nearestPattern num den ≤ infinityPattern :=
  Nat.min_le_right _ _

theorem infinityPattern_lt : infinityPattern < signBit := by decide

def ofUnitRatio (negative : Bool) (num den : Nat) : Number :=
  ⟨negative, nearestPattern num den,
    Nat.lt_of_le_of_lt (nearestPattern_le num den) infinityPattern_lt⟩

def ofUnits (count : Int) : Number := ofUnitRatio (count < 0) count.natAbs 1

def ofInt (i : Int) : Number := ofUnitRatio (i < 0) (i.natAbs * unitsInOne) 1

def ofNat (n : Nat) : Number := ofUnitRatio false (n * unitsInOne) 1

def wholePart (x : Number) : Nat := x.unitsAbs / unitsInOne

def largestInteger : Nat := 0x7FFFFFFFFFFFFFFF

def leastInteger : Int := -0x8000000000000000

def largestCount : Nat := 0xFFFFFFFFFFFFFFFF

/-- Rounds toward zero into the 64-bit integers; what lies outside goes to the nearer end, and NaN
to zero. -/
def truncate (x : Number) : Int :=
  if x.isNaN then 0
  else if x.negative then
    if x.isInfinite then leastInteger else Max.max (-(x.wholePart : Int)) leastInteger
  else
    if x.isInfinite then largestInteger else Min.min (x.wholePart : Int) largestInteger

/-- Reads a number as a count: its whole part, with NaN and everything below one taken as none. -/
def toCount (x : Number) : Nat :=
  if x.isNaN || x.negative then 0
  else if x.isInfinite then largestCount else Nat.min x.wholePart largestCount

end Number

end Calculator
