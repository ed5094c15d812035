/-!
The calculator's only kind of value: an IEEE 754 binary64 datum, NaNs of both signs included.

A number is a sign and a pattern. The pattern holds the exponent and fraction fields, so that
patterns order magnitudes: zero is `0`, the finite magnitudes follow in ascending order, then comes
infinity, and every larger pattern is a NaN.
-/

namespace Calculator

def Number.signBit : Nat := 0x8000000000000000

structure Number where
  negative : Bool
  pattern : Nat
  pattern_lt : pattern < Number.signBit
  deriving DecidableEq, Repr

namespace Number

def binade : Nat := 0x10000000000000

def infinityPattern : Nat := 2047 * binade

def zero : Number := ⟨false, 0, by decide⟩

def negativeZero : Number := ⟨true, 0, by decide⟩

def one : Number := ⟨false, 1023 * binade, by decide⟩

def negativeOne : Number := ⟨true, 1023 * binade, by decide⟩

def infinity : Number := ⟨false, infinityPattern, by decide⟩

def negativeInfinity : Number := ⟨true, infinityPattern, by decide⟩

def nan : Number := ⟨false, infinityPattern + binade / 2, by decide⟩

/-- The NaN that an operation without a defined result produces. -/
def invalid : Number := ⟨true, infinityPattern + binade / 2, by decide⟩

instance : Inhabited Number := ⟨zero⟩

def isNaN (x : Number) : Bool := infinityPattern < x.pattern

def isInfinite (x : Number) : Bool := x.pattern == infinityPattern

def isZero (x : Number) : Bool := x.pattern == 0

/-- Every number but the two zeros counts as true, NaN included. -/
def isTrue (x : Number) : Bool := !x.isZero

def ofBool (b : Bool) : Number := if b then one else zero

def neg (x : Number) : Number := { x with negative := !x.negative }

def abs (x : Number) : Number := { x with negative := false }

def toBits (x : Number) : UInt64 :=
  UInt64.ofNat (x.pattern + if x.negative then signBit else 0)

def ofBits (bits : UInt64) : Number :=
  ⟨signBit ≤ bits.toNat, bits.toNat % signBit, Nat.mod_lt _ (by decide)⟩

/-- The place of a number on the line of non-NaN values; the two zeros share one place. -/
def position (x : Number) : Int := if x.negative then -(x.pattern : Int) else x.pattern

def less (x y : Number) : Bool := !x.isNaN && !y.isNaN && x.position < y.position

def lessEqual (x y : Number) : Bool := !x.isNaN && !y.isNaN && x.position ≤ y.position

def equal (x y : Number) : Bool := !x.isNaN && !y.isNaN && x.position == y.position

/-- The place of a datum in the total order of all data: negative NaNs, the negative numbers, `-0`,
`0`, the positive numbers, positive NaNs. -/
def rank (x : Number) : Int := if x.negative then -(x.pattern : Int) - 1 else x.pattern

/-- The larger operand; a NaN gives way to the other. The right one is taken of equal operands, and the
left one of two NaNs. -/
def max (x y : Number) : Number := if y.isNaN then x else if y.less x then x else y

def min (x y : Number) : Number := if y.isNaN then x else if x.less y then x else y

end Number

end Calculator
