import Calculator.Number.Rounding

/-!
Bitwise operations: numbers are truncated to 64-bit two's complement words, combined there and
widened again. Shift amounts count modulo 64.
-/

namespace Calculator

namespace Number

def toWord (x : Number) : BitVec 64 := BitVec.ofInt 64 x.truncate

def ofWord (w : BitVec 64) : Number := ofInt w.toInt

def toShift (x : Number) : Nat := (x.truncate % 64).toNat

def bitAnd (x y : Number) : Number := ofWord (x.toWord &&& y.toWord)

def bitOr (x y : Number) : Number := ofWord (x.toWord ||| y.toWord)

def bitXor (x y : Number) : Number := ofWord (x.toWord ^^^ y.toWord)

def shiftLeft (x y : Number) : Number := ofWord (x.toWord <<< y.toShift)

/-- The shift to the right repeats the sign bit. -/
def shiftRight (x y : Number) : Number := ofWord (x.toWord.sshiftRight y.toShift)

def complement (x : Number) : Number := ofWord (~~~x.toWord)

end Number

end Calculator
