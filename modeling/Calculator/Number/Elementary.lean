import Calculator.Number.Arithmetic

/-!
Elementary functions.

They are the host's binary64 functions, whose results are correct but for the last bit; only the
treatment of NaN is fixed here: a NaN argument is handed on, and a result that does not exist is
`Number.invalid`, or `Number.nan` for the decimal logarithm and the inverses of sine and cosine.
-/

namespace Calculator

namespace Number

def toFloat (x : Number) : Float := Float.ofBits x.toBits

def ofFloat (missing : Number) (f : Float) : Number := if f.isNaN then missing else ofBits f.toBits

def partialElementary (missing : Number) (f : Float → Float) (x : Number) : Number :=
  if x.isNaN then x else ofFloat missing (f x.toFloat)

def elementary : (Float → Float) → Number → Number := partialElementary invalid

def exp : Number → Number := elementary Float.exp

def ln : Number → Number := elementary Float.log

def log10 : Number → Number := partialElementary nan Float.log10

def sin : Number → Number := elementary Float.sin

def cos : Number → Number := elementary Float.cos

def tan : Number → Number := elementary Float.tan

def asin : Number → Number := partialElementary nan Float.asin

def acos : Number → Number := partialElementary nan Float.acos

def atan : Number → Number := elementary Float.atan

def sinh : Number → Number := elementary Float.sinh

def cosh : Number → Number := elementary Float.cosh

def tanh : Number → Number := elementary Float.tanh

/-- The angle of the point `(x, y)`. Of two NaNs `x` is handed on. -/
def atan2 (y x : Number) : Number :=
  if x.isNaN then x else if y.isNaN then y else ofFloat invalid (Float.atan2 y.toFloat x.toFloat)

def isOdd (x : Number) : Bool :=
  !x.isNaN && !x.isInfinite && x.unitsAbs % (2 * unitsInOne) == unitsInOne

/-- One raised to anything and anything raised to zero are one, NaN included. A NaN raised to an odd
integer loses its sign. -/
def pow (x y : Number) : Number :=
  if x = one || y.isZero then one
  else if x.isNaN then if y.isOdd then x.abs else x
  else if y.isNaN then y
  else ofFloat invalid (Float.pow x.toFloat y.toFloat)

def logBase (x base : Number) : Number := x.ln.div base.ln

def pi : Number := ofBits 0x400921FB54442D18

def toRadians (x : Number) : Number := x.mul (pi.div (ofNat 180))

def toDegrees (x : Number) : Number := x.mul ((ofNat 180).div pi)

def roundTo (x places : Number) : Number :=
  let scale := (ofNat 10).pow places
  (x.mul scale).round.div scale

end Number

end Calculator
