import Calculator.Builtin

/-!
Functions that reduce a list to one number: the array at the first argument if that is a pointer, and
otherwise the values of all arguments.
-/

namespace Calculator

namespace Reduce

/-- The empty sum is `-0`, which every addition leaves alone. -/
def sum (values : List Number) : Number := values.foldl Number.add .negativeZero

def product (values : List Number) : Number := values.foldl Number.mul .one

def max (values : List Number) : Number := values.foldl Number.max .negativeInfinity

def min (values : List Number) : Number := values.foldl Number.min .infinity

def mean (values : List Number) : Number := (sum values).div (.ofNat values.length)

def median (values : List Number) : Number :=
  let sorted := CellArray.sorted values
  let middle := sorted.length / 2
  if sorted.length % 2 = 0 then
    ((sorted.getD (middle - 1) .zero).add (sorted.getD middle .zero)).div (.ofNat 2)
  else sorted.getD middle .zero

end Reduce

namespace Builtin

def reduceAny (reduce : List Number → Number) : Handler := fun m args frame =>
  reduce <$> Argument.values m args frame

def reduceSome (function : String) (reduce : List Number → Number) : Handler := fun m args frame => do
  let values ← Argument.values m args frame
  if values.isEmpty then Argument.refuse function "cannot reduce an empty list"
  else return reduce values

def reduceTable : List (String × Builtin) :=
  [("max", ⟨.atLeast 1, reduceSome "max" Reduce.max⟩),
   ("min", ⟨.atLeast 1, reduceSome "min" Reduce.min⟩),
   ("sum", ⟨.atLeast 1, reduceAny Reduce.sum⟩),
   ("product", ⟨.atLeast 1, reduceAny Reduce.product⟩),
   ("mean", ⟨.atLeast 1, reduceSome "mean" Reduce.mean⟩),
   ("median", ⟨.atLeast 1, reduceSome "median" Reduce.median⟩)]

end Builtin

end Calculator
