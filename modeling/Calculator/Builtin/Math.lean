import Calculator.Builtin

/-!
Functions of numbers, and the combinatorics of 64-bit integers.
-/

namespace Calculator

namespace Builtin

def ofReal (function : String) (f : Number → Number) : Handler := fun m args frame =>
  f <$> Argument.solve m function args 0 frame

def pow : Handler := fun m args frame => do
  let x ← Argument.solve m "pow" args 0 frame
  let y ← Argument.solve m "pow" args 1 frame
  return x.pow y

def withOption (function : String) (single : Number → Number) (double : Number → Number → Number) :
    Handler := fun m args frame => do
  let x ← Argument.solve m function args 0 frame
  if args.length = 1 then return single x
  else return double x (← Argument.solve m function args 1 frame)

def sign : Handler := fun m args frame => do
  match (← Argument.solve m "sign" args 0 frame).sign? with
  | some sign => return sign
  | none => throw (.host "Cannot take the sign of NaN.")

def clamp : Handler := fun m args frame => do
  let x ← Argument.solve m "clamp" args 0 frame
  let lo ← Argument.solve m "clamp" args 1 frame
  let hi ← Argument.solve m "clamp" args 2 frame
  if hi.less lo then
    Argument.refuse "clamp"
      s!"expects a minimum ({lo}) no greater than the maximum ({hi})"
  else return (x.max lo).min hi

def equals : Handler := fun m args frame => do
  let tolerance ← if 3 ≤ args.length then Argument.solve m "equals" args 2 frame else pure .zero
  let a ← Argument.solve m "equals" args 0 frame
  let b ← Argument.solve m "equals" args 1 frame
  return .ofBool ((a.sub b).abs.lessEqual tolerance)

/-- `start * first * (first + 1) * …` over `count` factors, unless a product is too large on the way. -/
def productFrom? (first : Nat) : (count : Nat) → (start : Nat) → Option Nat
  | 0, start => some start
  | count + 1, start =>
    if start * first ≤ Number.largestInteger then productFrom? (first + 1) count (start * first) else none

def overflow {α : Type} (function : String) : Eval α :=
  throw (.host ("Arithmetic overflow in \"" ++ function ++ "\"."))

def factorialOf (function : String) (n : Int) : Eval Nat :=
  if n < 0 then Argument.refuse function "cannot take the factorial of a negative number"
  else match productFrom? 2 (n.toNat - 1) 1 with
    | some product => return product
    | none => overflow function

/-- `n! / (n - k)!`, as the product of the `k` factors from `n - k + 1` on. -/
def fallingProduct (function : String) (n k : Int) : Eval Nat :=
  if n ≤ 0 then Argument.refuse function "cannot select from a non-positive n"
  else if k < 0 then Argument.refuse function "cannot select a negative k"
  else if n < k then Argument.refuse function "cannot select with k > n"
  else match productFrom? (n - k + 1).toNat k.toNat 1 with
    | some product => return product
    | none => overflow function

def factorial : Handler := fun m args frame => do
  let n := (← Argument.solve m "factorial" args 0 frame).truncate
  return .ofNat (← factorialOf "factorial" n)

def perm : Handler := fun m args frame => do
  let n := (← Argument.solve m "perm" args 0 frame).truncate
  let k := (← Argument.solve m "perm" args 1 frame).truncate
  return .ofNat (← fallingProduct "perm" n k)

def comb : Handler := fun m args frame => do
  let n := (← Argument.solve m "comb" args 0 frame).truncate
  let k := (← Argument.solve m "comb" args 1 frame).truncate
  let ordered ← fallingProduct "comb" n k
  let orders ← factorialOf "comb" k
  return .ofNat (ordered / orders)

def mathTable : List (String × Builtin) :=
  [("pow", ⟨.exact 2, pow⟩),
   ("exp", ⟨.exact 1, ofReal "exp" .exp⟩),
   ("sqrt", ⟨.exact 1, ofReal "sqrt" .sqrt⟩),
   ("cbrt", ⟨.exact 1, ofReal "cbrt" .cbrt⟩),
   ("log", ⟨.oneOf [1, 2], withOption "log" .log10 .logBase⟩),
   ("ln", ⟨.exact 1, ofReal "ln" .ln⟩),
   ("ceil", ⟨.exact 1, ofReal "ceil" .ceil⟩),
   ("floor", ⟨.exact 1, ofReal "floor" .floor⟩),
   ("round", ⟨.oneOf [1, 2], withOption "round" .round .roundTo⟩),
   ("trunc", ⟨.exact 1, ofReal "trunc" .trunc⟩),
   ("sin", ⟨.exact 1, ofReal "sin" .sin⟩),
   ("cos", ⟨.exact 1, ofReal "cos" .cos⟩),
   ("tan", ⟨.exact 1, ofReal "tan" .tan⟩),
   ("asin", ⟨.exact 1, ofReal "asin" .asin⟩),
   ("acos", ⟨.exact 1, ofReal "acos" .acos⟩),
   ("atan", ⟨.oneOf [1, 2], withOption "atan" .atan .atan2⟩),
   ("sinh", ⟨.exact 1, ofReal "sinh" .sinh⟩),
   ("cosh", ⟨.exact 1, ofReal "cosh" .cosh⟩),
   ("tanh", ⟨.exact 1, ofReal "tanh" .tanh⟩),
   ("rad", ⟨.exact 1, ofReal "rad" .toRadians⟩),
   ("deg", ⟨.exact 1, ofReal "deg" .toDegrees⟩),
   ("abs", ⟨.exact 1, ofReal "abs" .abs⟩),
   ("sign", ⟨.exact 1, sign⟩),
   ("clamp", ⟨.exact 3, clamp⟩),
   ("nan", ⟨.exact 1, ofReal "nan" fun x => .ofBool x.isNaN⟩),
   ("equals", ⟨.oneOf [2, 3], equals⟩),
   ("factorial", ⟨.exact 1, factorial⟩),
   ("perm", ⟨.exact 2, perm⟩),
   ("comb", ⟨.exact 2, comb⟩)]

end Builtin

end Calculator
