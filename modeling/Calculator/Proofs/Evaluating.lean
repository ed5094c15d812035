import Mathlib.Data.List.Forall2
import Mathlib.Data.Option.Defs
import Calculator.Builtin.Control
import Calculator.Builtin.Math
import Calculator.Builtin.Program

/-! Functions that do nothing but evaluate their arguments, and choose which and how often.

Such a function cannot tell two evaluations of an argument apart but by their values. So every relation
between evaluations that doing one thing after the other keeps is kept by the function. -/

namespace Calculator

/-- A function was called that does not exist, or looks at an argument that it was not given. -/
def RuntimeError.Undispatched : RuntimeError → Prop
  | .unknownFunction _ => True
  | .evaluation _ message => ∃ position : Nat, message = "is missing argument " ++ toString position
  | _ => False

/-- A message that does not begin like that of a missing argument. -/
def Argument.OtherMessage (message : String) : Prop := message.toList.head?.any (· ≠ 'i') = true

theorem Argument.OtherMessage.append {start : String} (other : OtherMessage start) (rest : String) :
    OtherMessage (start ++ rest) := by
  unfold OtherMessage at other ⊢
  rw [String.toList_append]
  cases text : start.toList with
  | nil =>
      rw [text] at other
      cases other
  | cons c cs =>
      rw [text] at other
      exact other

theorem Argument.OtherMessage.dispatched {function message : String} (other : OtherMessage message) :
    ¬(RuntimeError.evaluation function message).Undispatched := by
  rintro ⟨position, rfl⟩
  unfold OtherMessage at other
  rw [String.toList_append] at other
  cases other

def Arity.least : Arity → Nat
  | .exact count | .atLeast count => count
  | .oneOf counts => counts.min?.getD 0

theorem Arity.least_le {arity : Arity} {count : Nat} (accepted : arity.accepts count = true) :
    arity.least ≤ count := by
  cases arity with
  | exact n => exact Nat.le_of_eq (beq_iff_eq.mp accepted).symm
  | atLeast n => exact of_decide_eq_true accepted
  | oneOf counts =>
      have mem : count ∈ counts := List.contains_iff_mem.mp accepted
      change counts.min?.getD 0 ≤ count
      cases found : counts.min? with
      | none => exact Nat.zero_le _
      | some n => exact (List.min?_eq_some_iff.mp found).2 count mem

section Strict

variable {strict : Prop} {arity : Arity} {args : List Expr} {index : Nat}

def Argument.Given (strict : Prop) (args : List Expr) (index : Nat) : Prop :=
  strict → index < args.length

def Arity.Takes (arity : Arity) (strict : Prop) (args : List Expr) : Prop :=
  strict → arity.accepts args.length = true

theorem Arity.Takes.given (takes : arity.Takes strict args)
    (within : decide (index < arity.least) = true) : Argument.Given strict args index :=
  fun called => Nat.lt_of_lt_of_le (of_decide_eq_true within) (least_le (takes called))

end Strict

/-- A relation between evaluations that doing one thing after the other keeps. -/
structure Eval.Congruence where
  Rel : {α β : Type} → (α → β → Prop) → Eval α → Eval β → Prop
  Bounds : Nat → Nat → Prop
  strict : Prop := False
  value {α β : Type} {r : α → β → Prop} {a : α} {b : β} : r a b → Rel r (pure a) (pure b)
  fault {α β : Type} {r : α → β → Prop} (error : RuntimeError)
    (dispatched : strict → ¬error.Undispatched) : Rel r (throw error) (throw error)
  andThen {α β α' β' : Type} {r : α → β → Prop} {q : α' → β' → Prop} {x : Eval α} {y : Eval β}
    {f : α → Eval α'} {g : β → Eval β'} :
    Rel r x y → (∀ a b, r a b → Rel q (f a) (g b)) → Rel q (x >>= f) (y >>= g)
  bounds_succ {n n' : Nat} : Bounds (n + 1) n' → ∃ k, n' = k + 1 ∧ Bounds n k
  outOfFuel {α β : Type} {r : α → β → Prop} {n : Nat} {y : Nat → Eval β} :
    Bounds 0 n → y 0 = Eval.outOfFuel → Rel r (Eval.outOfFuel : Eval α) (y n)

namespace Eval.Congruence

variable (K : Eval.Congruence)

def Arguments (m m' : Machine) (args args' : List Expr) (f f' : FrameId) : Prop :=
  List.Forall₂ (fun e e' => K.Rel Eq (m.solve e f) (m'.solve e' f')) args args'

variable {K} {α β γ δ : Type}

theorem andThenSame {q : γ → δ → Prop} {x y : Eval α} {f : α → Eval γ} {g : α → Eval δ}
    (first : K.Rel Eq x y) (next : ∀ a, K.Rel q (f a) (g a)) : K.Rel q (x >>= f) (y >>= g) :=
  K.andThen first fun a _ same => same ▸ next a

theorem refuse {r : α → β → Prop} {function message : String}
    (other : Argument.OtherMessage message) :
    K.Rel r (Argument.refuse function message) (Argument.refuse function message) :=
  K.fault _ fun _ => other.dispatched

theorem mapped {x y : Eval α} (f : α → β) (related : K.Rel Eq x y) :
    K.Rel Eq (f <$> x) (f <$> y) :=
  andThenSame related fun _ => K.value rfl

theorem mapM {r : α → β → Prop} {q : γ → δ → Prop} {f : α → Eval γ} {g : β → Eval δ} {xs : List α}
    {ys : List β} (all : List.Forall₂ r xs ys) (each : ∀ x y, r x y → K.Rel q (f x) (g y)) :
    K.Rel (fun as bs => as.length = xs.length ∧ List.Forall₂ q as bs) (xs.mapM f) (ys.mapM g) := by
  induction all with
  | nil => exact K.value ⟨rfl, .nil⟩
  | cons first rest ih =>
      rw [List.mapM_cons, List.mapM_cons]
      apply K.andThen (each _ _ first)
      intro a b head
      apply K.andThen ih
      intro as bs tail
      exact K.value ⟨congrArg Nat.succ tail.1, .cons head tail.2⟩

theorem forget {x y : Eval α} (related : K.Rel Eq x y) :
    K.Rel Eq (do let _ ← x) (do let _ ← y) :=
  andThenSame related fun _ => K.value rfl

theorem loopWhile {condition condition' : Eval Number} {round round' : Eval Unit}
    (conditions : K.Rel Eq condition condition') (rounds : K.Rel Eq round round') (count : Nat)
    {n n' : Nat} (bounds : K.Bounds n n') :
    K.Rel Eq (Builtin.loopWhile condition round count n)
      (Builtin.loopWhile condition' round' count n') := by
  induction n generalizing n' count with
  | zero => exact K.outOfFuel (y := Builtin.loopWhile condition' round' count) bounds rfl
  | succ n ih =>
      obtain ⟨n', rfl, fewer⟩ := K.bounds_succ bounds
      apply andThenSame conditions
      intro value
      split
      · exact andThenSame rounds fun _ => ih (count + 1) fewer
      · exact K.value rfl

theorem repeatBelow {round round' : Eval Unit} (rounds : K.Rel Eq round round')
    (bound counter : Number) {n n' : Nat} (bounds : K.Bounds n n') :
    K.Rel Eq (Builtin.repeatBelow round bound counter n)
      (Builtin.repeatBelow round' bound counter n') := by
  induction n generalizing n' counter with
  | zero => exact K.outOfFuel (y := Builtin.repeatBelow round' bound counter) bounds rfl
  | succ n ih =>
      obtain ⟨n', rfl, fewer⟩ := K.bounds_succ bounds
      unfold Builtin.repeatBelow
      split
      · exact andThenSame rounds fun _ => ih _ fewer
      · exact K.value rfl

namespace Arguments

variable {m m' : Machine} {args args' : List Expr} {f f' : FrameId}
  (arguments : K.Arguments m m' args args' f f')
include arguments

theorem length_eq : args.length = args'.length := List.Forall₂.length_eq arguments

theorem get (index : Nat) :
    Option.Rel (fun e e' => K.Rel Eq (m.solve e f) (m'.solve e' f')) args[index]? args'[index]? := by
  induction arguments generalizing index with
  | nil => exact .none
  | cons first _ ih =>
      cases index with
      | zero => exact .some first
      | succ index => exact ih index

theorem solve (function : String) (index : Nat) (given : Argument.Given K.strict args index) :
    K.Rel Eq (Argument.solve m function args index f)
      (Argument.solve m' function args' index f') := by
  have gets := arguments.get index
  unfold Argument.solve Argument.get
  generalize args'[index]? = arg' at gets ⊢
  cases found : args[index]? with
  | none =>
      rw [found] at gets
      cases gets
      have beyond : args.length ≤ index := List.getElem?_eq_none_iff.mp found
      exact K.fault _ fun strict => absurd (given strict) (Nat.not_lt.mpr beyond)
  | some arg =>
      rw [found] at gets
      cases gets with
      | some related => exact related

theorem switchCases (subject : Number) :
    K.Rel Eq (Builtin.switchCases m subject f args) (Builtin.switchCases m' subject f' args') := by
  induction args using Builtin.switchCases.induct generalizing args' with
  | case1 =>
      cases arguments
      exact K.value rfl
  | case2 default =>
      obtain ⟨default', _, related, rest, rfl⟩ := List.forall₂_cons_left_iff.mp arguments
      cases rest
      exact related
  | case3 case result rest ih =>
      obtain ⟨case', _, cases, tail, rfl⟩ := List.forall₂_cons_left_iff.mp arguments
      obtain ⟨result', rest', results, rests, rfl⟩ := List.forall₂_cons_left_iff.mp tail
      apply andThenSame cases
      intro value
      split
      · exact results
      · exact ih rests

end Arguments

end Eval.Congruence

namespace Builtin

def OnlyEvaluates (builtin : Builtin) : Prop :=
  ∀ (K : Eval.Congruence) ⦃m m' : Machine⦄ ⦃args args' : List Expr⦄ ⦃f f' : FrameId⦄,
    K.Bounds m.fuel m'.fuel → K.Arguments m m' args args' f f' →
      builtin.arity.Takes K.strict args →
        K.Rel Eq (builtin.handler m args f) (builtin.handler m' args' f')

theorem onlyEvaluates_ifThen : OnlyEvaluates ⟨.oneOf [2, 3], ifThen⟩ := by
  intro K m m' args args' f f' _ arguments takes
  apply K.andThenSame (arguments.solve "if" 0 (takes.given rfl))
  intro condition
  rw [← arguments.length_eq]
  split
  · exact arguments.solve "if" 1 (takes.given rfl)
  · split
    · rename_i more
      exact arguments.solve "if" 2 fun _ => more
    · exact K.value rfl

theorem onlyEvaluates_elseThen : OnlyEvaluates ⟨.exact 2, elseThen⟩ := by
  intro K m m' args args' f f' _ arguments takes
  apply K.andThenSame (arguments.solve "else" 0 (takes.given rfl))
  intro condition
  split
  · exact K.value rfl
  · exact arguments.solve "else" 1 (takes.given rfl)

theorem onlyEvaluates_switch : OnlyEvaluates ⟨.atLeast 1, switch⟩ := by
  intro K m m' args args' f f' _ arguments takes
  apply K.andThenSame (arguments.solve "switch" 0 (takes.given rfl))
  intro subject
  cases arguments with
  | nil => exact K.value rfl
  | cons _ rest => exact Eval.Congruence.Arguments.switchCases rest subject

theorem onlyEvaluates_forLoop : OnlyEvaluates ⟨.exact 4, forLoop⟩ := by
  intro K m m' args args' f f' bounds arguments takes
  apply K.andThenSame (arguments.solve "for" 0 (takes.given rfl))
  intro _
  refine K.loopWhile (arguments.solve "for" 1 (takes.given rfl)) ?_ 0 bounds
  apply K.andThenSame (arguments.solve "for" 3 (takes.given rfl))
  intro _
  exact K.forget (arguments.solve "for" 2 (takes.given rfl))

theorem onlyEvaluates_whileLoop : OnlyEvaluates ⟨.exact 2, whileLoop⟩ := by
  intro K m m' args args' f f' bounds arguments takes
  exact K.loopWhile (arguments.solve "while" 0 (takes.given rfl)) (K.forget (arguments.solve "while" 1 (takes.given rfl))) 0 bounds

theorem onlyEvaluates_doWhile : OnlyEvaluates ⟨.exact 2, doWhile⟩ := by
  intro K m m' args args' f f' bounds arguments takes
  have round : K.Rel Eq (do let _ ← Argument.solve m "dowhile" args 1 f)
      (do let _ ← Argument.solve m' "dowhile" args' 1 f') :=
    K.forget (arguments.solve "dowhile" 1 (takes.given rfl))
  apply K.andThenSame round
  intro _
  exact K.loopWhile (arguments.solve "dowhile" 0 (takes.given rfl)) round 1 bounds

theorem onlyEvaluates_repeatTimes : OnlyEvaluates ⟨.exact 2, repeatTimes⟩ := by
  intro K m m' args args' f f' bounds arguments takes
  apply K.andThenSame (arguments.solve "repeat" 1 (takes.given rfl))
  intro times
  refine K.andThenSame ?_ fun _ => K.value rfl
  exact K.repeatBelow (K.forget (arguments.solve "repeat" 0 (takes.given rfl))) times .zero bounds

theorem onlyEvaluates_eval : OnlyEvaluates ⟨.exact 1, eval⟩ := by
  intro K m m' args args' f f' _ arguments takes
  exact arguments.solve "eval" 0 (takes.given rfl)

theorem onlyEvaluates_ofReal (function : String) (g : Number → Number) :
    OnlyEvaluates ⟨.exact 1, ofReal function g⟩ := by
  intro K m m' args args' f f' _ arguments takes
  exact K.mapped g (arguments.solve function 0 (takes.given rfl))

theorem onlyEvaluates_pow : OnlyEvaluates ⟨.exact 2, pow⟩ := by
  intro K m m' args args' f f' _ arguments takes
  apply K.andThenSame (arguments.solve "pow" 0 (takes.given rfl))
  intro x
  exact K.andThenSame (arguments.solve "pow" 1 (takes.given rfl)) fun y => K.value rfl

theorem onlyEvaluates_withOption (function : String) (single : Number → Number)
    (double : Number → Number → Number) :
    OnlyEvaluates ⟨.oneOf [1, 2], withOption function single double⟩ := by
  intro K m m' args args' f f' _ arguments takes
  apply K.andThenSame (arguments.solve function 0 (takes.given rfl))
  intro x
  rw [← arguments.length_eq]
  split
  · exact K.value rfl
  · rename_i several
    have given : Argument.Given K.strict args 1 := by
      intro strict
      have two : args.length ∈ [1, 2] := List.contains_iff_mem.mp (takes strict)
      simp only [List.mem_cons, List.not_mem_nil, or_false] at two
      omega
    exact K.andThenSame (arguments.solve function 1 given) fun y => K.value rfl

theorem onlyEvaluates_sign : OnlyEvaluates ⟨.exact 1, sign⟩ := by
  intro K m m' args args' f f' _ arguments takes
  apply K.andThenSame (arguments.solve "sign" 0 (takes.given rfl))
  intro x
  cases x.sign? with
  | none => exact K.fault _ fun _ => id
  | some sign => exact K.value rfl

theorem onlyEvaluates_clamp : OnlyEvaluates ⟨.exact 3, clamp⟩ := by
  intro K m m' args args' f f' _ arguments takes
  apply K.andThenSame (arguments.solve "clamp" 0 (takes.given rfl))
  intro x
  apply K.andThenSame (arguments.solve "clamp" 1 (takes.given rfl))
  intro lo
  apply K.andThenSame (arguments.solve "clamp" 2 (takes.given rfl))
  intro hi
  split
  · have start : Argument.OtherMessage (toString "expects a minimum (") := rfl
    exact K.refuse ((((start.append _).append _).append _).append _)
  · exact K.value rfl

theorem onlyEvaluates_equals : OnlyEvaluates ⟨.oneOf [2, 3], equals⟩ := by
  intro K m m' args args' f f' _ arguments takes
  have compare : ∀ tolerance : Number,
      K.Rel Eq
        (do let a ← Argument.solve m "equals" args 0 f
            let b ← Argument.solve m "equals" args 1 f
            return Number.ofBool ((a.sub b).abs.lessEqual tolerance))
        (do let a ← Argument.solve m' "equals" args' 0 f'
            let b ← Argument.solve m' "equals" args' 1 f'
            return Number.ofBool ((a.sub b).abs.lessEqual tolerance)) := by
    intro tolerance
    apply K.andThenSame (arguments.solve "equals" 0 (takes.given rfl))
    intro a
    exact K.andThenSame (arguments.solve "equals" 1 (takes.given rfl)) fun b => K.value rfl
  unfold equals
  dsimp only
  rw [← arguments.length_eq]
  split
  · rename_i three
    exact K.andThenSame (arguments.solve "equals" 2 fun _ => three) compare
  · exact compare .zero

theorem rel_factorialOf (K : Eval.Congruence) (function : String) (n : Int) :
    K.Rel Eq (factorialOf function n) (factorialOf function n) := by
  unfold factorialOf
  split
  · exact K.refuse rfl
  · split
    · exact K.value rfl
    · exact K.fault _ fun _ => id

theorem rel_fallingProduct (K : Eval.Congruence) (function : String) (n k : Int) :
    K.Rel Eq (fallingProduct function n k) (fallingProduct function n k) := by
  unfold fallingProduct
  split
  · exact K.refuse rfl
  split
  · exact K.refuse rfl
  split
  · exact K.refuse rfl
  split
  · exact K.value rfl
  · exact K.fault _ fun _ => id

theorem onlyEvaluates_factorial : OnlyEvaluates ⟨.exact 1, factorial⟩ := by
  intro K m m' args args' f f' _ arguments takes
  apply K.andThenSame (arguments.solve "factorial" 0 (takes.given rfl))
  intro n
  exact K.andThenSame (rel_factorialOf K "factorial" n.truncate) fun _ => K.value rfl

theorem onlyEvaluates_perm : OnlyEvaluates ⟨.exact 2, perm⟩ := by
  intro K m m' args args' f f' _ arguments takes
  apply K.andThenSame (arguments.solve "perm" 0 (takes.given rfl))
  intro n
  apply K.andThenSame (arguments.solve "perm" 1 (takes.given rfl))
  intro k
  exact K.andThenSame (rel_fallingProduct K "perm" n.truncate k.truncate) fun _ => K.value rfl

theorem onlyEvaluates_comb : OnlyEvaluates ⟨.exact 2, comb⟩ := by
  intro K m m' args args' f f' _ arguments takes
  apply K.andThenSame (arguments.solve "comb" 0 (takes.given rfl))
  intro n
  apply K.andThenSame (arguments.solve "comb" 1 (takes.given rfl))
  intro k
  apply K.andThenSame (rel_fallingProduct K "comb" n.truncate k.truncate)
  intro ordered
  exact K.andThenSame (rel_factorialOf K "comb" k.truncate) fun _ => K.value rfl

theorem onlyEvaluates_mathTable : ∀ entry ∈ mathTable, OnlyEvaluates entry.2 := by
  simp only [mathTable, List.forall_mem_cons]
  simp only [onlyEvaluates_ofReal, onlyEvaluates_withOption, true_and]
  exact ⟨onlyEvaluates_pow, onlyEvaluates_sign, onlyEvaluates_clamp, onlyEvaluates_equals,
    onlyEvaluates_factorial, onlyEvaluates_perm, onlyEvaluates_comb, List.forall_mem_nil _⟩

end Builtin

end Calculator
