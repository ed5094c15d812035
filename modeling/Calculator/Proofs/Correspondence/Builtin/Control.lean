import Calculator.Builtin.Control
import Calculator.Proofs.Correspondence.Argument

/-! Conditions and loops on machines that evaluate alike. -/

namespace Calculator

namespace Correspondence

variable {C : Correspondence} {w : C.World}

/-- Two functions that do the same on machines that evaluate alike, with arguments and frames that belong
together, if they are given as many arguments as they take. -/
def Agree (C : Correspondence) (arity : Arity) (handler handler' : Handler) : Prop :=
  ∀ ⦃w m m' args args' f f'⦄, C.Machines m m' → List.Forall₂ C.expr args args' → C.frame w f f' →
    arity.Takes C.strict args → C.Related w Eq (handler m args f) (handler' m' args' f')

def Keeps (C : Correspondence) (builtin : Builtin) : Prop :=
  C.Agree builtin.arity builtin.handler builtin.handler

def KeepsAll (C : Correspondence) (table : List (String × Builtin)) : Prop :=
  ∀ entry ∈ table, C.Keeps entry.2

theorem keeps_evaluating {builtin : Builtin} (evaluates : Builtin.OnlyEvaluates builtin) :
    C.Keeps builtin := by
  intro w m m' args args' f f' h parts frames takes
  exact evaluates (C.congruence w) h.fuel (parts.imp fun _ _ exprs => h.solve exprs frames) takes

theorem Machines.accumulateTo {m m' : Machine} (h : C.Machines m m') {counter counter' : Expr}
    {f f' : FrameId} (counters : C.expr counter counter') (frames : C.frame w f f')
    {term term' : Eval Number} (terms : C.Related w Eq term term')
    (combine : Number → Number → Number) (last : Number) {fuel fuel' : Nat}
    (bounds : C.Bounds fuel fuel') (total : Number) :
    C.Related w Eq (Builtin.accumulateTo m combine counter last term f fuel total)
      (Builtin.accumulateTo m' combine counter' last term' f' fuel' total) := by
  induction fuel generalizing fuel' total with
  | zero =>
      exact .outOfFuel
        (y := fun fuel' => Builtin.accumulateTo m' combine counter' last term' f' fuel' total) bounds rfl
  | succ fuel ih =>
      obtain ⟨fuel', rfl, fewer⟩ := Comparison.bounds_succ bounds
      apply (h.solve counters frames).andThenSame
      intro current
      split
      · apply terms.andThenSame
        intro value
        apply (h.solve counters frames).andThenSame
        intro current
        exact (h.assignValue _ counters frames).andThenSame fun _ => ih fewer _
      · exact .value rfl

theorem keeps_accumulate (function : String) (start : Number)
    (combine : Number → Number → Number) :
    C.Keeps ⟨.exact 3, Builtin.accumulate function start combine⟩ := by
  intro w m m' args args' f f' h parts frames takes
  apply (get_arg parts function 0 (takes.given rfl)).andThen
  intro first first' exprs
  cases C.layer exprs with
  | assign counters values =>
      dsimp only
      rw [← assignable_eq counters]
      split
      · exact .fault (C.notAssignable counters)
      · apply (h.solve exprs frames).andThenSame
        intro _
        apply (h.solveArg parts frames function 1 (takes.given rfl)).andThenSame
        intro last
        exact h.accumulateTo counters frames (h.solveArg parts frames function 2 (takes.given rfl)) combine last
          h.fuel start
  | _ => exact refuseForm _ _ _

theorem keeps_controlTable : C.KeepsAll Builtin.controlTable := by
  simp only [KeepsAll, Builtin.controlTable, List.forall_mem_cons]
  exact ⟨keeps_evaluating Builtin.onlyEvaluates_ifThen, keeps_evaluating Builtin.onlyEvaluates_elseThen,
    keeps_evaluating Builtin.onlyEvaluates_switch, keeps_evaluating Builtin.onlyEvaluates_forLoop,
    keeps_evaluating Builtin.onlyEvaluates_whileLoop, keeps_evaluating Builtin.onlyEvaluates_doWhile,
    keeps_evaluating Builtin.onlyEvaluates_repeatTimes, keeps_accumulate _ _ _,
    keeps_accumulate _ _ _, List.forall_mem_nil _⟩

end Correspondence

end Calculator
