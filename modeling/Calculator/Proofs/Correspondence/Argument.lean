import Calculator.Proofs.Correspondence.Assignment
import Calculator.Proofs.Correspondence.CellArray

/-! Arguments, as functions see them on machines that evaluate alike. -/

namespace Calculator

namespace Correspondence

variable {C : Correspondence} {w : C.World} {f f' : FrameId} {p p' : Expr}

theorem refuse {α β : Type} {r : α → β → Prop} {function message : String}
    (other : Argument.OtherMessage message) :
    C.Related w r (Argument.refuse function message) (Argument.refuse function message) :=
  (C.congruence w).refuse other

theorem refuseForm {α β : Type} {r : α → β → Prop} (function what : String) (index : Nat) :
    C.Related w r (Argument.refuseForm function what index)
      (Argument.refuseForm function what index) := by
  have start : Argument.OtherMessage "expects " := rfl
  exact refuse (((start.append what).append " as argument ").append _)

section Form

variable {args args' : List Expr} (parts : List.Forall₂ C.expr args args')
include parts

theorem get_rel (index : Nat) : Option.Rel C.expr args[index]? args'[index]? := by
  induction parts generalizing index with
  | nil => exact .none
  | cons first _ ih =>
      cases index with
      | zero => exact .some first
      | succ index => exact ih index

variable (function : String) (index : Nat) (given : Argument.Given C.strict args index)
include given

theorem get_arg : C.Related w C.expr (Argument.get function args index)
    (Argument.get function args' index) := by
  have gets := get_rel parts index
  unfold Argument.get
  generalize args'[index]? = arg' at gets ⊢
  cases found : args[index]? with
  | none =>
      rw [found] at gets
      cases gets
      have beyond : args.length ≤ index := List.getElem?_eq_none_iff.mp found
      exact .fault (C.fault_refl _ fun strict => absurd (given strict) (Nat.not_lt.mpr beyond))
  | some arg =>
      rw [found] at gets
      cases gets with
      | some exprs => exact .value exprs

theorem getForm (accepts : Expr → Bool) (what : String)
    (alike : ∀ e e', C.expr e e' → accepts e = accepts e') :
    C.Related w C.expr (Argument.getForm accepts what function args index)
      (Argument.getForm accepts what function args' index) := by
  apply (get_arg parts function index given).andThen
  intro e e' exprs
  rw [← alike e e' exprs]
  split
  · exact .value exprs
  · exact refuseForm _ _ _

theorem pointer_arg : C.Related w C.expr (Argument.pointer function args index)
    (Argument.pointer function args' index) :=
  getForm parts function index given _ _ fun _ _ exprs => by cases C.layer exprs <;> rfl

theorem callable_arg : C.Related w C.expr (Argument.callable function args index)
    (Argument.callable function args' index) :=
  getForm parts function index given _ _ fun _ _ exprs => by cases C.layer exprs <;> rfl

theorem assignable_arg : C.Related w C.expr (Argument.assignable function args index)
    (Argument.assignable function args' index) :=
  getForm parts function index given _ _ fun _ _ exprs => assignable_eq exprs

theorem quote_arg : C.Related w Eq (Argument.quote function args index)
    (Argument.quote function args' index) := by
  apply (get_arg parts function index given).andThen
  intro e e' exprs
  cases C.layer exprs with
  | quote text => exact .value rfl
  | _ => exact refuseForm _ _ _

end Form

namespace Machines

variable {m m' : Machine} (h : C.Machines m m')
include h

section Arguments

variable {args args' : List Expr} (parts : List.Forall₂ C.expr args args')
  (frames : C.frame w f f')
include parts frames

theorem solveArg (function : String) (index : Nat) (given : Argument.Given C.strict args index) :
    C.Related w Eq (Argument.solve m function args index f)
      (Argument.solve m' function args' index f') :=
  (get_arg parts function index given).andThen fun _ _ exprs => h.solve exprs frames

theorem textArg (function : String) (index : Nat) (given : Argument.Given C.strict args index) :
    C.Related w Eq (Argument.text m function args index f)
      (Argument.text m' function args' index f') := by
  apply (get_arg parts function index given).andThen
  intro e e' exprs
  have array : C.Related w Eq
      (do if ← m.pointsToMemory e f then return Text.ofCells (← CellArray.toList m e f)
          else Argument.refuseForm function "a pointer or a quote" index)
      (do if ← m'.pointsToMemory e' f' then return Text.ofCells (← CellArray.toList m' e' f')
          else Argument.refuseForm function "a pointer or a quote" index) := by
    apply (h.pointsToMemory exprs frames).andThenSame
    intro memory
    cases memory with
    | false => exact refuseForm _ _ _
    | true => exact (h.toList exprs frames).andThenSame fun _ => .value rfl
  cases C.layer exprs with
  | quote text => exact .value rfl
  | _ => exact array

theorem solveAll : C.Related w Eq (Argument.solveAll m args f) (Argument.solveAll m' args' f') :=
  Related.mono ((C.congruence w).mapM parts fun _ _ exprs => h.solve exprs frames) fun _ _ same =>
    List.forall₂_eq_eq_eq ▸ same.2

theorem values : C.Related w Eq (Argument.values m args f) (Argument.values m' args' f') := by
  have all := h.solveAll parts frames
  unfold Argument.values
  cases parts with
  | nil => exact .value rfl
  | cons first rest =>
      apply (h.pointsToMemory first frames).andThenSame
      intro memory
      cases memory with
      | false => exact all
      | true => exact h.toList first frames

theorem stored : C.Related w Eq (Argument.stored m args f) (Argument.stored m' args' f') := by
  have all := h.solveAll parts frames
  cases parts with
  | nil => exact all
  | cons first rest =>
      cases rest with
      | nil =>
          cases C.layer first with
          | quote text => exact .value rfl
          | _ => exact all
      | cons => cases C.layer first <;> exact all

end Arguments

theorem callWithElement (callees : C.expr p p') (element : Number) (index : Nat)
    (frames : C.frame w f f') :
    C.Related w Eq (Argument.callWithElement m p element index f)
      (Argument.callWithElement m' p' element index f') :=
  h.call callees (.cons (C.expr_constant _) (.cons (C.expr_constant _) .nil)) frames frames

end Machines

end Correspondence

end Calculator
