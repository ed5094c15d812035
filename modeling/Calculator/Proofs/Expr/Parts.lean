import Calculator.Expr

/-! What an expression is made of, and what holds of all its nodes. -/

namespace Calculator

namespace Expr

def parts : Expr → List Expr
  | .constant _ | .globalVar _ | .localVar _ | .quote _ => []
  | .macroRef _ args _ | .call _ args => args
  | .lambda _ e | .pointer e | .localPointer e | .unary _ e => [e]
  | .assign left right | .binary _ left right => [left, right]

inductive Every (P : Expr → Prop) : Expr → Prop
  | intro {e : Expr} (here : P e) (parts : ∀ part ∈ e.parts, Every P part) : Every P e

theorem Every.here {P : Expr → Prop} {e : Expr} (every : Every P e) : P e := by
  cases every with
  | intro here parts => exact here

theorem Every.mono {P Q : Expr → Prop} {e : Expr} (every : Every P e) (weaker : ∀ e, P e → Q e) :
    Every Q e := by
  induction every with
  | intro here _ ih => exact .intro (weaker _ here) ih

theorem Every.and {P Q : Expr → Prop} {e : Expr} (first : Every P e) (second : Every Q e) :
    Every (fun e => P e ∧ Q e) e := by
  induction first with
  | intro here _ ih =>
      obtain ⟨here', parts'⟩ := second
      exact .intro ⟨here, here'⟩ fun part mem => ih part mem (parts' part mem)

namespace Every

variable {P : Expr → Prop} {e part left right : Expr}

theorem leaf (here : P e) (none : e.parts = []) : Every P e := by
  refine .intro here ?_
  rw [none]
  exact List.forall_mem_nil _

theorem one (here : P e) (parts : e.parts = [part]) (inner : Every P part) : Every P e := by
  refine .intro here ?_
  rw [parts]
  exact List.forall_mem_singleton.mpr inner

theorem two (here : P e) (parts : e.parts = [left, right]) (lefts : Every P left)
    (rights : Every P right) : Every P e := by
  refine .intro here ?_
  rw [parts]
  exact List.forall_mem_cons.mpr ⟨lefts, List.forall_mem_singleton.mpr rights⟩

end Every

def CallsOnly (functions : String → Bool) : Expr → Prop :=
  Every fun e => ∀ name args, e = .call name args → functions name = true

end Expr

end Calculator
