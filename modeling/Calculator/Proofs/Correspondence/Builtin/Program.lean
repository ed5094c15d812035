import Calculator.Builtin.Program
import Calculator.Proofs.Correspondence.Builtin.Control
import Calculator.Proofs.Expr.Formed

/-! Functions that evaluate, assign, run text, and raise and catch errors, on machines that evaluate
alike. -/

namespace Calculator

namespace Correspondence

variable {C : Correspondence} {w : C.World}

theorem Machines.runText {m m' : Machine} (h : C.Machines m m') (text : String) :
    C.Related w Eq (m.runText text) (m'.runText text) := by
  apply Related.read.andThen
  intro s t sessions
  rw [h.isFunction, h.imply, C.hasMacro sessions]
  split
  · exact .fault (C.fault_refl _ fun _ => id)
  · rename_i parsed reads
    obtain ⟨root, implied⟩ := parsed
    cases root with
    | none => exact .value rfl
    | some root =>
        have calls : C.Calls root := by
          intro functions strict
          rw [← h.functions functions strict, h.isFunction]
          exact (Parsed.ofText_formed reads).callsOnly
        exact .inFrame C.entered_main (h.solve (C.expr_refl root calls) C.frame_top)

theorem keeps_call : C.Keeps ⟨.atLeast 1, Builtin.call⟩ := by
  intro w m m' args args' f f' h parts frames takes
  apply (callable_arg parts "call" 0 (takes.given rfl)).andThen
  intro callee callee' callees
  refine h.call callees ?_ frames frames
  cases parts with
  | nil => exact .nil
  | cons _ rest => exact rest

theorem keeps_val : C.Keeps ⟨.exact 2, Builtin.val⟩ := by
  intro w m m' args args' f f' h parts frames takes
  apply (assignable_arg parts "val" 0 (takes.given rfl)).andThen
  intro target target' targets
  apply (h.solveArg parts frames "val" 1 (takes.given rfl)).andThenSame
  intro value
  exact h.assignValue value targets frames

theorem keeps_ignore : C.Keeps ⟨.atLeast 0, Builtin.ignore⟩ :=
  fun _ _ _ _ _ _ _ _ _ _ _ => .value rfl

theorem keeps_deepSet (settles : C.Settles) : C.Keeps ⟨.exact 2, Builtin.deepSet⟩ := by
  intro w m m' args args' f f' h parts frames takes
  apply (assignable_arg parts "deepset" 0 (takes.given rfl)).andThen
  intro target target' targets
  apply (get_arg parts "deepset" 1 (takes.given rfl)).andThen
  intro arg arg' exprs
  apply (h.handOn exprs frames).andThen
  intro source source' sources
  exact h.deepAssign settles targets sources frames

theorem keeps_deepVal : C.Keeps ⟨.exact 2, Builtin.deepVal⟩ := by
  intro w m m' args args' f f' h parts frames takes
  apply (assignable_arg parts "deepval" 0 (takes.given rfl)).andThen
  intro target target' targets
  apply (h.solveArg parts frames "deepval" 1 (takes.given rfl)).andThenSame
  intro value
  exact h.deepAssignValue value targets frames

theorem Machines.enumerateFrom {m m' : Machine} (h : C.Machines m m') {args args' : List Expr}
    {f f' : FrameId} (parts : List.Forall₂ C.expr args args') (frames : C.frame w f f')
    {rest rest' : List Expr} (rests : List.Forall₂ C.expr rest rest') (index : Nat)
    (within : index + rest.length ≤ args.length) :
    C.Related w Eq (Builtin.enumerateFrom m args f index rest)
      (Builtin.enumerateFrom m' args' f' index rest') := by
  induction rests generalizing index with
  | nil => exact .value rfl
  | cons _ _ ih =>
      rw [List.length_cons] at within
      apply (assignable_arg parts "enum" index fun _ => by omega).andThen
      intro target target' targets
      exact (h.assignValue _ targets frames).andThenSame fun _ => ih (index + 1) (by omega)

theorem keeps_enumerate : C.Keeps ⟨.atLeast 1, Builtin.enumerate⟩ := by
  intro w m m' args args' f f' h parts frames takes
  exact h.enumerateFrom parts frames parts 0 (Nat.le_of_eq (Nat.zero_add _))

theorem keeps_exec : C.Keeps ⟨.exact 1, Builtin.exec⟩ := by
  intro w m m' args args' f f' h parts frames takes
  exact (h.textArg parts frames "exec" 0 (takes.given rfl)).andThenSame fun text => h.runText text

theorem keeps_catching (function : String) (intercepts : ErrorCategory → Bool) :
    C.Keeps ⟨.exact 2, Builtin.catching function intercepts⟩ := by
  intro w m m' args args' f f' h parts frames takes
  apply (h.solveArg parts frames function 0 (takes.given rfl)).caught
  intro error error' faults
  rw [C.fault_category faults]
  split
  · exact h.solveArg parts frames function 1 (takes.given rfl)
  · exact .fault faults

theorem keeps_raise : C.Keeps ⟨.exact 1, Builtin.raise⟩ := by
  intro w m m' args args' f f' h parts frames takes
  exact (quote_arg parts "throw" 0 (takes.given rfl)).andThenSame fun message => .fault (C.fault_refl _ fun _ => id)

/-- The one function that stores a reference where it was not made is `deepset`. -/
theorem keeps_programTable : ∀ entry ∈ Builtin.programTable,
    (entry.1 = "deepset" → C.Settles) → C.Keeps entry.2 := by
  simp only [Builtin.programTable, List.forall_mem_cons]
  exact ⟨fun _ => keeps_evaluating Builtin.onlyEvaluates_eval, fun _ => keeps_call, fun _ => keeps_val, fun _ => keeps_ignore,
    fun settles => keeps_deepSet (settles trivial), fun _ => keeps_deepVal, fun _ => keeps_enumerate,
    fun _ => keeps_exec, fun _ => keeps_catching _ _, fun _ => keeps_catching _ _,
    fun _ => keeps_catching _ _, fun _ => keeps_raise, List.forall_mem_nil _⟩

end Correspondence

end Calculator
