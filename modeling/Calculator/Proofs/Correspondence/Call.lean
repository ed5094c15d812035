import Calculator.Eval.Argument
import Calculator.Proofs.Correspondence.Machine

/-! Calls of macros and lambdas by machines that evaluate alike. -/

namespace Calculator

namespace Correspondence

variable {C : Correspondence} {w : C.World} {f f' : FrameId}

theorem bind_arguments {index : Nat} {bindings bindings' : List Binding}
    {aliases aliases' : List String} (all : List.Forall₂ (C.binding f f') bindings bindings')
    (names : List.Forall₂ C.name aliases aliases') (frames : C.frame w f f') :
    C.Related w Eq (Machine.bindArguments index bindings aliases f)
      (Machine.bindArguments index bindings' aliases' f') := by
  induction all generalizing index aliases aliases' with
  | nil => exact .value rfl
  | cons first rest ih =>
      apply (Related.bind (C.name_refl _) first frames).andThenSame
      intro _
      cases names with
      | nil => exact ih .nil
      | cons name names => exact (Related.bind name first frames).andThenSame fun _ => ih names

theorem references {args args' : List Expr} (parts : List.Forall₂ C.expr args args')
    (frames : C.frame w f f') :
    List.Forall₂ (C.binding (C.top w).1 (C.top w).2) (args.map (Binding.reference · f))
      (args'.map (Binding.reference · f')) := by
  rw [List.forall₂_map_left_iff, List.forall₂_map_right_iff]
  exact parts.imp fun _ _ exprs => C.reference_top frames exprs

namespace Machines

variable {m m' : Machine} (h : C.Machines m m')
include h

/-- A macro's body runs in the new frame alone, so that the invoking frames matter for the frame that
is entered only. -/
theorem runMacro {n n' : String} {bindings bindings' : List Binding} (names : C.name n n')
    (enter : C.entered w (.ofMacro n f) (.ofMacro n' f'))
    (all : List.Forall₂ (C.binding (C.top w).1 (C.top w).2) bindings bindings') :
    C.Related w Eq (m.invokeMacro n bindings f) (m'.invokeMacro n' bindings' f') := by
  apply Related.read.andThen
  intro s t sessions
  have found := C.macros sessions names
  generalize s.macro? n = d at found ⊢
  generalize t.macro? n' = d' at found ⊢
  cases found with
  | none => exact .fault (C.unknownMacro names)
  | some definitions =>
      apply Related.inFrame enter
      apply (bind_arguments all definitions.2 C.frame_top).andThenSame
      intro _
      exact h.solve definitions.1 C.frame_top

theorem invokeMacro {n n' : String} {bindings bindings' : List Binding} (names : C.name n n')
    (frames : C.frame w f f')
    (all : List.Forall₂ (C.binding (C.top w).1 (C.top w).2) bindings bindings') :
    C.Related w Eq (m.invokeMacro n bindings f) (m'.invokeMacro n' bindings' f') :=
  h.runMacro names (C.entered_macro names frames) all

theorem lambdaBinding {e e' : Expr} (exprs : C.expr e e') (frames : C.frame w f f') :
    C.Related w (C.binding (C.top w).1 (C.top w).2) (m.lambdaBinding e f)
      (m'.lambdaBinding e' f') := by
  unfold Machine.lambdaBinding
  have reference : C.binding (C.top w).1 (C.top w).2 (.reference e f) (.reference e' f') :=
    C.reference_top frames exprs
  have solved : C.Related w (C.binding (C.top w).1 (C.top w).2)
      (do return .value (← m.solve e f)) (do return .value (← m'.solve e' f')) :=
    (h.solve exprs frames).andThenSame fun value => .value (C.binding_value _ _ value)
  cases C.layer exprs with
  | localVar names =>
      exact (Related.require names frames).mono fun _ _ bindings => C.binding_top frames bindings
  | assign | binary | unary | call => exact solved
  | _ => exact .value reference

theorem callDirect {e e' : Expr} {args args' : List Expr} {d d' : FrameId} (exprs : C.expr e e')
    (parts : List.Forall₂ C.expr args args') (invokers : C.frame w f f')
    (definitions : C.frame w d d') :
    Option.Rel (C.Related w Eq) (m.callDirect? e args f d) (m'.callDirect? e' args' f' d') := by
  cases C.layer exprs with
  | lambda names bodies =>
      apply Option.Rel.some
      have bound := (C.congruence w).mapM parts fun _ _ exprs => h.lambdaBinding exprs invokers
      apply Related.andThen bound
      rintro bindings bindings' ⟨_, all⟩
      apply Related.inFrame (C.entered_lambda definitions)
      apply (bind_arguments all names C.frame_top).andThenSame
      intro _
      exact h.solve bodies C.frame_top
  | macroRef definable names own =>
      refine .some (h.invokeMacro names invokers ?_)
      rw [parts.length_eq]
      exact List.rel_append (references parts invokers) (references (List.forall₂_drop _ own) definitions)
  | _ => exact .none

theorem call {e e' : Expr} {args args' : List Expr} {d d' : FrameId} (exprs : C.expr e e')
    (parts : List.Forall₂ C.expr args args') (invokers : C.frame w f f')
    (definitions : C.frame w d d') :
    C.Related w Eq (m.call e args f d) (m'.call e' args' f' d') := by
  have direct := h.callDirect exprs parts invokers definitions
  unfold Machine.call
  cases C.layer exprs with
  | localVar names =>
      apply (h.referent names definitions).andThen
      intro r r' referents
      cases referents with
      | unbound names frames => exact .failUnbound names frames
      | value names value => exact .fault (C.notCallable (C.expr_localVar names))
      | expr names exprs frames =>
          have target := h.callDirect exprs parts invokers frames
          dsimp only
          generalize m.callDirect? _ _ _ _ = x at target ⊢
          generalize m'.callDirect? _ _ _ _ = y at target ⊢
          cases target with
          | none => exact .fault (C.notCallable (C.expr_localVar names))
          | some related => exact related
  | _ =>
      dsimp only
      generalize m.callDirect? _ _ _ _ = x at direct ⊢
      generalize m'.callDirect? _ _ _ _ = y at direct ⊢
      cases direct with
      | none => exact .fault (C.notCallable exprs)
      | some related => exact related

end Machines

end Correspondence

end Calculator
