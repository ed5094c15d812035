import Calculator.Proofs.Correspondence.Solve
import Calculator.Proofs.Frames

/-! The stack of frames as an invariant: what is fixed of the frames on it stays as it is. -/

namespace Calculator

def stackComparison : Comparison where
  World := List Frame
  now stack s t := s = t ∧ s.skeleton = stack
  ever s t := s = t
  fault := Eq
  name := Eq
  expr := Eq
  frame _ := Eq
  binding _ _ := Eq
  entered _ := Eq
  grow stack fr _ := stack ++ [fr.bare]
  top stack := (stack.length, stack.length)
  stops := False

def stackCorrespondence : Correspondence where
  toComparison := stackComparison
  toSyntactic := .of_eq rfl rfl rfl rfl
  ever_of_now := And.left
  heights := by
    rintro stack s _ ⟨rfl, rfl⟩
    exact ⟨s.length_skeleton.symm, s.length_skeleton.symm⟩
  push := by
    rintro stack s _ fr _ ⟨rfl, rfl⟩ rfl
    exact ⟨rfl, s.skeleton_push fr⟩
  cut := by
    rintro stack s _ fr _ _ ⟨rfl, grown⟩
    refine ⟨rfl, ?_⟩
    rw [Session.skeleton_cutTo, grown]
    exact List.take_left
  consoles := by
    rintro stack s _ ⟨rfl, _⟩
    rfl
  setConsole := by
    rintro stack s _ console ⟨rfl, same⟩
    exact ⟨rfl, same⟩
  readVariable := by
    rintro stack s _ n _ ⟨rfl, same⟩ rfl
    refine ⟨rfl, rfl, ?_⟩
    unfold Session.readVariable
    split
    · exact same
    · exact same
  setVariable := by
    rintro stack s _ n _ value ⟨rfl, same⟩ rfl
    exact ⟨rfl, same⟩
  macros := by
    rintro stack s _ n _ ⟨rfl, _⟩ rfl
    exact .of_mem fun _ _ => ⟨rfl, List.forall₂_same.mpr fun _ _ => rfl⟩
  defineMacro := by
    rintro stack s _ n _ d d' ⟨rfl, same⟩ rfl ⟨bodies, aliases⟩
    obtain rfl := MacroDefinition.eq_of_parts bodies aliases
    exact ⟨rfl, same⟩
  hasMacro := by
    rintro stack s _ ⟨rfl, _⟩
    rfl
  lookup := by
    rintro stack s _ f _ n _ ⟨rfl, _⟩ rfl rfl
    exact .of_mem fun _ _ => rfl
  bind := by
    rintro stack s _ f _ n _ b _ ⟨rfl, same⟩ rfl rfl rfl
    exact ⟨rfl, (s.skeleton_bind n b f).trans same⟩
  frame_lt := by
    rintro stack f _ g _ rfl rfl
    exact Iff.rfl
  frame_grow := id
  frame_top := rfl
  entered_main := rfl
  entered_lambda := congrArg Frame.ofLambda
  entered_macro := by
    rintro stack f _ n _ rfl rfl
    rfl
  binding_value _ _ _ := rfl
  binding_layer := by
    rintro stack f _ b _ rfl rfl
    cases b with
    | value value => exact .value value
    | reference expr origin => exact .reference rfl rfl
  binding_top _ same := same
  reference_top := by
    rintro stack f _ e _ rfl rfl
    rfl
  unknownLocal := by
    rintro stack s _ f _ n _ ⟨rfl, _⟩ rfl rfl
    rfl

theorem settles_stack : stackCorrespondence.Settles := by
  rintro stack f _ g _ e _ rfl rfl rfl _
  rfl

end Calculator
