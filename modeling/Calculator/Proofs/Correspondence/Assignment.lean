import Calculator.Proofs.Correspondence.Call

/-! Assignments by machines that evaluate alike. -/

namespace Calculator

namespace Correspondence

variable {C : Correspondence} {w : C.World} {f f' : FrameId} {e e' : Expr}

/-- A reference may be stored in every frame that is not below the one it refers to. -/
def Settles (C : Correspondence) : Prop :=
  ∀ {w f f' g g' e e'}, C.frame w f f' → C.frame w g g' → C.expr e e' → ¬f < g →
    C.binding f f' (.reference e g) (.reference e' g')

theorem assignable_eq (exprs : C.expr e e') : e.isAssignable = e'.isAssignable := by
  cases C.layer exprs <;> rfl

theorem alias_rel (exprs : C.expr e e') : Option.Rel C.name e.alias? e'.alias? := (C.layer exprs).alias_rel

theorem aliases {args args' : List Expr} (parts : List.Forall₂ C.expr args args') :
    List.Forall₂ C.name (args.filterMap Expr.alias?) (args'.filterMap Expr.alias?) :=
  List.rel_filterMap (R := C.expr) (P := C.name) (fun _ _ exprs => alias_rel exprs) parts

theorem assignMacro (m m' : Machine) (f f' : FrameId) {n n' : String} {args args' : List Expr}
    {source source' : Binding} (definable : Bool) (names : C.name n n')
    (parts : List.Forall₂ C.expr args args')
    (sources : Binding.Layer C.expr (C.frame w) source source') :
    C.Related w Eq (m.assign (.macroRef n args definable) source f)
      (m'.assign (.macroRef n' args' definable) source' f') := by
  cases definable with
  | false => exact .fault (C.macroWithArguments names)
  | true =>
      have body : ∀ {b b'}, C.expr b b' →
          C.Related w Eq
            (do Eval.defineMacro n ⟨b, args.filterMap Expr.alias?⟩; return Number.one)
            (do Eval.defineMacro n' ⟨b', args'.filterMap Expr.alias?⟩; return Number.one) :=
        fun exprs =>
          (Related.defineMacro names ⟨exprs, aliases parts⟩).andThenSame fun _ => .value rfl
      cases sources with
      | value value => exact body (C.expr_constant value)
      | reference exprs _ => exact body exprs

namespace Machines

variable {m m' : Machine} (h : C.Machines m m')
include h

theorem assign {source source' : Binding} (exprs : C.expr e e')
    (sources : C.binding f f' source source') (frames : C.frame w f f') :
    C.Related w Eq (m.assign e source f) (m'.assign e' source' f') := by
  have layer := C.binding_layer frames sources
  have cell : ∀ {p p'}, C.expr p p' →
      C.Related w Eq
        (do let value ← m.resolve source
            let address ← m.address p f
            m.writeCell p address value f
            return value)
        (do let value ← m'.resolve source'
            let address ← m'.address p' f'
            m'.writeCell p' address value f'
            return value) := by
    intro p p' pointers
    apply (h.resolve layer).andThenSame
    intro value
    apply (h.address pointers frames).andThenSame
    intro address
    exact (h.writeCell address value pointers frames).andThenSame fun _ => .value rfl
  cases C.layer exprs with
  | globalVar names =>
      apply (h.resolve layer).andThenSame
      intro value
      exact (Related.setVariable names value).andThenSame fun _ => .value rfl
  | localVar names =>
      apply (Related.bind names sources frames).andThenSame
      intro _
      cases layer with
      | value value => exact .value rfl
      | reference => exact .value rfl
  | macroRef definable names parts => exact assignMacro m m' f f' definable names parts layer
  | pointer => exact cell exprs
  | localPointer => exact cell exprs
  | _ => exact .fault (C.notAssignable exprs)

theorem assignValue (value : Number) (exprs : C.expr e e') (frames : C.frame w f f') :
    C.Related w Eq (m.assign e (.value value) f) (m'.assign e' (.value value) f') :=
  h.assign exprs (C.binding_value f f' value) frames

theorem handOn (exprs : C.expr e e') (frames : C.frame w f f') :
    C.Related w (C.binding f f') (m.handOn e f) (m'.handOn e' f') := by
  have solved : C.Related w (C.binding f f') (do return .value (← m.solve e f))
      (do return .value (← m'.solve e' f')) :=
    (h.solve exprs frames).andThenSame fun value => .value (C.binding_value f f' value)
  cases C.layer exprs with
  | localVar names => exact .require names frames
  | _ => exact solved

theorem assignment {v v' : Expr} (exprs : C.expr e e') (values : C.expr v v')
    (frames : C.frame w f f') :
    C.Related w Eq (m.assignment e v f) (m'.assignment e' v' f') := by
  have stored : C.Related w Eq (do m.assign e (← m.handOn v f) f)
      (do m'.assign e' (← m'.handOn v' f') f') :=
    (h.handOn values frames).andThen fun _ _ sources => h.assign exprs sources frames
  cases C.layer exprs with
  | macroRef definable names parts =>
      exact assignMacro m m' f f' definable names parts (.reference values frames)
  | globalVar => exact stored
  | localVar => exact stored
  | pointer => exact stored
  | localPointer => exact stored
  | _ => exact .fault (C.notAssignable exprs)

theorem settle {o o' : FrameId} {source source' : Binding}
    (sources : C.binding f f' source source') (frames : C.frame w f f') (origins : C.frame w o o')
    (kept : ∀ {e e' g g'}, source = .reference e g → C.expr e e' → C.frame w g g' → ¬o < g →
      C.binding o o' (.reference e g) (.reference e' g')) :
    C.Related w (C.binding o o') (m.settle source o) (m'.settle source' o') := by
  cases C.binding_layer frames sources with
  | value value => exact .value (C.binding_value _ _ value)
  | @reference e e' g g' exprs targets =>
      unfold Machine.settle
      dsimp only
      have above := C.frame_lt origins targets
      by_cases newer : o < g
      · rw [if_pos newer, if_pos (above.mp newer)]
        exact (h.solve exprs targets).andThenSame fun value => .value (C.binding_value _ _ value)
      · rw [if_neg newer, if_neg fun newer' => newer (above.mpr newer')]
        exact .value (kept rfl exprs targets newer)

theorem deepAssignWithin {settle settle' : Binding → FrameId → Eval Binding}
    (held : FrameId → FrameId → Binding → Binding → Prop)
    (storable : ∀ {f f' b b'}, held f f' b b' → C.binding f f' b b')
    (settled : ∀ {f f' o o' b b'}, held f f' b b' → C.frame w f f' → C.frame w o o' →
      C.Related w (held o o') (settle b o) (settle' b' o'))
    {steps steps' : Nat} (bounds : C.Bounds steps steps') {source source' : Binding}
    (exprs : C.expr e e') (sources : held f f' source source') (frames : C.frame w f f') :
    C.Related w Eq (m.deepAssignWithin settle steps e source f)
      (m'.deepAssignWithin settle' steps' e' source' f') := by
  induction steps generalizing steps' e e' f f' source source' with
  | zero =>
      exact .outOfFuel (y := fun steps' => m'.deepAssignWithin settle' steps' e' source' f') bounds rfl
  | succ steps ih =>
      obtain ⟨steps', rfl, fewer⟩ := Comparison.bounds_succ bounds
      have here := h.assign exprs (storable sources) frames
      unfold Machine.deepAssignWithin
      cases C.layer exprs with
      | localVar names =>
          apply Related.read.andThen
          intro s t sessions
          have found := C.lookup sessions frames names
          generalize s.lookup _ f = b at found ⊢
          generalize t.lookup _ f' = b' at found ⊢
          cases found with
          | none => exact here
          | some bindings =>
              cases C.binding_layer frames bindings with
              | value value => exact here
              | reference targets origins =>
                  dsimp only
                  rw [← assignable_eq targets]
                  split
                  · exact (settled sources frames origins).andThen fun _ _ sources =>
                      ih fewer targets sources origins
                  · exact here
      | macroRef definable names parts =>
          apply Related.read.andThen
          intro s t sessions
          have found := C.macros sessions names
          generalize s.macro? _ = d at found ⊢
          generalize t.macro? _ = d' at found ⊢
          cases found with
          | none => exact here
          | some definitions =>
              dsimp only
              rw [← assignable_eq definitions.1]
              split
              · exact ih fewer definitions.1 sources frames
              · exact here
      | _ => exact here

theorem deepAssign (settles : C.Settles) {source source' : Binding} (exprs : C.expr e e')
    (sources : C.binding f f' source source') (frames : C.frame w f f') :
    C.Related w Eq (m.deepAssign e source f) (m'.deepAssign e' source' f') := by
  apply h.deepAssignWithin C.binding id _ h.fuel exprs sources frames
  intro f f' o o' b b' sources frames origins
  exact h.settle sources frames origins fun _ exprs targets within =>
    settles origins targets exprs within

theorem deepAssignValue (value : Number) (exprs : C.expr e e') (frames : C.frame w f f') :
    C.Related w Eq (m.deepAssign e (.value value) f) (m'.deepAssign e' (.value value) f') := by
  refine h.deepAssignWithin (fun _ _ b b' => b = .value value ∧ b' = .value value) ?_ ?_ h.fuel exprs
    ⟨rfl, rfl⟩ frames
  · rintro f f' b b' ⟨rfl, rfl⟩
    exact C.binding_value f f' value
  · rintro f f' o o' b b' ⟨rfl, rfl⟩ _ _
    exact .value ⟨rfl, rfl⟩

end Machines

end Correspondence

end Calculator
