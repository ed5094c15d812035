import Calculator.Engine
import Calculator.Proofs.Correspondence.Solve
import Calculator.Proofs.Frames
import Calculator.Proofs.Limit
import Calculator.Proofs.Names.Respelling

/-! Evaluating expressions that differ in the spelling of names. Every table is read and written under
the lower case of a name, so two evaluations do the same step by step. -/

namespace Calculator

namespace Session.Respelled

variable {s t : Session} (same : s.Respelled t)
include same

theorem push {fr fr' : Frame} (frames : fr.Respelled fr') : (s.push fr).Respelled (t.push fr') where
  globals := same.globals
  macros := same.macros
  size := by rw [size_push, size_push, same.size]
  frames id := by
    rw [getElem?_push, getElem?_push, same.size]
    split
    · exact .some frames
    · exact same.frames id
  console := same.console

theorem cutTo (height : Nat) : (s.cutTo height).Respelled (t.cutTo height) where
  globals := same.globals
  macros := same.macros
  size := by rw [size_cutTo, size_cutTo, same.size]
  frames id := by
    rw [getElem?_cutTo, getElem?_cutTo]
    split
    · exact same.frames id
    · exact .none
  console := same.console

theorem setConsole (console : Console) :
    Respelled { s with console := console } { t with console := console } :=
  { same with console := rfl }

theorem setVariable {n n' : String} (names : SameName n n') (value : Number) :
    (s.setVariable n value).Respelled (t.setVariable n' value) := by
  unfold Session.setVariable
  rw [names, same.globals]
  exact { same with globals := rfl }

theorem readVariable {n n' : String} (names : SameName n n') :
    (s.readVariable n).1 = (t.readVariable n').1 ∧
      (s.readVariable n).2.Respelled (t.readVariable n').2 := by
  unfold Session.readVariable
  rw [names, same.globals]
  split
  · exact ⟨rfl, same⟩
  · exact ⟨rfl, same.setVariable names .zero⟩

theorem macro? {n n' : String} (names : SameName n n') :
    Option.Rel MacroDefinition.Respelled (s.macro? n) (t.macro? n') := by
  unfold Session.macro?
  rw [names]
  exact same.macros _

theorem defineMacro {n n' : String} {d d' : MacroDefinition} (names : SameName n n')
    (definitions : d.Respelled d') : (s.defineMacro n d).Respelled (t.defineMacro n' d') where
  globals := same.globals
  macros key := by
    unfold Session.defineMacro
    rw [names, Std.TreeMap.getElem?_insert, Std.TreeMap.getElem?_insert]
    split
    · exact .some definitions
    · exact same.macros key
  size := same.size
  frames := same.frames
  console := same.console

theorem hasMacro : s.hasMacro = t.hasMacro := by
  funext name
  have macros := same.macros (Text.fold name)
  unfold Session.hasMacro
  rw [Std.TreeMap.contains_eq_isSome_getElem?, Std.TreeMap.contains_eq_isSome_getElem?]
  generalize s.macros[Text.fold name]? = d at macros ⊢
  generalize t.macros[Text.fold name]? = d' at macros ⊢
  cases macros <;> rfl

theorem lookupFolded (folded : String) (id : FrameId) :
    Option.Rel Binding.Respelled (Session.lookupFolded s.frames folded id)
      (Session.lookupFolded t.frames folded id) := by
  refine lookupFolded_rel (P := Eq) (R := fun _ => Binding.Respelled) ?_
    (fun _ _ _ _ _ bindings => bindings) rfl
  rintro id _ rfl
  refine (same.frames id).imp fun fr fr' alike => ⟨alike.locals folded, alike.captures, fun _ => ?_⟩
  rw [alike.parent]
  exact .of_mem fun _ _ => ⟨Iff.rfl, fun _ => rfl⟩

theorem lookup {n n' : String} (names : SameName n n') (id : FrameId) :
    Option.Rel Binding.Respelled (s.lookup n id) (t.lookup n' id) := by
  unfold Session.lookup
  rw [names]
  exact same.lookupFolded _ id

theorem bind {n n' : String} {b b' : Binding} (names : SameName n n') (bindings : b.Respelled b')
    (id : FrameId) : (s.bind n b id).Respelled (t.bind n' b' id) where
  globals := same.globals
  macros := same.macros
  size := by rw [size_bind, size_bind, same.size]
  frames target := by
    have frames := same.frames target
    rw [getElem?_bind, getElem?_bind]
    split
    · generalize s.frames[target]? = fr at frames ⊢
      generalize t.frames[target]? = fr' at frames ⊢
      cases frames with
      | none => exact .none
      | some alike =>
          refine .some ⟨alike.name, alike.parent, alike.captures, fun key => ?_⟩
          dsimp only
          rw [names, Std.TreeMap.getElem?_insert, Std.TreeMap.getElem?_insert]
          split
          · exact .some bindings
          · exact alike.locals key
    · exact frames
  console := same.console

theorem frameName (id : FrameId) : SameName (s.frameName id) (t.frameName id) := by
  have frames := same.frames id
  unfold Session.frameName
  generalize s.frames[id]? = fr at frames ⊢
  generalize t.frames[id]? = fr' at frames ⊢
  cases frames with
  | none => exact .refl _
  | some alike => exact alike.name

end Session.Respelled

def respellingComparison : Comparison where
  World := Nat
  now height s t := s.Respelled t ∧ s.frames.size = height
  ever := Session.Respelled
  fault := RuntimeError.Respelled
  name := SameName
  expr := Expr.Respelled
  frame _ := Eq
  binding _ _ := Binding.Respelled
  entered _ := Frame.Respelled
  grow height _ _ := height + 1
  top height := (height, height)
  stops := False

theorem respellingComparison_syntactic : respellingComparison.Syntactic where
  name_refl := SameName.refl
  name_fold := id
  expr_refl e _ := .refl e
  expr_call _ _ none := nomatch none
  expr_localVar names := .of_layer (.localVar names)
  layer := Expr.Respelled.layer
  fault_refl error _ := .refl error
  fault_category faults := by cases faults <;> rfl
  unknownMacro := .unknownMacro
  unknownFunction names _ := .unknownFunction names
  macroWithArguments := .macroWithArguments
  wrongCount names _ := .evaluation _ names
  notAssignable := .notAssignable
  notAddressable := .notAddressable
  notCallable := .notCallable

def respellingCorrespondence : Correspondence where
  toComparison := respellingComparison
  toSyntactic := respellingComparison_syntactic
  ever_of_now := And.left
  heights := by
    rintro height s t ⟨same, rfl⟩
    exact ⟨rfl, same.size.symm⟩
  push := by
    rintro height s t fr fr' ⟨same, rfl⟩ frames
    exact ⟨same.push frames, s.size_push fr⟩
  cut := by
    rintro height s t fr fr' _ ⟨same, grown⟩
    exact ⟨same.cutTo height, (s.size_cutTo height).trans (Nat.min_eq_left (grown ▸ Nat.le_succ _))⟩
  consoles := by
    rintro height s t ⟨same, _⟩
    exact same.console
  setConsole := by
    rintro height s t console ⟨same, size⟩
    exact ⟨same.setConsole console, size⟩
  readVariable := by
    rintro height s t n n' ⟨same, size⟩ names
    obtain ⟨values, sessions⟩ := same.readVariable names
    refine ⟨values, sessions, ?_⟩
    unfold Session.readVariable
    split
    · exact size
    · exact size
  setVariable := by
    rintro height s t n n' value ⟨same, size⟩ names
    exact ⟨same.setVariable names value, size⟩
  macros := by
    rintro height s t n n' ⟨same, _⟩ names
    exact same.macro? names
  defineMacro := by
    rintro height s t n n' d d' ⟨same, size⟩ names definitions
    exact ⟨same.defineMacro names definitions, size⟩
  hasMacro := by
    rintro height s t ⟨same, _⟩
    exact same.hasMacro
  lookup := by
    rintro height s t f _ n n' ⟨same, _⟩ rfl names
    exact same.lookup names f
  bind := by
    rintro height s t f _ n n' b b' ⟨same, size⟩ rfl names bindings
    exact ⟨same.bind names bindings f, (s.size_bind n b f).trans size⟩
  frame_lt := by
    rintro height f _ g _ rfl rfl
    exact Iff.rfl
  frame_grow := id
  frame_top := rfl
  entered_main := Frame.respelled_refl .main
  entered_lambda same := Frame.respelled_of_locals rfl (congrArg some same) rfl rfl
  entered_macro names same := Frame.respelled_of_locals names (congrArg some same) rfl rfl
  binding_value _ _ value := .value value
  binding_layer _ bindings := bindings
  binding_top _ bindings := bindings
  reference_top same exprs := .reference exprs same
  unknownLocal := by
    rintro height s t f _ n n' ⟨same, _⟩ rfl names
    exact .unknownLocal names (same.frameName f)

theorem settles_respelling : respellingCorrespondence.Settles := by
  rintro height f _ g _ e e' rfl rfl exprs _
  exact .reference exprs rfl

theorem serves_respelling : respellingCorrespondence.Serves .standard .standard :=
  Correspondence.serves_standard settles_respelling

/-- Two engines that differ in the spelling of names only. -/
structure Engine.Respelled (engine engine' : Engine) : Prop where
  options : engine.options = engine'.options
  registry : engine.registry = engine'.registry
  session : engine.session.Respelled engine'.session

theorem Engine.Respelled.evaluate {engine engine' : Engine} (same : engine.Respelled engine')
    (standard : engine.registry = .standard) {root root' : Expr} (roots : root.Respelled root')
    (fuel : Nat) :
    Option.Rel (fun p q => Results RuntimeError.Respelled Eq p.1 q.1 ∧ p.2.Respelled q.2)
      (engine.evaluate fuel root) (engine'.evaluate fuel root') := by
  have serves : respellingCorrespondence.Serves engine.setting.registry engine'.setting.registry := by
    change respellingCorrespondence.Serves engine.registry engine'.registry
    rw [← same.registry, standard]
    exact serves_respelling
  have imply : engine.setting.imply = engine'.setting.imply := congrArg Options.imply same.options
  have related := Correspondence.solveLine (w := engine.session.frames.size) serves imply fuel roots
  have outcome := related.lockstep rfl ⟨same.session, rfl⟩ fuel
  unfold Engine.evaluate Engine.evaluateWithin Engine.inMainFrame
  dsimp only [Eval.run] at outcome ⊢
  generalize Eval.withFrame _ _ _ = p at outcome ⊢
  generalize Eval.withFrame _ _ _ = q at outcome ⊢
  cases outcome with
  | value steps values sessions =>
      exact .some ⟨.value values, same.options, same.registry, sessions.1⟩
  | fault steps faults sessions =>
      exact .some ⟨.fault faults, same.options, same.registry, sessions.1⟩
  | exhausted => exact .none
  | stopped granted => exact granted.elim

end Calculator
