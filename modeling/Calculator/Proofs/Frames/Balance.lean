import Calculator.Engine
import Calculator.Proofs.Frames.Isolation
import Calculator.Proofs.Lines
import Calculator.Proofs.Frames.Stack

/-! Frames are left as they are entered. However an evaluation ends, the stack has the height that it
had before, and the frames on it are the same ones; only what they bind may have changed. -/

namespace Calculator

namespace Session

structure SameStack (s t : Session) : Prop where
  height : t.frames.size = s.frames.size
  frames : ∀ (id : FrameId) (frame : Frame), s.frames[id]? = some frame →
    ∃ locals, t.frames[id]? = some { frame with locals }

theorem sameStack_iff {s t : Session} : s.SameStack t ↔ t.skeleton = s.skeleton := by
  constructor
  · intro same
    apply List.ext_getElem?
    intro id
    simp only [skeleton, List.getElem?_map, Array.getElem?_toList]
    cases found : s.frames[id]? with
    | none =>
        have high : s.frames.size ≤ id := Array.getElem?_eq_none_iff.mp found
        rw [Array.getElem?_eq_none (same.height ▸ high)]
    | some frame =>
        obtain ⟨locals, there⟩ := same.frames id frame found
        rw [there]
        rfl
  · intro same
    refine ⟨by rw [← t.length_skeleton, same, s.length_skeleton], fun id frame found => ?_⟩
    have there : t.skeleton[id]? = some frame.bare := by
      rw [same, skeleton, List.getElem?_map, Array.getElem?_toList, found]
      rfl
    rw [skeleton, List.getElem?_map, Array.getElem?_toList] at there
    obtain ⟨other, found', bare⟩ := Option.map_eq_some_iff.mp there
    refine ⟨other.locals, found'.trans (congrArg some ?_)⟩
    obtain ⟨name, parent, captures, locals⟩ := frame
    obtain ⟨name', parent', captures', locals'⟩ := other
    simp only [Frame.bare, Frame.mk.injEq, and_true] at bare
    obtain ⟨rfl, rfl, rfl⟩ := bare
    rfl

end Session

/-- An evaluation that ends on the stack that it began on, with a value or with an error. -/
def Eval.KeepsStack {α : Type} (x : Eval α) : Prop :=
  ∀ start ending after, x.run start = (ending, after) → ending ≠ .exhausted →
    start.session.SameStack after.session

/-- An evaluation that leaves every frame as it was, the locals included. -/
def Eval.RestoresFrames {α : Type} (x : Eval α) : Prop :=
  ∀ start ending after, x.run start = (ending, after) → ending ≠ .exhausted →
    after.session.frames = start.session.frames

theorem Eval.keepsStack_of_related {α : Type} {r : α → α → Prop} {x : Eval α}
    (related : ∀ stack : List Frame, stackCorrespondence.Related stack r x x) : x.KeepsStack := by
  rintro ⟨steps, s⟩ ending after ended finished
  have outcome := (related s.skeleton).lockstep rfl ⟨rfl, rfl⟩ steps
  rw [ended] at outcome
  rw [Session.sameStack_iff]
  cases outcome with
  | value steps values sessions => exact sessions.2
  | fault steps faults sessions => exact sessions.2
  | exhausted => exact absurd rfl finished
  | stopped granted => exact granted.elim

/-- What does the same on every stack, in frames of its own, restores the one that it runs on. -/
theorem Eval.restoresFrames_of_related {α : Type} {r : α → α → Prop} {x : Eval α}
    (related : ∀ base : Array Frame, (shiftCorrespondence (.apart base base)).Related (0 : Nat) r x x) :
    x.RestoresFrames := by
  rintro ⟨steps, s⟩ ending after ended finished
  have outcome := (related s.frames).lockstep rfl (.start s.globals s.macros s.console) steps
  rw [ended] at outcome
  cases outcome with
  | value steps values alike => exact alike.frames_eq
  | fault steps faults alike => exact alike.frames_eq
  | exhausted => exact absurd rfl finished
  | stopped granted => exact granted.elim

/-- Whatever a machine does, it leaves the frames that it enters. -/
structure Machine.Balanced (registry : Registry) (m : Machine) : Prop where
  solve (expr : Expr) (id : FrameId) : (m.solve expr id).KeepsStack
  function (name : String) (args : List Expr) (id : FrameId) :
    (registry.call m name args id).KeepsStack
  callee (callee : Expr) (args : List Expr) (invoker definition : FrameId) :
    (m.call callee args invoker definition).KeepsStack
  deepAssign (target : Expr) (source : Binding) (id : FrameId) :
    (m.deepAssign target source id).KeepsStack
  runText (text : String) : (m.runText text).RestoresFrames
  /-- The handler goes on where the body failed, on the stack that the body began on. -/
  catching {function : String} {intercepts : ErrorCategory → Bool} {args : List Expr} {id : FrameId}
    {start after : Run} {fault : RuntimeError}
    (failed : (Argument.solve m function args 0 id).run start = (.fault fault, after))
    (caught : intercepts fault.category = true) :
    (Builtin.catching function intercepts m args id).run start =
        (Argument.solve m function args 1 id).run after ∧
      start.session.SameStack after.session

/-- Whatever a line does, and however it ends, an engine's frames are what they were. -/
structure Engine.Balanced (engine : Engine) : Prop where
  run {fuel : Nat} {text : String} {record : Bool} {result : Except Error (Number × Bool)}
    {after : Engine} (ended : engine.run fuel text record = some (result, after)) :
    after.session.frames = engine.session.frames
  readArray {fuel : Nat} {address : Number} {values : List Number} {after : Engine}
    (ended : engine.readArray fuel address = some (values, after)) :
    after.session.frames = engine.session.frames

theorem catching_run {m : Machine} {function : String} {intercepts : ErrorCategory → Bool}
    {args : List Expr} {id : FrameId} {start after : Run} {fault : RuntimeError}
    (failed : (Argument.solve m function args 0 id).run start = (.fault fault, after))
    (caught : intercepts fault.category = true) :
    (Builtin.catching function intercepts m args id).run start =
      (Argument.solve m function args 1 id).run after := by
  unfold Builtin.catching
  rw [Eval.run_tryCatch, failed]
  dsimp only
  rw [if_pos caught]

theorem machine_balanced {setting : Setting} (standard : setting.registry = .standard) (fuel : Nat) :
    (setting.machine fuel (setting.solve fuel)).Balanced setting.registry := by
  have serves : stackCorrespondence.Serves setting.registry setting.registry :=
    standard ▸ Correspondence.serves_standard settles_stack
  have machines := Correspondence.machines serves rfl (stackCorrespondence.bounds_refl fuel)
  have apart : ∀ base : Array Frame, (shiftCorrespondence (.apart base base)).Machines
      (setting.machine fuel (setting.solve fuel)) (setting.machine fuel (setting.solve fuel)) :=
    fun base => Correspondence.machines (standard ▸ serves_shift _) rfl (Comparison.bounds_refl _ fuel)
  generalize setting.machine fuel _ = m at machines apart
  have same : ∀ e, stackCorrespondence.expr e e := fun _ => rfl
  have here : ∀ (stack : List Frame) (id : FrameId), stackCorrespondence.frame stack id id :=
    fun _ _ => rfl
  have parts : ∀ args : List Expr, List.Forall₂ stackCorrespondence.expr args args :=
    fun _ => List.forall₂_same.mpr fun _ _ => rfl
  refine ⟨fun expr id => ?_, fun name args id => ?_, fun callee args invoker definition => ?_,
    fun target source id => ?_, fun text => ?_,
    @fun function _ args id _ _ _ failed caught => ⟨catching_run failed caught, ?_⟩⟩
  · exact Eval.keepsStack_of_related fun stack => machines.solve (same expr) (here stack id)
  · exact Eval.keepsStack_of_related fun stack =>
      machines.registryCall (here stack id) serves rfl (parts args) nofun
  · exact Eval.keepsStack_of_related fun stack =>
      machines.call (same callee) (parts args) (here stack invoker) (here stack definition)
  · exact Eval.keepsStack_of_related fun stack =>
      machines.deepAssign settles_stack (same target) rfl (here stack id)
  · exact Eval.restoresFrames_of_related fun base => (apart base).runText text
  · have body : (Argument.solve m function args 0 id).KeepsStack :=
      Eval.keepsStack_of_related fun stack =>
        machines.solveArg (parts args) (here stack id) function 0 nofun
    exact body _ _ _ failed nofun

section Engine

variable {engine after : Engine} (standard : engine.registry = .standard)

theorem inMainFrame_frames {α : Type} {steps : Nat} {ending : Ending α} {body : FrameId → Eval α}
    (restores : (Eval.withFrame .main body).RestoresFrames)
    (ran : engine.inMainFrame steps body = (ending, after)) (finished : ending ≠ .exhausted) :
    after.session.frames = engine.session.frames := by
  cases ran
  exact restores ⟨steps, engine.session⟩ _ _ rfl finished

include standard

theorem engine_serves (base : Array Frame) :
    (shiftCorrespondence (.apart base base)).Serves engine.setting.registry engine.setting.registry := by
  change (shiftCorrespondence (.apart base base)).Serves engine.registry engine.registry
  exact standard ▸ serves_shift _

theorem evaluate_frames {fuel : Nat} {root : Expr} {result : Except RuntimeError Number}
    (ended : engine.evaluate fuel root = some (result, after)) :
    after.session.frames = engine.session.frames := by
  have restores : (Eval.withFrame .main (engine.setting.solve fuel root)).RestoresFrames :=
    Eval.restoresFrames_of_related fun base =>
      Correspondence.solveLine (engine_serves standard base) rfl fuel rfl
  unfold Engine.evaluate at ended
  split at ended
  · rename_i ran
    cases ended
    exact inMainFrame_frames restores ran nofun
  · rename_i ran
    cases ended
    exact inMainFrame_frames restores ran nofun
  · cases ended

theorem run_frames {fuel : Nat} {text : String} {record : Bool}
    {result : Except Error (Number × Bool)}
    (ended : engine.run fuel text record = some (result, after)) :
    after.session.frames = engine.session.frames :=
  (Engine.run_ran ended).kept (P := fun after => after.session.frames = engine.session.frames) rfl
    (fun _ _ _ => evaluate_frames standard) fun _ _ => id

theorem readArray_frames {fuel : Nat} {address : Number} {values : List Number}
    (ended : engine.readArray fuel address = some (values, after)) :
    after.session.frames = engine.session.frames := by
  have restores : (Eval.withFrame .main (CellArray.toList
      (engine.setting.machine fuel (engine.setting.solve fuel))
      (.pointer (.constant address)))).RestoresFrames :=
    Eval.restoresFrames_of_related fun base => by
      let C := shiftCorrespondence (.apart base base)
      have machines := Correspondence.machines (engine_serves standard base) rfl (C.bounds_refl fuel)
      exact .inFrame C.entered_main (machines.toList rfl C.frame_top)
  unfold Engine.readArray at ended
  dsimp only at ended
  split at ended
  · rename_i ran
    cases ended
    exact inMainFrame_frames restores ran nofun
  · rename_i ran
    cases ended
    exact inMainFrame_frames restores ran nofun
  · cases ended

theorem engine_balanced : engine.Balanced ∧ ∀ fuel,
    (engine.setting.machine fuel (engine.setting.solve fuel)).Balanced engine.registry := by
  have balanced (fuel : Nat) :
      (engine.setting.machine fuel (engine.setting.solve fuel)).Balanced engine.setting.registry :=
    machine_balanced standard fuel
  exact ⟨⟨run_frames standard, readArray_frames standard⟩, balanced⟩

end Engine

/-- Frames are left as they are entered, on every path. -/
theorem frames_left_as_entered (options : Options) (session : Session) :
    let engine : Engine := ⟨options, .standard, session⟩
    engine.Balanced ∧ ∀ fuel,
      (engine.setting.machine fuel (engine.setting.solve fuel)).Balanced engine.registry := by
  intro engine
  exact engine_balanced rfl

end Calculator
