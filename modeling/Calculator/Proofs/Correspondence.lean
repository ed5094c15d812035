import Mathlib.Data.List.Forall2
import Mathlib.Data.Option.Defs
import Calculator.Builtin
import Calculator.Expr.Reader
import Calculator.Proofs.Evaluating
import Calculator.Proofs.Expr.Parts

/-! Two evaluations that run in lockstep.

A correspondence says which sessions, names, expressions, frames, bindings and errors of two runs belong
together, and that the primitive operations keep them together. What holds of the primitives then holds
of everything that is built from them: an invariant is a correspondence of a session with itself, and
independence from a part of the session is one of sessions that differ there. -/

namespace Calculator

inductive Expr.Layer (name : String → String → Prop) (expr : Expr → Expr → Prop) : Expr → Expr → Prop
  | constant (value : Number) : Layer name expr (.constant value) (.constant value)
  | globalVar {n n' : String} (names : name n n') : Layer name expr (.globalVar n) (.globalVar n')
  | localVar {n n' : String} (names : name n n') : Layer name expr (.localVar n) (.localVar n')
  | macroRef {n n' : String} {args args' : List Expr} (definable : Bool) (names : name n n')
      (parts : List.Forall₂ expr args args') :
      Layer name expr (.macroRef n args definable) (.macroRef n' args' definable)
  | lambda {aliases aliases' : List String} {body body' : Expr}
      (names : List.Forall₂ name aliases aliases') (parts : expr body body') :
      Layer name expr (.lambda aliases body) (.lambda aliases' body')
  | pointer {e e' : Expr} (parts : expr e e') : Layer name expr (.pointer e) (.pointer e')
  | localPointer {e e' : Expr} (parts : expr e e') : Layer name expr (.localPointer e) (.localPointer e')
  | assign {target target' value value' : Expr} (targets : expr target target')
      (values : expr value value') : Layer name expr (.assign target value) (.assign target' value')
  | binary {left left' right right' : Expr} (op : BinaryOp) (lefts : expr left left')
      (rights : expr right right') : Layer name expr (.binary op left right) (.binary op left' right')
  | unary {e e' : Expr} (op : UnaryOp) (parts : expr e e') : Layer name expr (.unary op e) (.unary op e')
  | call {n n' : String} {args args' : List Expr} (names : name n n')
      (parts : List.Forall₂ expr args args') : Layer name expr (.call n args) (.call n' args')
  | quote (text : String) : Layer name expr (.quote text) (.quote text)

theorem Expr.layer_refl (e : Expr) : Expr.Layer Eq Eq e e := by
  cases e with
  | constant value => exact .constant value
  | globalVar name => exact .globalVar rfl
  | localVar name => exact .localVar rfl
  | macroRef name args definable => exact .macroRef definable rfl (List.forall₂_refl args)
  | lambda aliases body => exact .lambda (List.forall₂_refl aliases) rfl
  | pointer address => exact .pointer rfl
  | localPointer address => exact .localPointer rfl
  | assign target value => exact .assign rfl rfl
  | binary op left right => exact .binary op rfl rfl
  | unary op operand => exact .unary op rfl
  | call name args => exact .call rfl (List.forall₂_refl args)
  | quote text => exact .quote text

theorem Expr.Layer.alias_rel {name : String → String → Prop} {expr : Expr → Expr → Prop} {e e' : Expr}
    (form : Layer name expr e e') : Option.Rel name e.alias? e'.alias? := by
  cases form with
  | globalVar names => exact .some names
  | localVar names => exact .some names
  | macroRef definable names parts =>
      cases parts with
      | nil => exact .some names
      | cons => exact .none
  | _ => exact .none

inductive Binding.Layer (expr : Expr → Expr → Prop) (frame : FrameId → FrameId → Prop) :
    Binding → Binding → Prop
  | value (value : Number) : Layer expr frame (.value value) (.value value)
  | reference {e e' : Expr} {f f' : FrameId} (exprs : expr e e') (frames : frame f f') :
      Layer expr frame (.reference e f) (.reference e' f')

/-- What belongs together in two runs. A world stands for the frames that are on the two stacks. -/
structure Comparison where
  World : Type
  now : World → Session → Session → Prop
  ever : Session → Session → Prop
  fault : RuntimeError → RuntimeError → Prop
  name : String → String → Prop
  expr : Expr → Expr → Prop
  frame : World → FrameId → FrameId → Prop
  binding : FrameId → FrameId → Binding → Binding → Prop
  entered : World → Frame → Frame → Prop
  grow : World → Frame → Frame → World
  top : World → FrameId × FrameId
  /-- Whether the first run may stop where the second one goes on. -/
  stops : Prop
  /-- The steps that the second run is granted beyond those of the first one. -/
  spare : Nat := 0
  functions : Option (String → Bool) := none

def Comparison.strict (C : Comparison) : Prop := C.functions.isSome = true

def Comparison.Calls (C : Comparison) (e : Expr) : Prop :=
  ∀ functions, C.functions = some functions → e.CallsOnly functions

def Comparison.Bounds (C : Comparison) (n n' : Nat) : Prop := n = n' ∨ C.stops ∧ n ≤ n'

theorem Comparison.bounds_refl (C : Comparison) (n : Nat) : C.Bounds n n := .inl rfl

theorem Comparison.bounds_succ {C : Comparison} {n n' : Nat} (bounds : C.Bounds (n + 1) n') :
    ∃ k, n' = k + 1 ∧ C.Bounds n k := by
  rcases bounds with rfl | ⟨granted, le⟩
  · exact ⟨n, rfl, C.bounds_refl n⟩
  · obtain ⟨k, rfl⟩ := Nat.exists_eq_add_of_lt le
    exact ⟨n + k, rfl, .inr ⟨granted, Nat.le_add_right n k⟩⟩

def Comparison.Definitions (C : Comparison) (d d' : MacroDefinition) : Prop :=
  C.expr d.body d'.body ∧ List.Forall₂ C.name d.aliases d'.aliases

theorem MacroDefinition.eq_of_parts {d d' : MacroDefinition} (bodies : d.body = d'.body)
    (aliases : List.Forall₂ Eq d.aliases d'.aliases) : d = d' := by
  cases d
  cases d'
  rw [List.forall₂_eq_eq_eq] at aliases
  rw [MacroDefinition.mk.injEq]
  exact ⟨bodies, aliases⟩

/-- Names, expressions and errors that belong together are of one form, and so is what is made of
them. -/
structure Comparison.Syntactic (C : Comparison) : Prop where
  name_refl (n : String) : C.name n n
  name_fold {n n'} : C.name n n' → Text.fold n = Text.fold n'
  expr_refl (e : Expr) : C.Calls e → C.expr e e
  expr_call {name args e'} : C.expr (.call name args) e' →
    ∀ functions, C.functions = some functions → functions name = true
  expr_localVar {n n'} : C.name n n' → C.expr (.localVar n) (.localVar n')
  layer {e e'} : C.expr e e' → Expr.Layer C.name C.expr e e'
  fault_refl (error : RuntimeError) : (C.strict → ¬error.Undispatched) → C.fault error error
  fault_category {error error'} : C.fault error error' → error.category = error'.category
  unknownMacro {n n'} : C.name n n' → C.fault (.unknownMacro n) (.unknownMacro n')
  unknownFunction {n n'} : C.name n n' → ¬C.strict →
    C.fault (.unknownFunction n) (.unknownFunction n')
  macroWithArguments {n n'} : C.name n n' →
    C.fault (.macroWithArguments n) (.macroWithArguments n')
  wrongCount {n n'} {message : String} : C.name n n' → Argument.OtherMessage message →
    C.fault (.evaluation n message) (.evaluation n' message)
  notAssignable {e e'} : C.expr e e' →
    C.fault (.notAssignable e.describe) (.notAssignable e'.describe)
  notAddressable {e e'} : C.expr e e' →
    C.fault (.notAddressable e.describe) (.notAddressable e'.describe)
  notCallable {e e'} : C.expr e e' → C.fault (.notCallable e.describe) (.notCallable e'.describe)

theorem Comparison.Syntactic.of_eq {C : Comparison} (fault : C.fault = Eq) (name : C.name = Eq)
    (expr : C.expr = Eq) (free : C.functions = none) : C.Syntactic := by
  cases C
  cases fault
  cases name
  cases expr
  cases free
  exact {
    name_refl := fun _ => rfl
    name_fold := congrArg Text.fold
    expr_refl := fun _ _ => rfl
    expr_call := fun _ _ none => nomatch none
    expr_localVar := congrArg Expr.localVar
    layer := fun {e _} same => same ▸ e.layer_refl
    fault_refl := fun _ _ => rfl
    fault_category := congrArg RuntimeError.category
    unknownMacro := congrArg RuntimeError.unknownMacro
    unknownFunction := fun names _ => congrArg RuntimeError.unknownFunction names
    macroWithArguments := congrArg RuntimeError.macroWithArguments
    wrongCount := fun names _ => congrArg (RuntimeError.evaluation · _) names
    notAssignable := congrArg fun e : Expr => RuntimeError.notAssignable e.describe
    notAddressable := congrArg fun e : Expr => RuntimeError.notAddressable e.describe
    notCallable := congrArg fun e : Expr => RuntimeError.notCallable e.describe }

/-- A comparison that the primitive operations keep. -/
structure Correspondence extends Comparison, toComparison.Syntactic where
  spare_stops : spare = 0 ∨ stops := by exact .inl rfl
  ever_of_now {w s t} : now w s t → ever s t
  heights {w s t} : now w s t → s.frames.size = (top w).1 ∧ t.frames.size = (top w).2
  push {w s t fr fr'} : now w s t → entered w fr fr' → now (grow w fr fr') (s.push fr) (t.push fr')
  cut {w s t fr fr'} : entered w fr fr' → now (grow w fr fr') s t →
    now w (s.cutTo (top w).1) (t.cutTo (top w).2)
  consoles {w s t} : now w s t → s.console = t.console
  setConsole {w s t} (console : Console) : now w s t →
    now w { s with console := console } { t with console := console }
  readVariable {w s t n n'} : now w s t → name n n' →
    (s.readVariable n).1 = (t.readVariable n').1 ∧ now w (s.readVariable n).2 (t.readVariable n').2
  setVariable {w s t n n'} (value : Number) : now w s t → name n n' →
    now w (s.setVariable n value) (t.setVariable n' value)
  macros {w s t n n'} : now w s t → name n n' →
    Option.Rel toComparison.Definitions (s.macro? n) (t.macro? n')
  defineMacro {w s t n n' d d'} : now w s t → name n n' → toComparison.Definitions d d' →
    now w (s.defineMacro n d) (t.defineMacro n' d')
  hasMacro {w s t} : now w s t → s.hasMacro = t.hasMacro
  lookup {w s t f f' n n'} : now w s t → frame w f f' → name n n' →
    Option.Rel (binding f f') (s.lookup n f) (t.lookup n' f')
  bind {w s t f f' n n' b b'} : now w s t → frame w f f' → name n n' → binding f f' b b' →
    now w (s.bind n b f) (t.bind n' b' f')
  frame_lt {w f f' g g'} : frame w f f' → frame w g g' → (f < g ↔ f' < g')
  frame_grow {w f f' fr fr'} : frame w f f' → frame (grow w fr fr') f f'
  frame_top {w fr fr'} : frame (grow w fr fr') (top w).1 (top w).2
  entered_main {w} : entered w .main .main
  entered_lambda {w f f'} : frame w f f' → entered w (.ofLambda f) (.ofLambda f')
  entered_macro {w f f' n n'} : name n n' → frame w f f' → entered w (.ofMacro n f) (.ofMacro n' f')
  binding_value (f f' : FrameId) (value : Number) : binding f f' (.value value) (.value value)
  binding_layer {w f f' b b'} : frame w f f' → binding f f' b b' →
    Binding.Layer expr (frame w) b b'
  binding_top {w f f' b b'} : frame w f f' → binding f f' b b' → binding (top w).1 (top w).2 b b'
  reference_top {w f f' e e'} : frame w f f' → expr e e' →
    binding (top w).1 (top w).2 (.reference e f) (.reference e' f')
  unknownLocal {w s t f f' n n'} : now w s t → frame w f f' → name n n' →
    fault (.unknownLocal n (s.frameName f)) (.unknownLocal n' (t.frameName f'))

namespace Correspondence

theorem expr_constant (C : Correspondence) (value : Number) :
    C.expr (.constant value) (.constant value) :=
  C.expr_refl _ fun _ _ => .leaf (fun _ _ call => nomatch call) rfl

variable (C : Correspondence) {α α' β β' : Type}

inductive Outcome (w : C.World) (r : α → β → Prop) : Ending α × Run → Ending β × Run → Prop
  | value {a b s t} (steps : Nat) (values : r a b) (sessions : C.now w s t) :
      Outcome w r (.value a, ⟨steps, s⟩) (.value b, ⟨steps + C.spare, t⟩)
  | fault {error error' s t} (steps : Nat) (faults : C.fault error error') (sessions : C.now w s t) :
      Outcome w r (.fault error, ⟨steps, s⟩) (.fault error', ⟨steps + C.spare, t⟩)
  | exhausted {s t} (steps : Nat) (sessions : C.ever s t) :
      Outcome w r (.exhausted, ⟨steps, s⟩) (.exhausted, ⟨steps + C.spare, t⟩)
  | stopped {p q} (granted : C.stops) : Outcome w r (.exhausted, p) q

/-- Two evaluations that stay together, step by step, from sessions that belong together. -/
def Related (w : C.World) (r : α → β → Prop) (x : Eval α) (y : Eval β) : Prop :=
  ∀ steps s t, C.now w s t → C.Outcome w r (x.run ⟨steps, s⟩) (y.run ⟨steps + C.spare, t⟩)

variable {C} {w : C.World}

theorem Outcome.reached {r : α → β → Prop} {p : Ending α × Run} {q : Ending β × Run}
    (outcome : C.Outcome w r p q) (lasts : ¬C.stops) : C.ever p.2.session q.2.session := by
  cases outcome with
  | value steps values sessions => exact C.ever_of_now sessions
  | fault steps faults sessions => exact C.ever_of_now sessions
  | exhausted steps sessions => exact sessions
  | stopped granted => exact absurd granted lasts

theorem Outcome.noSteps {r : α → β → Prop} {s t : Session} (ends : Run → Ending β × Run)
    (sessions : C.ever s t) (halts : ∀ t, ends ⟨0, t⟩ = (.exhausted, ⟨0, t⟩)) :
    C.Outcome w r (.exhausted, ⟨0, s⟩) (ends ⟨0 + C.spare, t⟩) := by
  rcases C.spare_stops with none | granted
  · have outcome : C.Outcome w r (.exhausted, ⟨0, s⟩) (.exhausted, ⟨0 + C.spare, t⟩) :=
      .exhausted 0 sessions
    rw [none] at outcome ⊢
    rwa [halts]
  · exact .stopped granted

namespace Related

theorem value {r : α → β → Prop} {a : α} {b : β} (values : r a b) :
    C.Related w r (pure a) (pure b) :=
  fun steps _ _ sessions => .value steps values sessions

theorem fault {r : α → β → Prop} {error error' : RuntimeError} (faults : C.fault error error') :
    C.Related w r (throw error) (throw error') :=
  fun steps _ _ sessions => .fault steps faults sessions

theorem exhausted {r : α → β → Prop} : C.Related w r Eval.outOfFuel Eval.outOfFuel :=
  fun steps _ _ sessions => .exhausted steps (C.ever_of_now sessions)

theorem stopped (granted : C.stops) {r : α → β → Prop} {y : Eval β} :
    C.Related w r Eval.outOfFuel y :=
  fun _ _ _ _ => .stopped granted

theorem outOfFuel {r : α → β → Prop} {n : Nat} {y : Nat → Eval β} (bounds : C.Bounds 0 n)
    (zero : y 0 = Eval.outOfFuel) : C.Related w r Eval.outOfFuel (y n) := by
  rcases bounds with rfl | ⟨granted, _⟩
  · rw [zero]
    exact exhausted
  · exact stopped granted

theorem lockstep {r : α → β → Prop} {x : Eval α} {y : Eval β} (related : C.Related w r x y)
    (none : C.spare = 0) {s t : Session} (sessions : C.now w s t) (steps : Nat) :
    C.Outcome w r (x.run ⟨steps, s⟩) (y.run ⟨steps, t⟩) := by
  have outcome := related steps s t sessions
  rwa [none, Nat.add_zero] at outcome

theorem mono {r q : α → β → Prop} {x : Eval α} {y : Eval β} (related : C.Related w r x y)
    (weaker : ∀ a b, r a b → q a b) : C.Related w q x y := by
  intro steps s t sessions
  have outcome := related steps s t sessions
  generalize x.run ⟨steps, s⟩ = p at outcome ⊢
  generalize y.run ⟨steps + C.spare, t⟩ = p' at outcome ⊢
  cases outcome with
  | value steps values sessions => exact .value steps (weaker _ _ values) sessions
  | fault steps faults sessions => exact .fault steps faults sessions
  | exhausted steps sessions => exact .exhausted steps sessions
  | stopped granted => exact .stopped granted

theorem andThen {r : α → β → Prop} {q : α' → β' → Prop} {x : Eval α} {y : Eval β}
    {f : α → Eval α'} {g : β → Eval β'} (first : C.Related w r x y)
    (next : ∀ a b, r a b → C.Related w q (f a) (g b)) : C.Related w q (x >>= f) (y >>= g) := by
  intro steps s t sessions
  rw [Eval.run_bind, Eval.run_bind]
  have outcome := first steps s t sessions
  generalize x.run ⟨steps, s⟩ = p at outcome ⊢
  generalize y.run ⟨steps + C.spare, t⟩ = p' at outcome ⊢
  cases outcome with
  | value steps values sessions => exact next _ _ values steps _ _ sessions
  | fault steps faults sessions => exact .fault steps faults sessions
  | exhausted steps sessions => exact .exhausted steps sessions
  | stopped granted => exact .stopped granted

theorem andThenSame {q : α' → β' → Prop} {x y : Eval α} {f : α → Eval α'} {g : α → Eval β'}
    (first : C.Related w Eq x y) (next : ∀ a, C.Related w q (f a) (g a)) :
    C.Related w q (x >>= f) (y >>= g) :=
  first.andThen fun a _ same => same ▸ next a

theorem mapped {x y : Eval α} (f : α → β) (related : C.Related w Eq x y) :
    C.Related w Eq (f <$> x) (f <$> y) :=
  related.andThenSame fun _ => value rfl

theorem caught {r : α → β → Prop} {x : Eval α} {y : Eval β} {f : RuntimeError → Eval α}
    {g : RuntimeError → Eval β} (body : C.Related w r x y)
    (handlers : ∀ error error', C.fault error error' → C.Related w r (f error) (g error')) :
    C.Related w r (tryCatch x f) (tryCatch y g) := by
  intro steps s t sessions
  rw [Eval.run_tryCatch, Eval.run_tryCatch]
  have outcome := body steps s t sessions
  generalize x.run ⟨steps, s⟩ = p at outcome ⊢
  generalize y.run ⟨steps + C.spare, t⟩ = p' at outcome ⊢
  cases outcome with
  | value steps values sessions => exact .value steps values sessions
  | fault steps faults sessions => exact handlers _ _ faults steps _ _ sessions
  | exhausted steps sessions => exact .exhausted steps sessions
  | stopped granted => exact .stopped granted

theorem read : C.Related w (C.now w) Eval.session Eval.session :=
  fun steps _ _ sessions => .value steps sessions sessions

theorem step : C.Related w Eq Eval.tick Eval.tick := by
  intro steps s t sessions
  cases steps with
  | zero => exact .noSteps Eval.tick (C.ever_of_now sessions) fun _ => rfl
  | succ steps =>
      rw [Nat.add_right_comm]
      exact .value steps rfl sessions

theorem update {r : α → β → Prop} {f : Session → α × Session} {g : Session → β × Session}
    (changes : ∀ s t, C.now w s t → r (f s).1 (g t).1 ∧ C.now w (f s).2 (g t).2) :
    C.Related w r (Eval.update f) (Eval.update g) := by
  intro steps s t sessions
  cases steps with
  | zero => exact .noSteps (Eval.update g) (C.ever_of_now sessions) fun _ => rfl
  | succ steps =>
      rw [Nat.add_right_comm]
      exact .value steps (changes s t sessions).1 (changes s t sessions).2

theorem inFrame {r : α → β → Prop} {fr fr' : Frame} {body : FrameId → Eval α}
    {body' : FrameId → Eval β} (frames : C.entered w fr fr')
    (bodies : C.Related (C.grow w fr fr') r (body (C.top w).1) (body' (C.top w).2)) :
    C.Related w r (Eval.withFrame fr body) (Eval.withFrame fr' body') := by
  intro steps s t sessions
  cases steps with
  | zero => exact .noSteps (Eval.withFrame fr' body') (C.ever_of_now sessions) fun _ => rfl
  | succ steps =>
      obtain ⟨height, height'⟩ := C.heights sessions
      have outcome := bodies steps _ _ (C.push sessions frames)
      rw [Nat.add_right_comm, Eval.run_withFrame, Eval.run_withFrame, height, height']
      generalize (body (C.top w).1).run ⟨steps, s.push fr⟩ = p at outcome ⊢
      generalize (body' (C.top w).2).run ⟨steps + C.spare, t.push fr'⟩ = p' at outcome ⊢
      cases outcome with
      | exhausted steps sessions => exact .exhausted steps sessions
      | stopped granted => exact .stopped granted
      | @value a b s t steps values sessions =>
          cases steps with
          | zero =>
              exact .noSteps (fun run => Eval.leave (C.top w).2 (.value b, run))
                (C.ever_of_now sessions) fun _ => rfl
          | succ steps =>
              rw [Nat.add_right_comm]
              exact .value steps values (C.cut frames sessions)
      | @fault error error' s t steps faults sessions =>
          cases steps with
          | zero =>
              exact .noSteps (fun run => Eval.leave (C.top w).2 (.fault error', run))
                (C.ever_of_now sessions) fun _ => rfl
          | succ steps =>
              rw [Nat.add_right_comm]
              exact .fault steps faults (C.cut frames sessions)

theorem readVariable {n n' : String} (names : C.name n n') :
    C.Related w Eq (Eval.readVariable n) (Eval.readVariable n') :=
  update fun _ _ sessions => C.readVariable sessions names

theorem setVariable {n n' : String} (names : C.name n n') (value : Number) :
    C.Related w Eq (Eval.setVariable n value) (Eval.setVariable n' value) :=
  update fun _ _ sessions => ⟨rfl, C.setVariable value sessions names⟩

theorem defineMacro {n n' : String} {d d' : MacroDefinition} (names : C.name n n')
    (definitions : C.Definitions d d') :
    C.Related w Eq (Eval.defineMacro n d) (Eval.defineMacro n' d') :=
  update fun _ _ sessions => ⟨rfl, C.defineMacro sessions names definitions⟩

theorem bind {n n' : String} {b b' : Binding} {f f' : FrameId} (names : C.name n n')
    (bindings : C.binding f f' b b') (frames : C.frame w f f') :
    C.Related w Eq (Eval.bind n b f) (Eval.bind n' b' f') :=
  update fun _ _ sessions => ⟨rfl, C.bind sessions frames names bindings⟩

theorem onConsole (change : Console → α × Console) :
    C.Related w Eq (Eval.onConsole change) (Eval.onConsole change) := by
  apply update
  intro s t sessions
  have same := C.consoles sessions
  refine ⟨by rw [same], ?_⟩
  rw [same]
  exact C.setConsole _ sessions

theorem failUnbound {r : α → β → Prop} {n n' : String} {f f' : FrameId} (names : C.name n n')
    (frames : C.frame w f f') :
    C.Related w r (Eval.failUnbound n f) (Eval.failUnbound n' f') :=
  read.andThen fun _ _ sessions => fault (C.unknownLocal sessions frames names)

theorem require {n n' : String} {f f' : FrameId} (names : C.name n n') (frames : C.frame w f f') :
    C.Related w (C.binding f f') (Eval.require n f) (Eval.require n' f') := by
  apply read.andThen
  intro s t sessions
  have found := C.lookup sessions frames names
  generalize s.lookup n f = b at found
  generalize t.lookup n' f' = b' at found
  cases found with
  | some bindings => exact value bindings
  | none => exact failUnbound names frames

end Related

def congruence (C : Correspondence) (w : C.World) : Eval.Congruence where
  Rel := C.Related w
  Bounds := C.Bounds
  strict := C.strict
  value := .value
  fault error dispatched := .fault (C.fault_refl error dispatched)
  andThen := .andThen
  bounds_succ := Comparison.bounds_succ
  outOfFuel := .outOfFuel

end Correspondence

end Calculator
