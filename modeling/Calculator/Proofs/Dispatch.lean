import Calculator.Proofs.Frames.Cycle
import Calculator.Proofs.Registry

/-! Calls find their function, and functions find their arguments.

A name becomes a call only where a function of that name is known when the text is read. The trees that
are made so are kept in macros and in frames, and are evaluated much later. -/

namespace Calculator

variable {functions : String → Bool}

def Binding.CallsOnly (functions : String → Bool) (binding : Binding) : Prop :=
  ∀ expr origin, binding = .reference expr origin → expr.CallsOnly functions

theorem Binding.callsOnly_value (value : Number) : (Binding.value value).CallsOnly functions := by
  intro expr origin same
  cases same

theorem Binding.callsOnly_reference {expr : Expr} {origin : FrameId} (calls : expr.CallsOnly functions) :
    (Binding.reference expr origin).CallsOnly functions := by
  intro expr origin same
  cases same
  exact calls

namespace Session

/-- All bodies of macros, and all that locals refer to, call functions that there are. -/
structure CallsOnly (functions : String → Bool) (s : Session) : Prop where
  bodies : ∀ name definition, s.macro? name = some definition → definition.body.CallsOnly functions
  locals : ∀ (id : FrameId) frame, s.frames[id]? = some frame →
    ∀ (key : String) binding, frame.locals[key]? = some binding → binding.CallsOnly functions

namespace CallsOnly

variable {s : Session} (calls : s.CallsOnly functions)
include calls

theorem push {frame : Frame} (empty : frame.locals = ∅) : (s.push frame).CallsOnly functions where
  bodies := calls.bodies
  locals := by
    intro id entry found key binding bound
    rw [getElem?_push] at found
    split at found
    · cases found
      simp [empty] at bound
    · exact calls.locals id entry found key binding bound

theorem cutTo (height : Nat) : (s.cutTo height).CallsOnly functions where
  bodies := calls.bodies
  locals := by
    intro id entry found
    rw [getElem?_cutTo] at found
    split at found
    · exact calls.locals id entry found
    · cases found

theorem bind {name : String} {binding : Binding} (known : binding.CallsOnly functions) (id : FrameId) :
    (s.bind name binding id).CallsOnly functions where
  bodies := calls.bodies
  locals := by
    intro target frame found key stored bound
    rw [getElem?_bind] at found
    split at found
    · obtain ⟨old, there, rfl⟩ := Option.map_eq_some_iff.mp found
      rw [Std.TreeMap.getElem?_insert] at bound
      split at bound
      · cases bound
        exact known
      · exact calls.locals target old there key stored bound
    · exact calls.locals target frame found key stored bound

theorem defineMacro {name : String} {definition : MacroDefinition}
    (known : definition.body.CallsOnly functions) :
    (s.defineMacro name definition).CallsOnly functions where
  bodies := by
    intro other stored found
    unfold macro? Session.defineMacro at found
    rw [Std.TreeMap.getElem?_insert] at found
    split at found
    · cases found
      exact known
    · exact calls.bodies other stored found
  locals := calls.locals

theorem lookup {name : String} {id : FrameId} {binding : Binding}
    (found : s.lookup name id = some binding) : binding.CallsOnly functions := by
  obtain ⟨holder, frame, -, top, bound⟩ := exists_of_lookupFolded found
  exact calls.locals holder frame top _ _ bound

end CallsOnly

end Session

theorem Expr.CallsOnly.layer {e : Expr} (calls : e.CallsOnly functions) :
    Expr.Layer Eq (fun e e' => e = e' ∧ e.CallsOnly functions) e e := by
  obtain ⟨_, parts⟩ := calls
  have all : ∀ args : List Expr, (∀ arg ∈ args, arg.CallsOnly functions) →
      List.Forall₂ (fun e e' => e = e' ∧ e.CallsOnly functions) args args :=
    fun args known => List.forall₂_same.mpr fun arg mem => ⟨rfl, known arg mem⟩
  cases e with
  | constant value => exact .constant value
  | globalVar name => exact .globalVar rfl
  | localVar name => exact .localVar rfl
  | macroRef name args definable => exact .macroRef definable rfl (all args parts)
  | lambda aliases body => exact .lambda (List.forall₂_refl aliases) ⟨rfl, parts body (.head _)⟩
  | pointer address => exact .pointer ⟨rfl, parts address (.head _)⟩
  | localPointer address => exact .localPointer ⟨rfl, parts address (.head _)⟩
  | assign target value =>
      exact .assign ⟨rfl, parts target (.head _)⟩ ⟨rfl, parts value (.tail _ (.head _))⟩
  | binary op left right =>
      exact .binary op ⟨rfl, parts left (.head _)⟩ ⟨rfl, parts right (.tail _ (.head _))⟩
  | unary op operand => exact .unary op ⟨rfl, parts operand (.head _)⟩
  | call name args => exact .call rfl (all args parts)
  | quote text => exact .quote text

/-- Sessions that only call functions that there are, and themselves. A world is the height of the
stack. No run fails for want of a function or of an argument. -/
def dispatchComparison (functions : String → Bool) : Comparison where
  World := Nat
  now height s t := s = t ∧ s.CallsOnly functions ∧ s.frames.size = height
  ever s t := s = t ∧ s.CallsOnly functions
  fault error error' := error = error' ∧ ¬error.Undispatched
  name := Eq
  expr e e' := e = e' ∧ e.CallsOnly functions
  frame _ := Eq
  binding _ _ b b' := b = b' ∧ b.CallsOnly functions
  entered _ fr fr' := fr = fr' ∧ fr.locals = ∅
  grow height _ _ := height + 1
  top height := (height, height)
  stops := False
  functions := some functions

theorem dispatchComparison_syntactic (functions : String → Bool) :
    (dispatchComparison functions).Syntactic where
  name_refl _ := rfl
  name_fold names := congrArg Text.fold names
  expr_refl _ calls := ⟨rfl, calls functions rfl⟩
  expr_call := by
    rintro name args _ ⟨_, calls⟩ _ ⟨⟩
    exact calls.here name args rfl
  expr_localVar := by
    rintro n _ rfl
    exact ⟨rfl, .leaf (fun _ _ call => nomatch call) rfl⟩
  layer := by
    rintro e _ ⟨rfl, calls⟩
    exact calls.layer
  fault_refl _ dispatched := ⟨rfl, dispatched rfl⟩
  fault_category faults := congrArg RuntimeError.category faults.1
  unknownMacro names := ⟨congrArg RuntimeError.unknownMacro names, id⟩
  unknownFunction _ free := absurd rfl free
  macroWithArguments names := ⟨congrArg RuntimeError.macroWithArguments names, id⟩
  wrongCount := by
    rintro n _ message rfl other
    exact ⟨rfl, other.dispatched⟩
  notAssignable exprs := ⟨congrArg (fun e : Expr => RuntimeError.notAssignable e.describe) exprs.1, id⟩
  notAddressable exprs :=
    ⟨congrArg (fun e : Expr => RuntimeError.notAddressable e.describe) exprs.1, id⟩
  notCallable exprs := ⟨congrArg (fun e : Expr => RuntimeError.notCallable e.describe) exprs.1, id⟩

def dispatchCorrespondence (functions : String → Bool) : Correspondence where
  toComparison := dispatchComparison functions
  toSyntactic := dispatchComparison_syntactic functions
  ever_of_now := by
    rintro height s _ ⟨rfl, calls, _⟩
    exact ⟨rfl, calls⟩
  heights := by
    rintro height s _ ⟨rfl, _, size⟩
    exact ⟨size, size⟩
  push := by
    rintro height s _ fr _ ⟨rfl, calls, rfl⟩ ⟨rfl, empty⟩
    exact ⟨rfl, calls.push empty, s.size_push fr⟩
  cut := by
    rintro height s _ fr _ _ ⟨rfl, calls, grown⟩
    exact ⟨rfl, calls.cutTo height,
      (s.size_cutTo height).trans (Nat.min_eq_left (grown ▸ Nat.le_succ _))⟩
  consoles := by
    rintro height s _ ⟨rfl, _⟩
    rfl
  setConsole := by
    rintro height s _ console ⟨rfl, calls, size⟩
    exact ⟨rfl, ⟨calls.bodies, calls.locals⟩, size⟩
  readVariable := by
    rintro height s _ n _ ⟨rfl, calls, size⟩ rfl
    refine ⟨rfl, rfl, ?_⟩
    unfold Session.readVariable
    split
    · exact ⟨calls, size⟩
    · exact ⟨⟨calls.bodies, calls.locals⟩, size⟩
  setVariable := by
    rintro height s _ n _ value ⟨rfl, calls, size⟩ rfl
    exact ⟨rfl, ⟨calls.bodies, calls.locals⟩, size⟩
  macros := by
    rintro height s _ n _ ⟨rfl, calls, _⟩ rfl
    exact .of_mem fun d found => ⟨⟨rfl, calls.bodies n d found⟩, List.forall₂_same.mpr fun _ _ => rfl⟩
  defineMacro := by
    rintro height s _ n _ d d' ⟨rfl, calls, size⟩ rfl ⟨⟨bodies, known⟩, aliases⟩
    obtain rfl := MacroDefinition.eq_of_parts bodies aliases
    exact ⟨rfl, calls.defineMacro known, size⟩
  hasMacro := by
    rintro height s _ ⟨rfl, _⟩
    rfl
  lookup := by
    rintro height s _ f _ n _ ⟨rfl, calls, _⟩ rfl rfl
    exact .of_mem fun _ found => ⟨rfl, calls.lookup found⟩
  bind := by
    rintro height s _ f _ n _ b _ ⟨rfl, calls, size⟩ rfl rfl ⟨rfl, known⟩
    exact ⟨rfl, calls.bind known f, (s.size_bind n b f).trans size⟩
  frame_lt := by
    rintro height f _ g _ rfl rfl
    exact Iff.rfl
  frame_grow := id
  frame_top := rfl
  entered_main := ⟨rfl, rfl⟩
  entered_lambda same := ⟨congrArg Frame.ofLambda same, rfl⟩
  entered_macro := by
    rintro height f _ n _ rfl rfl
    exact ⟨rfl, rfl⟩
  binding_value _ _ value := ⟨rfl, Binding.callsOnly_value value⟩
  binding_layer := by
    rintro height f _ b _ rfl ⟨rfl, known⟩
    cases b with
    | value value => exact .value value
    | reference expr origin => exact .reference ⟨rfl, known expr origin rfl⟩ rfl
  binding_top _ bindings := bindings
  reference_top := by
    rintro height f _ e _ rfl ⟨rfl, calls⟩
    exact ⟨rfl, Binding.callsOnly_reference calls⟩
  unknownLocal := by
    rintro height s _ f _ n _ ⟨rfl, _⟩ rfl rfl
    exact ⟨rfl, id⟩

theorem settles_dispatch : (dispatchCorrespondence functions).Settles := by
  rintro height f _ g _ e _ rfl rfl ⟨rfl, calls⟩ _
  exact ⟨rfl, Binding.callsOnly_reference calls⟩

theorem serves_dispatch :
    (dispatchCorrespondence Registry.standard.isFunction).Serves .standard .standard :=
  Correspondence.serves_standard settles_dispatch fun _ same => Option.some.inj same

theorem dispatched_of_related {α : Type} {r : α → α → Prop} {x : Eval α}
    (related : ∀ height : Nat, (dispatchCorrespondence functions).Related height r x x) {s : Session}
    (calls : s.CallsOnly functions) (steps : Nat) :
    (x.run ⟨steps, s⟩).2.session.CallsOnly functions ∧
      ∀ fault, (x.run ⟨steps, s⟩).1 = .fault fault → ¬fault.Undispatched := by
  have outcome := (related s.frames.size).lockstep rfl ⟨rfl, calls, rfl⟩ steps
  refine ⟨(outcome.reached not_false).2, fun fault failed => ?_⟩
  generalize x.run ⟨steps, s⟩ = p at outcome failed
  cases outcome with
  | fault steps faults sessions =>
      cases failed
      exact faults.2
  | value => cases failed
  | exhausted => cases failed
  | stopped granted => exact granted.elim

section Engine

variable {engine : Engine} (standard : engine.registry = .standard)
  (calls : engine.session.CallsOnly Registry.standard.isFunction)
include standard

theorem root_callsOnly {text : String} {root : Expr} {implied : Bool}
    (reads : Parsed.ofText engine.vocabulary engine.options.imply text = .ok ⟨some root, implied⟩) :
    root.CallsOnly Registry.standard.isFunction := by
  have formed : root.CallsOnly engine.registry.isFunction := (Parsed.ofText_formed reads).callsOnly
  rwa [standard] at formed

theorem engine_serves_dispatch :
    (dispatchCorrespondence Registry.standard.isFunction).Serves engine.setting.registry
      engine.setting.registry := by
  change Correspondence.Serves _ engine.registry engine.registry
  rw [standard]
  exact serves_dispatch

theorem handler_dispatched (fuel : Nat) {name : String} {builtin : Builtin} {args : List Expr}
    (found : Registry.standard.find? name = some builtin)
    (accepted : builtin.arity.accepts args.length = true)
    (known : ∀ arg ∈ args, arg.CallsOnly Registry.standard.isFunction) (id : FrameId) (height : Nat) :
    let handled := builtin.handler (engine.setting.machine fuel (engine.setting.solve fuel)) args id
    (dispatchCorrespondence Registry.standard.isFunction).Related height Eq handled handled := by
  have machines := Correspondence.machines (engine_serves_dispatch standard) rfl
    (Comparison.bounds_refl _ fuel)
  have keeps : (dispatchCorrespondence Registry.standard.isFunction).Keeps builtin :=
    Correspondence.keeps_standard name builtin found fun _ => settles_dispatch
  have parts : List.Forall₂ (dispatchCorrespondence Registry.standard.isFunction).expr args args :=
    List.forall₂_same.mpr fun arg mem => ⟨rfl, known arg mem⟩
  exact keeps machines parts rfl fun _ => accepted

include calls

theorem evaluateWithin_dispatched {root : Expr} (known : root.CallsOnly Registry.standard.isFunction)
    (fuel steps : Nat) :
    (engine.evaluateWithin fuel steps root).2.session.CallsOnly Registry.standard.isFunction ∧
      ∀ fault, (engine.evaluateWithin fuel steps root).1 = .fault fault → ¬fault.Undispatched := by
  have line : ∀ height : Nat, (dispatchCorrespondence Registry.standard.isFunction).Related height Eq
      (Eval.withFrame .main (engine.setting.solve fuel root))
      (Eval.withFrame .main (engine.setting.solve fuel root)) :=
    fun height => Correspondence.solveLine (engine_serves_dispatch standard) rfl fuel ⟨rfl, known⟩
  exact dispatched_of_related line calls steps

theorem evaluate_dispatched {root : Expr} (known : root.CallsOnly Registry.standard.isFunction)
    {fuel : Nat} {result : Except RuntimeError Number} {after : Engine}
    (ended : engine.evaluate fuel root = some (result, after)) :
    after.session.CallsOnly Registry.standard.isFunction ∧
      ∀ fault, result = .error fault → ¬fault.Undispatched := by
  have dispatched := evaluateWithin_dispatched standard calls known fuel fuel
  rw [Engine.evaluate_eq_some.mp ended] at dispatched
  refine ⟨dispatched.1, fun fault failed => dispatched.2 fault ?_⟩
  rw [failed]
  rfl

theorem run_dispatched {fuel : Nat} {text : String} {record : Bool}
    {result : Except Error (Number × Bool)} {after : Engine}
    (ran : engine.run fuel text record = some (result, after)) :
    after.session.CallsOnly Registry.standard.isFunction ∧
      ∀ fault, result = .error (.runtime fault) → ¬fault.Undispatched := by
  cases Engine.run_ran ran with
  | malformed reads =>
      refine ⟨calls, fun fault failed => ?_⟩
      cases failed
      exact absurd reads (Parsed.ofText_ne_runtime text fault)
  | empty => exact ⟨calls, nofun⟩
  | fault reads ended =>
      obtain ⟨kept, dispatched⟩ :=
        evaluate_dispatched standard calls (root_callsOnly standard reads) ended
      refine ⟨kept, fun fault failed => dispatched fault ?_⟩
      cases failed
      rfl
  | value reads ended =>
      have kept := (evaluate_dispatched standard calls (root_callsOnly standard reads) ended).1
      refine ⟨?_, nofun⟩
      split
      · exact ⟨kept.bodies, kept.locals⟩
      · exact kept

end Engine

theorem Engine.Reachable.callsOnly {engine : Engine} (reachable : engine.Reachable .standard) :
    engine.registry = .standard ∧ engine.session.CallsOnly Registry.standard.isFunction := by
  induction reachable with
  | new options console =>
      refine ⟨rfl, fun name definition found => ?_, fun id frame found => ?_⟩
      · simp [Engine.new, Session.macro?] at found
      · simp [Engine.new] at found
  | line _ ran ih =>
      obtain ⟨standard, calls⟩ := ih
      exact ⟨(Engine.run_registry ran).trans standard, (run_dispatched standard calls ran).1⟩

/-- However many lines an engine has run: every call in an expression that it reads names a function,
and so does every call in a macro and in what a local refers to, at every point of every line; no line
fails because a function is unknown or misses an argument; and no function that is called with a number
of arguments that it accepts does, at any point, so that there is no such error to be caught either. -/
theorem calls_dispatched {engine : Engine} (reachable : engine.Reachable .standard) :
    (∀ text root implied,
        Parsed.ofText engine.vocabulary engine.options.imply text = .ok ⟨some root, implied⟩ →
          root.CallsOnly Registry.standard.isFunction) ∧
      (∀ fuel text record fault after,
        engine.run fuel text record = some (.error (.runtime fault), after) → ¬fault.Undispatched) ∧
      ∀ fuel steps text s, engine.pointOf fuel steps text = some s →
        s.CallsOnly Registry.standard.isFunction ∧
          ∀ name builtin, Registry.standard.find? name = some builtin →
            ∀ args : List Expr, builtin.arity.accepts args.length = true →
              (∀ arg ∈ args, arg.CallsOnly Registry.standard.isFunction) →
                ∀ id fuel steps fault after,
                  (builtin.handler (engine.setting.machine fuel (engine.setting.solve fuel)) args id).run
                      ⟨steps, s⟩ = (.fault fault, after) →
                    ¬fault.Undispatched := by
  obtain ⟨standard, calls⟩ := reachable.callsOnly
  refine ⟨fun text root implied => root_callsOnly standard, ?_, fun fuel steps text s point => ?_⟩
  · intro fuel text record fault after ran
    exact (run_dispatched standard calls ran).2 fault rfl
  · unfold Engine.pointOf at point
    split at point
    · rename_i root implied reads
      cases point
      have known := root_callsOnly standard reads
      have here := (evaluateWithin_dispatched standard calls known fuel steps).1
      refine ⟨here, fun name builtin found args accepted known id fuel steps fault after failed => ?_⟩
      have handled := handler_dispatched standard fuel found accepted known id
      exact (dispatched_of_related handled here steps).2 fault (congrArg Prod.fst failed)
    · cases point

theorem wrong_count_dispatched :
    let engine : Engine := .new ⟨false, true, true⟩ (.withInput .buffer [])
    let fault := RuntimeError.evaluation "sqrt" "expects 1 argument but received 2"
    engine.Reachable .standard ∧
      (engine.run 9 "sqrt(1, 2)" true).map Prod.fst = some (.error (.runtime fault)) ∧
        ¬fault.Undispatched := by
  intro engine fault
  have reachable : engine.Reachable .standard := .new _ _
  have failed : (engine.run 9 "sqrt(1, 2)" true).map Prod.fst = some (.error (.runtime fault)) := by
    decide +kernel
  obtain ⟨⟨result, after⟩, ran, rfl⟩ := Option.map_eq_some_iff.mp failed
  exact ⟨reachable, failed, (calls_dispatched reachable).2.1 9 _ true fault after ran⟩

end Calculator
