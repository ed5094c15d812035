import Calculator.Proofs.Correspondence.Builtin.Math
import Calculator.Proofs.Correspondence.Builtin.Memory
import Calculator.Proofs.Correspondence.Builtin.Program
import Calculator.Proofs.Registry
import Calculator.Solve

/-! Evaluation keeps together what its primitive operations and functions keep together. -/

namespace Calculator

namespace Correspondence

variable {C : Correspondence} {w : C.World}

structure Builtins (C : Correspondence) (builtin builtin' : Builtin) : Prop where
  arity : builtin.arity = builtin'.arity
  handler : C.Agree builtin.arity builtin.handler builtin'.handler

/-- Registries of such functions by the same names. -/
structure Serves (C : Correspondence) (registry registry' : Registry) : Prop where
  find : ∀ name, Option.Rel C.Builtins (registry.find? name) (registry'.find? name)
  functions : ∀ functions, C.functions = some functions → registry.isFunction = functions

theorem Serves.of_keeps {registry : Registry}
    (keeps : ∀ name builtin, registry.find? name = some builtin → C.Keeps builtin)
    (functions : ∀ functions, C.functions = some functions → registry.isFunction = functions) :
    C.Serves registry registry := by
  refine ⟨fun name => ?_, functions⟩
  cases found : registry.find? name with
  | none => exact .none
  | some builtin => exact .some ⟨rfl, keeps name builtin found⟩

theorem Serves.isFunction_eq {registry registry' : Registry} (serves : C.Serves registry registry') :
    registry.isFunction = registry'.isFunction := by
  funext name
  have found := serves.find name
  rw [Registry.isFunction_eq, Registry.isFunction_eq]
  generalize registry.find? name = builtin at found ⊢
  generalize registry'.find? name = builtin' at found ⊢
  cases found <;> rfl

theorem keeps_standardTable : ∀ entry ∈ Builtin.standardTable,
    (entry.1 = "deepset" → C.Settles) → C.Keeps entry.2 := by
  simp only [Builtin.standardTable, List.forall_mem_append]
  refine ⟨⟨⟨⟨⟨?_, ?_⟩, keeps_programTable⟩, ?_⟩, ?_⟩, ?_⟩
  · exact fun entry mem _ => keeps_controlTable entry mem
  · exact fun entry mem _ => keeps_memoryTable entry mem
  · exact fun entry mem _ => keeps_channelTable entry mem
  · exact fun entry mem _ => keeps_mathTable entry mem
  · exact fun entry mem _ => keeps_reduceTable entry mem

theorem keeps_standard (name : String) (builtin : Builtin)
    (found : Registry.standard.find? name = some builtin) :
    (Text.fold name = "deepset" → C.Settles) → C.Keeps builtin :=
  Registry.of_find_ofList
    (P := fun key builtin => (key = "deepset" → C.Settles) → C.Keeps builtin)
    keeps_standardTable name builtin found

theorem serves_standard (settles : C.Settles)
    (functions : ∀ functions, C.functions = some functions →
      Registry.standard.isFunction = functions := by nofun) : C.Serves .standard .standard :=
  .of_keeps (fun name builtin found => keeps_standard name builtin found fun _ => settles) functions

namespace Machines

variable {m m' : Machine} (h : C.Machines m m') {e e' : Expr} {f f' : FrameId}
  (frames : C.frame w f f')
include h frames

theorem registryCall {registry registry' : Registry} (serves : C.Serves registry registry')
    {n n' : String} {args args' : List Expr} (names : C.name n n')
    (parts : List.Forall₂ C.expr args args')
    (known : ∀ functions, C.functions = some functions → functions n = true) :
    C.Related w Eq (registry.call m n args f) (registry'.call m' n' args' f') := by
  have same : registry'.find? n' = registry'.find? n := by
    rw [Registry.find?, Registry.find?, C.name_fold names]
  have found := serves.find n
  unfold Registry.call
  rw [same, ← parts.length_eq]
  generalize registry'.find? n = builtin' at found ⊢
  cases here : registry.find? n with
  | none =>
      rw [here] at found
      cases found
      refine .fault (C.unknownFunction names fun strict => ?_)
      obtain ⟨functions, same⟩ := Option.isSome_iff_exists.mp strict
      have there := known functions same
      rw [← serves.functions functions same, Registry.isFunction_eq, here] at there
      cases there
  | some builtin =>
      rw [here] at found
      cases found with
      | some builtins =>
          dsimp only
          rw [← builtins.arity]
          split
          · rename_i accepted
            exact builtins.handler h parts frames fun _ => accepted
          · have start : Argument.OtherMessage "expects " := rfl
            exact .fault (C.wrongCount names (((start.append _).append _).append _))

theorem binary {a a' b b' : Expr} (op : BinaryOp) (lefts : C.expr a a') (rights : C.expr b b') :
    C.Related w Eq (m.binary op a b f) (m'.binary op a' b' f') := by
  have right : C.Related w Eq (m.solve b f) (m'.solve b' f') := h.solve rights frames
  apply (h.solve lefts frames).andThenSame
  intro x
  cases op with
  | value op => exact right.andThenSame fun _ => .value rfl
  | and =>
      dsimp only
      split
      · exact right.andThenSame fun _ => .value rfl
      · exact .value rfl
  | or =>
      dsimp only
      split
      · exact .value rfl
      · exact right.andThenSame fun _ => .value rfl
  | xor => exact right.andThenSame fun _ => .value rfl
  | sequence => exact right

theorem step {registry registry' : Registry} (serves : C.Serves registry registry')
    (exprs : C.expr e e') : C.Related w Eq (m.step registry e f) (m'.step registry' e' f') := by
  have cell : ∀ {p p'}, C.expr p p' →
      C.Related w Eq (do m.readCell p (← m.address p f) f)
        (do m'.readCell p' (← m'.address p' f') f') :=
    fun pointers => (h.address pointers frames).andThenSame fun address =>
      h.readCell address pointers frames
  cases C.layer exprs with
  | constant value => exact .value rfl
  | globalVar names => exact .readVariable names
  | localVar names =>
      exact (Related.require names frames).andThen fun _ _ bindings =>
        h.resolve (C.binding_layer frames bindings)
  | macroRef definable names parts => exact h.invokeMacro names frames (references parts frames)
  | lambda names body => exact .inFrame (C.entered_lambda frames) (h.solve body C.frame_top)
  | pointer base => exact cell exprs
  | localPointer base => exact cell exprs
  | assign targets values => exact h.assignment targets values frames
  | binary op lefts rights => exact h.binary frames op lefts rights
  | unary op parts => exact (h.solve parts frames).andThenSame fun _ => .value rfl
  | call names parts => exact h.registryCall frames serves names parts (C.expr_call exprs)
  | quote text => exact .value rfl

end Machines

section Setting

variable {setting setting' : Setting} (serves : C.Serves setting.registry setting'.registry)
  (imply : setting.imply = setting'.imply)
include serves imply

theorem solve {fuel fuel' : Nat} (bounds : C.Bounds fuel fuel') {e e' : Expr} {f f' : FrameId}
    (exprs : C.expr e e') (frames : C.frame w f f') :
    C.Related w Eq (setting.solve fuel e f) (setting'.solve fuel' e' f') := by
  -- The induction is on the fuel: what a level of nesting needs is evaluated with less of it, in any world.
  induction fuel generalizing fuel' w e e' f f' with
  | zero => exact .outOfFuel (y := fun fuel' => setting'.solve fuel' e' f') bounds rfl
  | succ fuel ih =>
      obtain ⟨fuel', rfl, fewer⟩ := Comparison.bounds_succ bounds
      have machines : C.Machines (setting.machine fuel (setting.solve fuel))
          (setting'.machine fuel' (setting'.solve fuel')) :=
        ⟨fewer, serves.isFunction_eq, imply, serves.functions, ih fewer⟩
      exact Related.step.andThenSame fun _ => machines.step frames serves exprs

theorem machines {fuel fuel' : Nat} (bounds : C.Bounds fuel fuel') :
    C.Machines (setting.machine fuel (setting.solve fuel))
      (setting'.machine fuel' (setting'.solve fuel')) :=
  ⟨bounds, serves.isFunction_eq, imply, serves.functions, solve serves imply bounds⟩

theorem solveLine (fuel : Nat) {root root' : Expr} (roots : C.expr root root') :
    C.Related w Eq (Eval.withFrame .main (setting.solve fuel root))
      (Eval.withFrame .main (setting'.solve fuel root')) :=
  .inFrame C.entered_main (solve serves imply (C.bounds_refl fuel) roots C.frame_top)

end Setting

end Correspondence

end Calculator
