import Calculator.Proofs.Limit
import Calculator.Solve

/-! Evaluations that take a known number of steps, whatever fuel they are given beyond what they need. -/

namespace Calculator

namespace Eval

variable {α β : Type}

/-- The evaluation comes to a result after so many steps. -/
def Costs (x : Eval α) (cost : Nat) (s : Session) (result : Except RuntimeError α) (after : Session) :
    Prop :=
  ∀ spare, x.run ⟨cost + spare, s⟩ = (.of result, ⟨spare, after⟩)

variable {x : Eval α} {s s' after : Session} {result : Except RuntimeError α} {cost cost' : Nat}

theorem costs_pure (a : α) (s : Session) : (pure a : Eval α).Costs 0 s (.ok a) s := by
  intro spare
  rw [run_pure, Nat.zero_add]
  rfl

theorem costs_throw (error : RuntimeError) (s : Session) :
    (throw error : Eval α).Costs 0 s (.error error) s := by
  intro spare
  rw [run_throw, Nat.zero_add]
  rfl

theorem costs_update (change : Session → α × Session) (s : Session) :
    (update change).Costs 1 s (.ok (change s).1) (change s).2 := by
  intro spare
  rw [Nat.add_comm]
  rfl

theorem costs_readVariable {name : String} {value : Number}
    (held : s.globals[Text.fold name]? = some value) : (readVariable name).Costs 1 s (.ok value) s := by
  have read := costs_update (·.readVariable name) s
  rwa [Session.readVariable, held] at read

theorem costs_tick (s : Session) : tick.Costs 1 s (.ok ()) s := costs_update (fun s => ((), s)) s

theorem costs_session (s : Session) : session.Costs 0 s (.ok s) s := by
  intro spare
  rw [Nat.zero_add]
  rfl

theorem Costs.andThen {a : α} {f : α → Eval β} {result : Except RuntimeError β}
    (first : x.Costs cost s (.ok a) s') (next : (f a).Costs cost' s' result after) :
    (x >>= f).Costs (cost + cost') s result after := by
  intro spare
  rw [run_bind, Nat.add_assoc, first]
  exact next spare

theorem costs_require {name : String} {id : FrameId} {binding : Binding}
    (found : s.lookup name id = some binding) : (require name id).Costs 0 s (.ok binding) s := by
  change Costs _ (0 + 0) _ _ _
  apply (costs_session s).andThen
  rw [found]
  exact costs_pure binding s

theorem Costs.inFrame {fr : Frame} {body : FrameId → Eval α}
    (costs : (body s.frames.size).Costs cost (s.push fr) result after) :
    (withFrame fr body).Costs (cost + 2) s result (after.cutTo s.frames.size) := by
  intro spare
  have ran := costs (spare + 1)
  rw [Nat.add_assoc, Nat.add_comm 2 spare, ← Nat.add_assoc cost spare 2, run_withFrame]
  rw [← Nat.add_assoc] at ran
  change leave s.frames.size ((body s.frames.size).run ⟨cost + spare + 1, s.push fr⟩) = _
  rw [ran]
  cases result <;> rfl

/-- With enough fuel the evaluation comes to a result, after a number of steps that does not depend on
the fuel. -/
def Eventually (x : (fuel : Nat) → Eval α) (s : Session) (result : Except RuntimeError α)
    (after : Session) : Prop :=
  ∃ enough cost, ∀ fuel, enough ≤ fuel → (x fuel).Costs cost s result after

theorem Costs.eventually {x : Nat → Eval α} (costs : ∀ fuel, (x fuel).Costs cost s result after) :
    Eventually x s result after :=
  ⟨0, cost, fun fuel _ => costs fuel⟩

theorem eventually_pure (a : α) (s : Session) : Eventually (fun _ => pure a) s (.ok a) s :=
  Costs.eventually fun _ => costs_pure a s

theorem Eventually.andThen {x : Nat → Eval α} {f : Nat → α → Eval β} {a : α}
    {result : Except RuntimeError β} (first : Eventually x s (.ok a) s')
    (next : Eventually (fun fuel => f fuel a) s' result after) :
    Eventually (fun fuel => x fuel >>= f fuel) s result after := by
  obtain ⟨enough, cost, costs⟩ := first
  obtain ⟨enough', cost', costs'⟩ := next
  refine ⟨max enough enough', cost + cost', fun fuel most => ?_⟩
  exact (costs fuel (Nat.le_trans (Nat.le_max_left _ _) most)).andThen
    (costs' fuel (Nat.le_trans (Nat.le_max_right _ _) most))

theorem Eventually.unique {x : Nat → Eval α} {result' : Except RuntimeError α}
    (first : Eventually x s result after) (second : Eventually x s result' s') :
    result = result' ∧ after = s' := by
  obtain ⟨enough, cost, costs⟩ := first
  obtain ⟨enough', cost', costs'⟩ := second
  have ran := costs (max enough enough') (Nat.le_max_left _ _) cost'
  have ran' := costs' (max enough enough') (Nat.le_max_right _ _) cost
  rw [Nat.add_comm cost' cost, ran] at ran'
  obtain ⟨endings, runs⟩ := Prod.mk.inj ran'
  exact ⟨Ending.of_inj endings, congrArg Run.session runs⟩

theorem Eventually.inFrame {fr : Frame} {body : Nat → FrameId → Eval α}
    (comes : Eventually (body · s.frames.size) (s.push fr) result after) :
    Eventually (fun fuel => withFrame fr (body fuel)) s result (after.cutTo s.frames.size) := by
  obtain ⟨enough, cost, costs⟩ := comes
  exact ⟨enough, cost + 2, fun fuel most => (costs fuel most).inFrame⟩

theorem Eventually.ends {x : Nat → Eval α} (comes : Eventually x s result after) :
    Ends x s result after := by
  obtain ⟨enough, cost, costs⟩ := comes
  exact ⟨enough, cost, 0, costs enough (Nat.le_refl _) 0⟩

theorem Eventually.map {x : Nat → Eval α} {a : α} (first : Eventually x s (.ok a) after) (g : α → β) :
    Eventually (fun fuel => do let a ← x fuel; return g a) s (.ok (g a)) after :=
  first.andThen (eventually_pure (g a) after)

theorem Eventually.mapM {x : Nat → α → Eval β} {args : List α} {values : List β}
    (each : List.Forall₂ (fun arg value => Eventually (x · arg) s (.ok value) s) args values) :
    Eventually (fun fuel => args.mapM (x fuel)) s (.ok values) s := by
  induction each with
  | nil =>
      simp only [List.mapM_nil]
      exact eventually_pure [] s
  | @cons arg value args values here _ ih =>
      simp only [List.mapM_cons]
      exact here.andThen (ih.andThen (eventually_pure (value :: values) s))

end Eval

abbrev Setting.machineAt (setting : Setting) (fuel : Nat) : Machine :=
  setting.machine fuel (setting.solve fuel)

/-- The expression comes to the value and changes nothing. -/
def Setting.Gives (setting : Setting) (frame : FrameId) (s : Session) (e : Expr) (value : Number) : Prop :=
  Eval.Eventually (setting.solve · e frame) s (.ok value) s

section Solve

variable {setting : Setting} {frame : FrameId} {s after : Session}

theorem eventually_solve {e : Expr} {result : Except RuntimeError Number}
    (step : Eval.Eventually (fun fuel => (setting.machineAt fuel).step setting.registry e frame) s
      result after) :
    Eval.Eventually (setting.solve · e frame) s result after := by
  obtain ⟨enough, cost, costs⟩ := step
  refine ⟨enough + 1, 1 + cost, fun fuel most => ?_⟩
  obtain ⟨fuel, rfl⟩ : ∃ k, fuel = k + 1 := ⟨fuel - 1, by omega⟩
  exact (Eval.costs_tick s).andThen (costs fuel (Nat.le_of_succ_le_succ most))

theorem gives_constant (value : Number) : setting.Gives frame s (.constant value) value :=
  eventually_solve (Eval.eventually_pure value s)

theorem gives_binary {op : ValueOp} {left right : Expr} {a b : Number} (first : setting.Gives frame s left a)
    (second : setting.Gives frame s right b) :
    setting.Gives frame s (.binary (.value op) left right) (op.apply a b) :=
  eventually_solve (first.andThen (second.map (op.apply a)))

theorem gives_unary {op : UnaryOp} {operand : Expr} {a : Number} (inner : setting.Gives frame s operand a) :
    setting.Gives frame s (.unary op operand) (op.apply a) :=
  eventually_solve (inner.map op.apply)

theorem gives_globalVar {name : String} {value : Number} (held : s.globals[Text.fold name]? = some value) :
    setting.Gives frame s (.globalVar name) value :=
  eventually_solve (Eval.Costs.eventually fun _ => Eval.costs_readVariable held)

theorem costs_readCell (m : Machine) {base : Expr} {y value : Number}
    (held : s.globals[Text.fold y.key]? = some value) :
    (m.readCell (.pointer base) y frame).Costs 1 s (.ok value) s := Eval.costs_readVariable held

theorem gives_pointer {address : Expr} {x value : Number} (gives : setting.Gives frame s address x)
    (held : s.globals[Text.fold x.key]? = some value) :
    setting.Gives frame s (.pointer address) value :=
  eventually_solve (gives.andThen (Eval.Costs.eventually fun fuel =>
    costs_readCell (setting.machineAt fuel) held))

theorem gives_localVar {name : String} {value : Number}
    (bound : s.lookup name frame = some (.value value)) :
    setting.Gives frame s (.localVar name) value :=
  eventually_solve (Eval.Costs.eventually fun _ =>
    (Eval.costs_require bound).andThen (Eval.costs_pure value s))

theorem gives_reference {name : String} {e : Expr} {origin : FrameId} {value : Number}
    (bound : s.lookup name frame = some (.reference e origin)) (gives : setting.Gives origin s e value) :
    setting.Gives frame s (.localVar name) value :=
  eventually_solve ((Eval.Costs.eventually fun _ => Eval.costs_require bound).andThen gives)

theorem step_call {name : String} {args : List Expr} {builtin : Builtin}
    (found : setting.registry.find? name = some builtin)
    (accepts : builtin.arity.accepts args.length = true) (m : Machine) :
    m.step setting.registry (.call name args) frame = builtin.handler m args frame := by
  change setting.registry.call m name args frame = _
  rw [Registry.call, found]
  exact if_pos accepts

theorem eventually_call {name : String} {args : List Expr} {builtin : Builtin}
    {result : Except RuntimeError Number} (found : setting.registry.find? name = some builtin)
    (accepts : builtin.arity.accepts args.length = true)
    (handled : Eval.Eventually (fun fuel => builtin.handler (setting.machineAt fuel) args frame) s
      result after) :
    Eval.Eventually (setting.solve · (.call name args) frame) s result after := by
  refine eventually_solve ?_
  simp only [step_call found accepts]
  exact handled

end Solve

end Calculator
