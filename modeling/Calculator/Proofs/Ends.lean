import Calculator.Proofs.Correspondence.Lasting
import Calculator.Proofs.Costs

/-!
Where evaluations end that do one thing after another.

An evaluation that comes to the same result with more fuel and more steps has one result, if any. So one
thing after another comes to what the parts come to, each with as much fuel and as many steps as it
takes.
-/

namespace Calculator

namespace Eval

variable {α β : Type}

/-- With more fuel and more steps the evaluation comes to the same result. -/
def Grows (x : (fuel : Nat) → Eval α) : Prop :=
  ∀ ⦃fuel more⦄, fuel ≤ more → ∀ ⦃steps s result left after⦄,
    (x fuel).run ⟨steps, s⟩ = (.of result, ⟨left, after⟩) →
      ∀ spare, (x more).run ⟨steps + spare, s⟩ = (.of result, ⟨left + spare, after⟩)

variable {x : Nat → Eval α} {f : Nat → α → Eval β} {s mid after : Session}

theorem Lasts.grows {x : Eval α} (lasts : x.Lasts) : Grows fun _ => x :=
  fun _ _ _ steps s result left after ran => lasts steps s result left after ran

theorem grows_pure (a : α) : Grows fun _ => (pure a : Eval α) := (lasts_pure a).grows

theorem grows_update (change : Session → α × Session) : Grows fun _ => update change :=
  (lasts_update change).grows

theorem grows_readVariable (name : String) : Grows fun _ => readVariable name := grows_update _

theorem grows_setVariable (name : String) (value : Number) : Grows fun _ => setVariable name value :=
  grows_update _

theorem grows_throw (error : RuntimeError) : Grows fun _ => (throw error : Eval α) := by
  intro fuel more le steps s result left after ran spare
  cases result <;> cases ran
  rfl

theorem Grows.andThen (first : Grows x) (next : ∀ a, Grows (f · a)) :
    Grows fun fuel => x fuel >>= f fuel := by
  intro fuel more le steps s result left after ran spare
  rw [run_bind] at ran ⊢
  split at ran
  · rename_i a start done
    have done' := @first _ _ le _ _ (.ok a) _ _ done spare
    rw [done']
    exact next a le ran spare
  · rename_i error start failed
    have failed' := @first _ _ le _ _ (.error error) _ _ failed spare
    rw [failed']
    cases result with
    | ok => cases ran
    | error =>
        cases ran
        rfl
  · cases result <;> cases ran

theorem Grows.unique (grows : Grows x) {result result' : Except RuntimeError α} {after' : Session}
    (ends : Ends x s result after) (ends' : Ends x s result' after') :
    result = result' ∧ after = after' := by
  obtain ⟨fuel, steps, left, ran⟩ := ends
  obtain ⟨fuel', steps', left', ran'⟩ := ends'
  have more := grows (Nat.le_max_left fuel fuel') ran steps'
  have more' := grows (Nat.le_max_right fuel fuel') ran' steps
  rw [Nat.add_comm steps' steps, more] at more'
  obtain ⟨results, runs⟩ := Prod.mk.inj more'
  exact ⟨Ending.of_inj results, congrArg Run.session runs⟩

theorem ends_pure (a : α) (s : Session) : Ends (fun _ => pure a) s (.ok a) s :=
  (eventually_pure a s).ends

theorem ends_pure_iff {a : α} {result : Except RuntimeError α} :
    Ends (fun _ => pure a) s result after ↔ result = .ok a ∧ after = s := by
  constructor
  · rintro ⟨_, _, finishes⟩
    exact (surely_pure a s).only finishes
  · rintro ⟨rfl, rfl⟩
    exact ends_pure a after

theorem ends_update_iff {change : Session → α × Session} {result : Except RuntimeError α} :
    Ends (fun _ => update change) s result after ↔
      result = .ok (change s).1 ∧ after = (change s).2 := by
  constructor
  · rintro ⟨_, _, finishes⟩
    exact (surely_update change s).only finishes
  · rintro ⟨rfl, rfl⟩
    exact (Costs.eventually fun _ => costs_update change s).ends

variable {result : Except RuntimeError β}

theorem Ends.andThen {a : α} (first : Grows x) (next : Grows (f · a)) (done : Ends x s (.ok a) mid)
    (ends : Ends (f · a) mid result after) : Ends (fun fuel => x fuel >>= f fuel) s result after := by
  obtain ⟨fuel, steps, left, ran⟩ := done
  obtain ⟨fuel', steps', left', ran'⟩ := ends
  -- Each part is granted what the other one needs as well.
  have done := first (Nat.le_max_left fuel fuel') ran steps'
  have ended := next (Nat.le_max_right fuel fuel') ran' left
  refine ⟨max fuel fuel', steps + steps', left' + left, ?_⟩
  rw [run_bind, done]
  change (f _ a).run _ = _
  rw [Nat.add_comm left steps', ended]

theorem Ends.fault {error : RuntimeError} (failed : Ends x s (.error error) mid) :
    Ends (fun fuel => x fuel >>= f fuel) s (.error error) mid := by
  obtain ⟨fuel, steps, left, ran⟩ := failed
  refine ⟨fuel, steps, left, ?_⟩
  rw [run_bind, ran]
  rfl

/-- Where one thing after another ends: where the first one fails, or where the second one ends after the
first. -/
theorem ends_andThen_iff (first : Grows x) (next : ∀ a, Grows (f · a)) :
    Ends (fun fuel => x fuel >>= f fuel) s result after ↔
      (∃ error, result = .error error ∧ Ends x s (.error error) after) ∨
        ∃ a mid, Ends x s (.ok a) mid ∧ Ends (f · a) mid result after := by
  constructor
  · rintro ⟨fuel, steps, finishes⟩
    rcases finishes.cases with ⟨error, rfl, failed⟩ | ⟨a, left, mid, done, finishes⟩
    · exact .inl ⟨error, rfl, fuel, steps, failed⟩
    · exact .inr ⟨a, mid, ⟨fuel, steps, done⟩, fuel, left, finishes⟩
  · rintro (⟨error, rfl, failed⟩ | ⟨a, mid, done, ends⟩)
    · exact failed.fault
    · exact done.andThen first (next a) ends

theorem Ends.andThen_iff {a : α} (first : Grows x) (next : Grows (f · a)) (done : Ends x s (.ok a) mid) :
    Ends (fun fuel => x fuel >>= f fuel) s result after ↔ Ends (f · a) mid result after := by
  constructor
  · rintro ⟨fuel, steps, finishes⟩
    rcases finishes.cases with ⟨error, -, failed⟩ | ⟨b, left, mid', done', finishes⟩
    · cases (first.unique done ⟨fuel, steps, failed⟩).1
    · obtain ⟨same, rfl⟩ := first.unique done ⟨fuel, steps, done'⟩
      cases same
      exact ⟨fuel, left, finishes⟩
  · exact done.andThen first next

end Eval

section Expressions

variable {setting : Setting} {frame : FrameId} {s after : Session}
  {result : Except RuntimeError Number}

theorem ends_step_iff {e : Expr} :
    Eval.Ends (setting.solve · e frame) s result after ↔
      Eval.Ends (fun fuel => (setting.machineAt fuel).step setting.registry e frame) s result after := by
  constructor
  · rintro ⟨fuel, steps, finishes⟩
    cases fuel with
    | zero =>
        obtain ⟨left, ran⟩ := finishes
        cases result <;> cases ran
    | succ fuel =>
        rcases finishes.cases with ⟨error, -, failed⟩ | ⟨_, left, mid, ticked, rest⟩
        · cases ((Eval.surely_tick s).only failed).1
        · obtain ⟨-, rfl⟩ := (Eval.surely_tick s).only ticked
          exact ⟨fuel, left, rest⟩
  · rintro ⟨fuel, steps, left, ran⟩
    refine ⟨fuel + 1, steps + 1, left, ?_⟩
    exact ran

theorem ends_handler_iff {name : String} {args : List Expr} {builtin : Builtin}
    (found : setting.registry.find? name = some builtin)
    (accepts : builtin.arity.accepts args.length = true) :
    Eval.Ends (setting.solve · (.call name args) frame) s result after ↔
      Eval.Ends (fun fuel => builtin.handler (setting.machineAt fuel) args frame) s result after := by
  rw [ends_step_iff]
  simp only [step_call found accepts]

variable (standard : setting.registry = .standard)
include standard

theorem grows_solve (e : Expr) (frame : FrameId) : Eval.Grows (setting.solve · e frame) :=
  fun _ _ le _ _ _ _ _ ran spare => solve_more standard le ran spare

theorem grows_of_related {α : Type} {x : Machine → Eval α}
    (related : ∀ (spare : Nat) (stack : List Frame) (m m' : Machine),
      (stackCorrespondence.lasting spare).Machines m m' →
        (stackCorrespondence.lasting spare).Related stack Eq (x m) (x m')) :
    Eval.Grows fun fuel => x (setting.machineAt fuel) := by
  intro fuel more le steps s result left after ran spare
  obtain ⟨result', after', ran', results, same, _⟩ :=
    (related spare s.skeleton _ _ (machines_lasting standard settles_stack spare le)).ended
      (C := stackCorrespondence) ⟨rfl, rfl⟩ ran
  rw [ran', results_eq.mp results, same]

end Expressions

end Calculator
