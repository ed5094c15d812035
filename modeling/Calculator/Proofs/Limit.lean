import Calculator.Proofs.Evaluating

/-! What evaluations come to when they are granted as many steps as they take.

Two evaluations of the same thing may take different numbers of steps. One follows the other if it comes
to a result wherever that one does. -/

namespace Calculator

variable {α β α' β' : Type}

def Ending.of : Except RuntimeError α → Ending α
  | .ok a => .value a
  | .error error => .fault error

theorem Ending.of_inj {result result' : Except RuntimeError α} (same : of result = of result') :
    result = result' := by
  cases result with
  | ok a =>
      cases result' with
      | ok b => rw [Ending.value.inj same]
      | error error => cases same
  | error error =>
      cases result' with
      | ok b => cases same
      | error error' => rw [Ending.fault.inj same]

instance [DecidableEq α] : DecidableEq (Ending α)
  | .value a, .value b => decidable_of_iff (a = b) ⟨congrArg _, Ending.value.inj⟩
  | .fault error, .fault error' => decidable_of_iff (error = error') ⟨congrArg _, Ending.fault.inj⟩
  | .exhausted, .exhausted => .isTrue rfl
  | .value _, .fault _ | .value _, .exhausted | .fault _, .value _ | .fault _, .exhausted | .exhausted, .value _
  | .exhausted, .fault _ => .isFalse nofun

inductive Results {ε : Type} (fault : ε → ε → Prop) (r : α → β → Prop) :
    Except ε α → Except ε β → Prop
  | value {a : α} {b : β} (values : r a b) : Results fault r (.ok a) (.ok b)
  | fault {error error' : ε} (faults : fault error error') :
      Results fault r (.error error) (.error error')

theorem results_eq {ε : Type} {result result' : Except ε α} :
    Results Eq Eq result result' ↔ result = result' := by
  constructor
  · intro results
    cases results with
    | value values => rw [values]
    | fault faults => rw [faults]
  · rintro rfl
    cases result with
    | ok value => exact .value rfl
    | error error => exact .fault rfl

namespace Eval

def Finishes (x : Eval α) (steps : Nat) (s : Session) (result : Except RuntimeError α)
    (after : Session) : Prop :=
  ∃ left, x.run ⟨steps, s⟩ = (.of result, ⟨left, after⟩)

/-- Every run that is granted enough steps comes to a result, and has left what it is granted beyond
them. -/
def Reaches (x : Eval α) (s : Session) (result : Except RuntimeError α) (after : Session) : Prop :=
  ∃ needed left, ∀ spare, x.run ⟨needed + spare, s⟩ = (.of result, ⟨left + spare, after⟩)

def Lasts (x : Eval α) : Prop :=
  ∀ steps s result left after, x.run ⟨steps, s⟩ = (.of result, ⟨left, after⟩) →
    ∀ spare, x.run ⟨steps + spare, s⟩ = (.of result, ⟨left + spare, after⟩)

structure Surely (x : Eval α) (s : Session) (a : α) (after : Session) : Prop where
  reaches : x.Reaches s (.ok a) after
  only {steps result other} : x.Finishes steps s result other → result = .ok a ∧ other = after

/-- Wherever the first evaluation comes to a result, the second one does, and the results and the
sessions belong together. -/
def Follows (fault : RuntimeError → RuntimeError → Prop) (now : Session → Session → Prop)
    (r : α → β → Prop) (x : Eval α) (s : Session) (y : Eval β) (t : Session) : Prop :=
  ∀ ⦃steps result after⦄, x.Finishes steps s result after →
    ∃ result' after', y.Reaches t result' after' ∧ Results fault r result result' ∧ now after after'

variable {x : Eval α} {s s' after : Session} {result : Except RuntimeError α}

theorem Reaches.finishes (reaches : x.Reaches s result after) :
    ∃ steps, x.Finishes steps s result after := by
  obtain ⟨needed, left, runs⟩ := reaches
  exact ⟨needed, left, runs 0⟩

theorem Lasts.reaches (lasts : x.Lasts) {steps : Nat} (finishes : x.Finishes steps s result after) :
    x.Reaches s result after := by
  obtain ⟨left, ran⟩ := finishes
  exact ⟨steps, left, lasts steps s result left after ran⟩

theorem reaches_pure (a : α) (s : Session) : (pure a : Eval α).Reaches s (.ok a) s :=
  ⟨0, 0, fun spare => by rw [run_pure]; rfl⟩

theorem reaches_throw (error : RuntimeError) (s : Session) :
    (throw error : Eval α).Reaches s (.error error) s :=
  ⟨0, 0, fun spare => by rw [run_throw]; rfl⟩

theorem surely_pure (a : α) (s : Session) : (pure a : Eval α).Surely s a s where
  reaches := reaches_pure a s
  only := by
    rintro steps result after ⟨left, ran⟩
    obtain ⟨results, runs⟩ := Prod.mk.inj ran
    exact ⟨Ending.of_inj results.symm, (congrArg Run.session runs).symm⟩

theorem surely_update (change : Session → α × Session) (s : Session) :
    (update change).Surely s (change s).1 (change s).2 where
  reaches := by
    refine ⟨1, 0, fun spare => ?_⟩
    rw [Nat.add_comm 1 spare, Nat.zero_add]
    rfl
  only := by
    rintro steps result after ⟨left, ran⟩
    cases steps with
    | zero => cases result <;> cases ran
    | succ steps =>
        obtain ⟨results, runs⟩ := Prod.mk.inj ran
        exact ⟨Ending.of_inj results.symm, (congrArg Run.session runs).symm⟩

theorem lasts_pure (a : α) : (pure a : Eval α).Lasts := by
  intro steps s result left after ran spare
  obtain ⟨results, runs⟩ := Prod.mk.inj ran
  cases runs
  rw [← results]
  rfl

theorem lasts_update (change : Session → α × Session) : (update change).Lasts := by
  intro steps s result left after ran spare
  cases steps with
  | zero => cases result <;> cases ran
  | succ steps =>
      obtain ⟨results, runs⟩ := Prod.mk.inj ran
      cases runs
      rw [← results, Nat.add_right_comm]
      rfl

theorem surely_tick (s : Session) : tick.Surely s () s :=
  surely_update (fun s => ((), s)) s

theorem surely_session (s : Session) : session.Surely s s s where
  reaches := ⟨0, 0, fun _ => rfl⟩
  only := by
    rintro steps result after ⟨left, ran⟩
    obtain ⟨results, runs⟩ := Prod.mk.inj ran
    exact ⟨Ending.of_inj results.symm, (congrArg Run.session runs).symm⟩

theorem Reaches.andThen {a : α} {f : α → Eval β} {result : Except RuntimeError β}
    (first : x.Reaches s (.ok a) s') (next : (f a).Reaches s' result after) :
    (x >>= f).Reaches s result after := by
  obtain ⟨needed, left, runs⟩ := first
  obtain ⟨needed', left', runs'⟩ := next
  refine ⟨needed + needed', left + left', fun spare => ?_⟩
  have second := runs' (left + spare)
  rw [run_bind, Nat.add_assoc, runs (needed' + spare)]
  change (f a).run ⟨left + (needed' + spare), s'⟩ = _
  rw [Nat.add_left_comm, second, Nat.add_left_comm, ← Nat.add_assoc]

theorem Reaches.fault {error : RuntimeError} {f : α → Eval β}
    (first : x.Reaches s (.error error) after) : (x >>= f).Reaches s (.error error) after := by
  obtain ⟨needed, left, runs⟩ := first
  refine ⟨needed, left, fun spare => ?_⟩
  rw [run_bind, runs spare]
  rfl

theorem Finishes.cases {steps : Nat} {f : α → Eval β} {result : Except RuntimeError β}
    (finishes : (x >>= f).Finishes steps s result after) :
    (∃ error, result = .error error ∧ x.Finishes steps s (.error error) after) ∨
      ∃ a left s', x.Finishes steps s (.ok a) s' ∧ (f a).Finishes left s' result after := by
  obtain ⟨left, ran⟩ := finishes
  rw [run_bind] at ran
  split at ran
  · rename_i a start first
    exact .inr ⟨a, start.steps, start.session, ⟨start.steps, first⟩, left, ran⟩
  · rename_i error start first
    cases result with
    | ok => cases ran
    | error =>
        cases ran
        exact .inl ⟨error, rfl, left, first⟩
  · cases result <;> cases ran

theorem Surely.andThen {a : α} {b : β} {f : α → Eval β} (first : x.Surely s a s')
    (next : (f a).Surely s' b after) : (x >>= f).Surely s b after where
  reaches := first.reaches.andThen next.reaches
  only := by
    intro steps result other finishes
    rcases finishes.cases with ⟨error, rfl, failed⟩ | ⟨c, left, middle, done, finishes⟩
    · cases (first.only failed).1
    · obtain ⟨same, rfl⟩ := first.only done
      cases same
      exact next.only finishes

theorem surely_require {name : String} {id : FrameId} {binding : Binding}
    (found : s.lookup name id = some binding) : (require name id).Surely s binding s := by
  apply (surely_session s).andThen
  rw [found]
  exact surely_pure binding s

theorem Reaches.inFrame {fr : Frame} {body : FrameId → Eval α}
    (reaches : (body s.frames.size).Reaches (s.push fr) result after) :
    (withFrame fr body).Reaches s result (after.cutTo s.frames.size) := by
  obtain ⟨needed, left, runs⟩ := reaches
  refine ⟨needed + 2, left, fun spare => ?_⟩
  have ran := runs (spare + 1)
  rw [Nat.add_assoc, Nat.add_comm 2 spare, ← Nat.add_assoc needed spare 2, run_withFrame]
  rw [← Nat.add_assoc] at ran
  change leave s.frames.size ((body s.frames.size).run ⟨needed + spare + 1, s.push fr⟩) = _
  rw [ran]
  cases result <;> rfl

theorem Finishes.ofFrame {steps : Nat} {fr : Frame} {body : FrameId → Eval α}
    (finishes : (withFrame fr body).Finishes steps s result after) :
    ∃ left last, (body s.frames.size).Finishes left (s.push fr) result last ∧
      after = last.cutTo s.frames.size := by
  obtain ⟨left, ran⟩ := finishes
  cases steps with
  | zero => cases result <;> cases ran
  | succ steps =>
      rw [run_withFrame] at ran
      generalize inner : (body s.frames.size).run ⟨steps, s.push fr⟩ = p at ran
      obtain ⟨ending, remaining, last⟩ := p
      cases ending with
      | exhausted => cases result <;> cases ran
      | value | fault =>
          cases remaining with
          | zero => cases result <;> cases ran
          | succ remaining =>
              cases result <;> cases ran
              exact ⟨steps, last, ⟨_, inner⟩, rfl⟩

namespace Follows

variable {fault : RuntimeError → RuntimeError → Prop} {now now' : Session → Session → Prop}
  {r : α → β → Prop} {q : α' → β' → Prop} {y : Eval β} {t t' : Session}

theorem mono {fault' : RuntimeError → RuntimeError → Prop} (follows : Follows fault now r x s y t)
    (faults : ∀ error error', fault error error' → fault' error error')
    (sessions : ∀ s t, now s t → now' s t) : Follows fault' now' r x s y t := by
  intro steps result after finishes
  obtain ⟨result', after', reaches, results, held⟩ := follows finishes
  refine ⟨result', after', reaches, ?_, sessions _ _ held⟩
  cases results with
  | value related => exact .value related
  | fault failed => exact .fault (faults _ _ failed)

theorem value {a : α} {b : β} (values : r a b) (held : now s t) :
    Follows fault now r (pure a) s (pure b) t := by
  rintro steps result after ⟨left, ran⟩
  cases result with
  | error => cases ran
  | ok =>
      cases ran
      exact ⟨.ok b, t, reaches_pure b t, .value values, held⟩

theorem throwing {error error' : RuntimeError} (faults : fault error error') (held : now s t) :
    Follows fault now r (throw error) s (throw error') t := by
  rintro steps result after ⟨left, ran⟩
  cases result with
  | ok => cases ran
  | error =>
      cases ran
      exact ⟨.error error', t, reaches_throw error' t, .fault faults, held⟩

theorem sure {a : α} {b : β} (first : x.Surely s a s') (second : y.Surely t b t') (values : r a b)
    (held : now s' t') : Follows fault now r x s y t := by
  intro steps result after finishes
  obtain ⟨rfl, rfl⟩ := first.only finishes
  exact ⟨.ok b, t', second.reaches, .value values, held⟩

theorem exhausted : Follows fault now r (outOfFuel : Eval α) s y t := by
  rintro steps result after ⟨left, ran⟩
  cases result <;> cases ran

theorem andThen {f : α → Eval α'} {g : β → Eval β'} (first : Follows fault now r x s y t)
    (next : ∀ a b s' t', r a b → now s' t' → Follows fault now' q (f a) s' (g b) t')
    (kept : ∀ s t, now s t → now' s t) : Follows fault now' q (x >>= f) s (y >>= g) t := by
  intro steps result after finishes
  rcases finishes.cases with ⟨error, rfl, failed⟩ | ⟨a, left, s', done, finishes⟩
  · obtain ⟨_, after', reaches, results, held⟩ := first failed
    cases results with
    | fault faults => exact ⟨_, after', reaches.fault, .fault faults, kept _ _ held⟩
  · obtain ⟨_, t', reaches, results, held⟩ := first done
    cases results with
    | value values =>
        obtain ⟨result', after', reached, results, last⟩ := next a _ s' t' values held finishes
        exact ⟨result', after', reaches.andThen reached, results, last⟩

theorem afterFirst {z : Eval α'} {c : α'} {f : α' → Eval α} (sure : z.Surely s c s')
    (follows : Follows fault now r (f c) s' y t) : Follows fault now r (z >>= f) s y t := by
  intro steps result after finishes
  rcases finishes.cases with ⟨error, rfl, failed⟩ | ⟨a, left, s', done, finishes⟩
  · cases (sure.only failed).1
  · obtain ⟨same, rfl⟩ := sure.only done
    cases same
    exact follows finishes

theorem afterSecond {z : Eval β'} {c : β'} {g : β' → Eval β} (sure : z.Surely t c t')
    (follows : Follows fault now r x s (g c) t') : Follows fault now r x s (z >>= g) t := by
  intro steps result after finishes
  obtain ⟨result', after', reaches, results, held⟩ := follows finishes
  exact ⟨result', after', sure.reaches.andThen reaches, results, held⟩

theorem firstInFrame {fr : Frame} {body : FrameId → Eval α}
    (follows : Follows fault now r (body s.frames.size) (s.push fr) y t)
    (cut : ∀ s' t', now s' t' → now' (s'.cutTo s.frames.size) t') :
    Follows fault now' r (withFrame fr body) s y t := by
  intro steps result after finishes
  obtain ⟨left, last, inner, rfl⟩ := finishes.ofFrame
  obtain ⟨result', after', reaches, results, held⟩ := follows inner
  exact ⟨result', after', reaches, results, cut _ _ held⟩

theorem secondInFrame {fr : Frame} {body : FrameId → Eval β}
    (follows : Follows fault now r x s (body t.frames.size) (t.push fr))
    (cut : ∀ s' t', now s' t' → now' s' (t'.cutTo t.frames.size)) :
    Follows fault now' r x s (withFrame fr body) t := by
  intro steps result after finishes
  obtain ⟨result', after', reaches, results, held⟩ := follows finishes
  exact ⟨result', _, reaches.inFrame, results, cut _ _ held⟩

end Follows

/-- With enough fuel and enough steps an evaluation comes to a result and leaves a session. -/
def Ends (x : (fuel : Nat) → Eval α) (s : Session) (result : Except RuntimeError α)
    (after : Session) : Prop :=
  ∃ fuel steps, (x fuel).Finishes steps s result after

theorem ends_of_run {x : Nat → Eval α} {fuel steps : Nat} {a : α}
    (ran : ((x fuel).run ⟨steps, s⟩).1 = .value a) :
    Ends x s (.ok a) ((x fuel).run ⟨steps, s⟩).2.session :=
  ⟨fuel, steps, _, Prod.ext ran rfl⟩

theorem Ends.followed {fault : RuntimeError → RuntimeError → Prop} {now : Session → Session → Prop}
    {r : α → β → Prop} {x : Nat → Eval α} {y : Nat → Eval β} {t : Session}
    (ends : Ends x s result after)
    (follows : ∀ n, ∃ k, Follows fault now r (x n) s (y k) t) :
    ∃ result' after', Ends y t result' after' ∧ Results fault r result result' ∧ now after after' := by
  obtain ⟨n, steps, finishes⟩ := ends
  obtain ⟨k, follows⟩ := follows n
  obtain ⟨result', after', reaches, results, held⟩ := follows finishes
  obtain ⟨steps', finishes'⟩ := reaches.finishes
  exact ⟨result', after', ⟨k, steps', finishes'⟩, results, held⟩

def following (fault : RuntimeError → RuntimeError → Prop) (now : Session → Session → Prop)
    (refl : ∀ error, fault error error) : Congruence where
  Rel r x y := ∀ s t, now s t → Follows fault now r x s y t
  Bounds := (· ≤ ·)
  value values _ _ held := .value values held
  fault error _ _ _ held := .throwing (refl error) held
  andThen first next s t held :=
    (first s t held).andThen (fun a b s' t' values held => next a b values s' t' held) fun _ _ => id
  bounds_succ le := by
    obtain ⟨k, rfl⟩ := Nat.exists_eq_add_of_lt le
    exact ⟨_, rfl, Nat.le_add_right ..⟩
  outOfFuel _ _ _ _ _ := .exhausted

end Eval

end Calculator
