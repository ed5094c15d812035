import Calculator.Proofs.Frames.Stack
import Calculator.Proofs.Limit

/-! Evaluations that are granted more fuel and more steps than others.

An evaluation that comes to a result comes to the same one with more of both. So there is one result, if
any, that an evaluation comes to. -/

namespace Calculator

namespace Correspondence

/-- The same sessions, names and expressions belong together, but the first run may stop early: the
second one may have more fuel and is granted further steps. -/
def lasting (C : Correspondence) (spare : Nat) : Correspondence :=
  { C with stops := True, spare := spare, spare_stops := .inr trivial }

variable {C : Correspondence} {w : C.World} {α β : Type} {r : α → β → Prop}

theorem bounds_lasting {spare n n' : Nat} (le : n ≤ n') : (C.lasting spare).Bounds n n' :=
  .inr ⟨trivial, le⟩

theorem Settles.lasting (settles : C.Settles) (spare : Nat) : (C.lasting spare).Settles := settles

theorem Related.ended {x : Eval α} {y : Eval β} {spare : Nat}
    (related : (C.lasting spare).Related w r x y) {s t : Session} (sessions : C.now w s t)
    {steps left : Nat} {result : Except RuntimeError α} {after : Session}
    (ran : x.run ⟨steps, s⟩ = (.of result, ⟨left, after⟩)) :
    ∃ result' after', y.run ⟨steps + spare, t⟩ = (.of result', ⟨left + spare, after'⟩) ∧
      Results C.fault r result result' ∧ C.now w after after' := by
  have outcome := related steps s t sessions
  rw [ran] at outcome
  change (C.lasting spare).Outcome w r _ (y.run ⟨steps + spare, t⟩) at outcome
  cases result with
  | ok a =>
      generalize y.run ⟨steps + spare, t⟩ = q at outcome ⊢
      cases outcome with
      | value _ values sessions => exact ⟨.ok _, _, rfl, .value values, sessions⟩
  | error error =>
      generalize y.run ⟨steps + spare, t⟩ = q at outcome ⊢
      cases outcome with
      | fault _ faults sessions => exact ⟨.error _, _, rfl, .fault faults, sessions⟩

theorem Related.follows {x : Eval α} {y : Eval β} (related : (C.lasting 0).Related w r x y)
    (lasts : y.Lasts) {s t : Session} (sessions : C.now w s t) :
    Eval.Follows C.fault (C.now w) r x s y t := by
  rintro steps result after ⟨left, ran⟩
  obtain ⟨result', after', ran', results, held⟩ := related.ended sessions ran
  exact ⟨result', after', lasts.reaches ⟨left, ran'⟩, results, held⟩

end Correspondence

theorem Eval.lasts_of_related {α : Type} {x : Eval α}
    (related : ∀ (spare : Nat) (stack : List Frame),
      (stackCorrespondence.lasting spare).Related stack Eq x x) : x.Lasts := by
  intro steps s result left after ran spare
  obtain ⟨result', after', ran', results, same, _⟩ :=
    (related spare s.skeleton).ended (C := stackCorrespondence) ⟨rfl, rfl⟩ ran
  rw [ran', results_eq.mp results, same]

section Standard

variable {setting : Setting} (standard : setting.registry = .standard)
include standard

theorem serves_lasting {C : Correspondence} (settles : C.Settles) (spare : Nat)
    (free : C.functions = none) : (C.lasting spare).Serves setting.registry setting.registry :=
  standard ▸ Correspondence.serves_standard (settles.lasting spare) fun _ there =>
    nomatch free.symm.trans there

theorem machines_lasting {C : Correspondence} (settles : C.Settles) (spare : Nat) {n k : Nat}
    (le : n ≤ k) (free : C.functions = none := by rfl) :
    (C.lasting spare).Machines (setting.machine n (setting.solve n))
      (setting.machine k (setting.solve k)) :=
  Correspondence.machines (serves_lasting standard settles spare free) rfl
    (Correspondence.bounds_lasting le)

theorem solve_lasts (fuel : Nat) (expr : Expr) (id : FrameId) : (setting.solve fuel expr id).Lasts :=
  Eval.lasts_of_related fun spare _ =>
    (machines_lasting standard settles_stack spare (Nat.le_refl fuel)).solve rfl rfl

end Standard

section Ends

variable {setting : Setting} (standard : setting.registry = .standard)
include standard

theorem solve_more {fuel more steps left : Nat} {expr : Expr} {id : FrameId} {s after : Session}
    {result : Except RuntimeError Number} (le : fuel ≤ more)
    (ran : (setting.solve fuel expr id).run ⟨steps, s⟩ = (.of result, ⟨left, after⟩)) (spare : Nat) :
    (setting.solve more expr id).run ⟨steps + spare, s⟩ = (.of result, ⟨left + spare, after⟩) := by
  have related : (stackCorrespondence.lasting spare).Related s.skeleton Eq
      (setting.solve fuel expr id) (setting.solve more expr id) :=
    (machines_lasting standard settles_stack spare le).solve rfl rfl
  obtain ⟨result', after', ran', results, same, _⟩ :=
    related.ended (C := stackCorrespondence) ⟨rfl, rfl⟩ ran
  rw [ran', results_eq.mp results, same]

theorem ends_unique {expr : Expr} {id : FrameId} {s after after' : Session}
    {result result' : Except RuntimeError Number}
    (ends : Eval.Ends (setting.solve · expr id) s result after)
    (ends' : Eval.Ends (setting.solve · expr id) s result' after') :
    result = result' ∧ after = after' := by
  obtain ⟨fuel, steps, left, ran⟩ := ends
  obtain ⟨fuel', steps', left', ran'⟩ := ends'
  have more := solve_more standard (Nat.le_max_left fuel fuel') ran steps'
  have more' := solve_more standard (Nat.le_max_right fuel fuel') ran' steps
  rw [Nat.add_comm steps' steps, more] at more'
  obtain ⟨results, runs⟩ := Prod.mk.inj more'
  exact ⟨Ending.of_inj results, congrArg Run.session runs⟩

end Ends

end Calculator
