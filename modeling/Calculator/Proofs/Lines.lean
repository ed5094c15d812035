import Calculator.Engine
import Calculator.Proofs.Limit

/-! What running a line comes to. -/

namespace Calculator

namespace Engine

variable {engine after : Engine} {fuel : Nat}

theorem evaluate_eq_some {root : Expr} {result : Except RuntimeError Number} :
    engine.evaluate fuel root = some (result, after) ↔
      engine.evaluateWithin fuel fuel root = (.of result, after) := by
  unfold evaluate
  generalize engine.evaluateWithin fuel fuel root = p
  obtain ⟨ending, next⟩ := p
  cases ending with
  | value value => cases result <;> simp [Ending.of]
  | fault fault => cases result <;> simp [Ending.of]
  | exhausted => cases result <;> simp [Ending.of]

/-- The results that a line may have, each with the engine that it leaves behind. -/
inductive Ran (engine : Engine) (fuel : Nat) (text : String) (record : Bool) :
    Except Error (Number × Bool) → Engine → Prop
  | malformed {fault : Error}
      (reads : Parsed.ofText engine.vocabulary engine.options.imply text = .error fault) :
      Ran engine fuel text record (.error fault) engine
  | empty {implied : Bool}
      (reads : Parsed.ofText engine.vocabulary engine.options.imply text = .ok ⟨none, implied⟩) :
      Ran engine fuel text record (.ok (.zero, false)) engine
  | fault {root : Expr} {implied : Bool} {fault : RuntimeError} {after : Engine}
      (reads : Parsed.ofText engine.vocabulary engine.options.imply text = .ok ⟨some root, implied⟩)
      (ended : engine.evaluate fuel root = some (.error fault, after)) :
      Ran engine fuel text record (.error (.runtime fault)) after
  | value {root : Expr} {implied : Bool} {value : Number} {after : Engine}
      (reads : Parsed.ofText engine.vocabulary engine.options.imply text = .ok ⟨some root, implied⟩)
      (ended : engine.evaluate fuel root = some (.ok value, after)) :
      Ran engine fuel text record (.ok (value, implied))
        (if record then after.mapSession (·.setVariable Parsed.answer value) else after)

variable {text : String} {record : Bool} {result : Except Error (Number × Bool)}

theorem run_ran (ran : engine.run fuel text record = some (result, after)) :
    engine.Ran fuel text record result after := by
  unfold run at ran
  split at ran
  · rename_i reads
    cases ran
    exact .malformed reads
  · rename_i parsed reads
    obtain ⟨root, implied⟩ := parsed
    cases root with
    | none =>
        cases ran
        exact .empty reads
    | some root =>
        obtain ⟨⟨ending, next⟩, ended, ran⟩ := Option.map_eq_some_iff.mp ran
        cases ending with
        | error fault =>
            cases ran
            exact .fault reads ended
        | ok value =>
            cases ran
            exact .value reads ended

theorem Ran.kept {P : Engine → Prop} (ran : engine.Ran fuel text record result after)
    (before : P engine)
    (evaluated : ∀ root result after, engine.evaluate fuel root = some (result, after) → P after)
    (recorded : ∀ after value, P after → P (after.mapSession (·.setVariable Parsed.answer value))) :
    P after := by
  cases ran with
  | malformed => exact before
  | empty => exact before
  | fault reads ended => exact evaluated _ _ _ ended
  | value reads ended =>
      split
      · exact recorded _ _ (evaluated _ _ _ ended)
      · exact evaluated _ _ _ ended

end Engine

end Calculator
