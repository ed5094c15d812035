import Calculator.Proofs.Calls.Frame

/-! Macros are called by name. Where a macro's body only computes, calling the macro is evaluating its
body, in the frame of the call, with the arguments in place of their aliases. -/

namespace Calculator

section Call

variable {setting : Setting} (standard : setting.registry = .standard) {s : Session} {fr : Frame}
  {id : FrameId} (live : id < s.frames.size) {aliases : List String} {args : List Expr}

/-- A frame where each alias stands for its argument, to be evaluated in a frame below. -/
def Frame.Aliases (fr : Frame) (aliases : List String) (args : List Expr) (id : FrameId) : Prop :=
  ∀ name, Text.fold name ∈ aliases.map Text.fold →
    ∃ arg, inPlaceOf aliases args name = some arg ∧
      fr.locals[Text.fold name]? = some (.reference arg id)

variable (bound : fr.Aliases aliases args id)
include standard live bound

theorem substituted_simulates :
    Expr.Simulates ((Ground.under s fr).following Eq.refl) setting
      (Text.fold · ∈ aliases.map Text.fold) (fun _ => none) (inPlaceOf aliases args) s.frames.size
      id := by
  let g := Ground.under s fr
  have low : id < g.shared := live
  refine g.simulates _ (fun {name} read {n k} less s' t' now => ?_)
    (fun {name} read {n k} less s' t' now => ?_)
  all_goals
    obtain ⟨arg, inPlace, here⟩ := bound name read
    have found := Session.lookup_here now.top here
    rw [Expr.substitute, Expr.substitute, inPlace]
  · cases n with
    | zero => exact .exhausted
    | succ n =>
        apply firstReads found
        exact g.follows_solve Eq.refl standard low (Nat.le_of_succ_le (Nat.le_of_lt less)) _ _ now
  · apply firstTakes found
    exact g.taken_follows_solve Eq.refl standard low (Nat.le_of_lt less) _ _ now

theorem aliases_simulate :
    Expr.Simulates ((Ground.under s fr).flip.following Eq.refl) setting
      (Text.fold · ∈ aliases.map Text.fold) (inPlaceOf aliases args) (fun _ => none) id
      s.frames.size := by
  let g := (Ground.under s fr).flip
  have low : id < g.shared := live
  refine g.simulates _ (fun {name} read {n k} less s' t' now => ?_)
    (fun {name} read {n k} less s' t' now => ?_)
  all_goals
    obtain ⟨arg, inPlace, here⟩ := bound name read
    have found := Session.lookup_here (Ground.Now.flip now).top here
    rw [Expr.substitute, Expr.substitute, inPlace]
  · obtain ⟨k, rfl⟩ := Nat.exists_eq_succ_of_ne_zero (Nat.ne_zero_of_lt less)
    apply secondReads found
    exact g.follows_solve Eq.refl standard low (Nat.le_of_lt_succ less) _ _ now
  · apply secondTakes found
    exact g.solve_follows_taken Eq.refl standard low less _ _ now

end Call

/-- A macro with a body that only computes and reads no other locals than the arguments, by names that
are no positions and that differ in more than the case of letters. -/
structure MacroDefinition.Computes (definition : MacroDefinition) : Prop where
  distinct : (definition.aliases.map Text.fold).Nodup
  named : ∀ name ∈ definition.aliases, ¬Positional definition.aliases.length name
  body : definition.body.Computes (Text.fold · ∈ definition.aliases.map Text.fold)

section Call

variable {definition : MacroDefinition} (computes : definition.Computes) {args : List Expr}
  (lengths : args.length = definition.aliases.length)
include computes lengths

theorem aliases_ofMacro (name : String) (id : FrameId) :
    ((Frame.ofMacro name id).withArguments 0 (args.map (Binding.reference · id))
      definition.aliases).Aliases definition.aliases args id := by
  intro read mem
  obtain ⟨arg, _, inPlace⟩ := inPlaceOf_some mem lengths
  obtain ⟨other, others, same⟩ := List.mem_map.mp mem
  have named : ¬Positional (0 + (args.map (Binding.reference · id)).length) read := by
    rw [Nat.zero_add, List.length_map, lengths]
    rintro ⟨i, low, position⟩
    exact computes.named other others ⟨i, low, same.trans position⟩
  refine ⟨arg, inPlace, ?_⟩
  rw [Frame.locals_withArguments computes.distinct named, inPlaceOf_map, inPlace]
  rfl

variable {setting : Setting} (standard : setting.registry = .standard) {s : Session}
  (stacked : s.WellStacked) {id : FrameId} (live : id < s.frames.size) {name : String}
  (defined : s.macro? name = some definition) (definable : Bool) {n k : Nat} (less : n < k)
include standard stacked live defined less

theorem call_followed_by_body :
    Eval.Follows Eq Eq Eq (setting.solve (n + 1) (.macroRef name args definable) id) s
      (setting.solve k (definition.body.substitute (inPlaceOf definition.aliases args)) id) s := by
  let fr := (Frame.ofMacro name id).withArguments 0 (args.map (Binding.reference · id))
    definition.aliases
  have bodies := (substituted_simulates standard live (aliases_ofMacro computes lengths name id)).solve
    standard less computes.body _ _ (Ground.now_push stacked fr)
  rw [computes.body.substitute_none] at bodies
  have inside := bodies.afterFirst (f := fun _ => setting.solve n definition.body s.frames.size)
    (surely_bindArguments s (.ofMacro name id) 0 (args.map (Binding.reference · id)) definition.aliases)
  apply Eval.Follows.afterFirst (Eval.surely_tick s)
  apply Eval.Follows.afterFirst (Eval.surely_session s)
  rw [defined]
  exact inside.firstInFrame fun _ _ now => now.cutTo_eq

theorem body_followed_by_call :
    Eval.Follows Eq Eq Eq
      (setting.solve n (definition.body.substitute (inPlaceOf definition.aliases args)) id) s
      (setting.solve (k + 1) (.macroRef name args definable) id) s := by
  let fr := (Frame.ofMacro name id).withArguments 0 (args.map (Binding.reference · id))
    definition.aliases
  have bodies := (aliases_simulate standard live (aliases_ofMacro computes lengths name id)).solve
    standard less computes.body _ _ (Ground.now_push stacked fr).flip
  rw [computes.body.substitute_none] at bodies
  have inside := bodies.afterSecond (g := fun _ => setting.solve k definition.body s.frames.size)
    (surely_bindArguments s (.ofMacro name id) 0 (args.map (Binding.reference · id)) definition.aliases)
  apply Eval.Follows.afterSecond (Eval.surely_tick s)
  apply Eval.Follows.afterSecond (Eval.surely_session s)
  rw [defined]
  exact inside.secondInFrame fun _ _ now => now.flip.cutTo_eq.symm

end Call

/-- Calling a macro by name is evaluating its body with the arguments in place of their aliases: the one
comes to a result exactly where the other does, with the same result, and leaves the same session. -/
theorem call_by_name (imply : Bool) {s : Session} (stacked : s.WellStacked) {id : FrameId}
    (live : id < s.frames.size) {name : String} {definition : MacroDefinition}
    (defined : s.macro? name = some definition) (computes : definition.Computes) {args : List Expr}
    (lengths : args.length = definition.aliases.length) (definable : Bool)
    (result : Except RuntimeError Number) (after : Session) :
    let setting : Setting := ⟨.standard, imply⟩
    Eval.Ends (setting.solve · (.macroRef name args definable) id) s result after ↔
      Eval.Ends
        (setting.solve · (definition.body.substitute (inPlaceOf definition.aliases args)) id) s
        result after := by
  intro setting
  have standard : setting.registry = .standard := rfl
  constructor
  · intro ends
    have follows : ∀ n, ∃ k, Eval.Follows Eq Eq Eq
        (setting.solve n (.macroRef name args definable) id) s
        (setting.solve k (definition.body.substitute (inPlaceOf definition.aliases args)) id) s := by
      intro n
      cases n with
      | zero => exact ⟨0, .exhausted⟩
      | succ n =>
          exact ⟨n + 1, call_followed_by_body computes lengths standard stacked live defined definable
            (Nat.lt_succ_self n)⟩
    obtain ⟨result', after', ends', results, same⟩ := ends.followed follows
    rwa [results_eq.mp results, same]
  · intro ends
    have follows : ∀ n, ∃ k, Eval.Follows Eq Eq Eq
        (setting.solve n (definition.body.substitute (inPlaceOf definition.aliases args)) id) s
        (setting.solve k (.macroRef name args definable) id) s :=
      fun n => ⟨n + 2, body_followed_by_call computes lengths standard stacked live defined definable
        (Nat.lt_succ_self n)⟩
    obtain ⟨result', after', ends', results, same⟩ := ends.followed follows
    rwa [results_eq.mp results, same]

/-- A macro that is one argument twice assigns twice when its argument is an assignment. -/
theorem call_by_name_twice :
    let body : Expr := .binary .sequence (.localVar "x") (.localVar "X")
    let one : Expr := .assign (.globalVar "n") (.constant .one)
    let s : Session :=
      ⟨∅, (∅ : Std.TreeMap String MacroDefinition).insert "twice" ⟨body, ["x"]⟩, #[.main],
        .withInput .buffer []⟩
    let setting : Setting := ⟨.standard, true⟩
    s.macro? "Twice" = some ⟨body, ["x"]⟩ ∧
      Eval.Ends (setting.solve · (.macroRef "Twice" [one] false) 0) s (.ok .one)
        ((s.setVariable "n" .one).setVariable "n" .one) := by
  intro body one s setting
  have twice : Text.fold "Twice" = "twice" := by decide +kernel
  have same : Text.fold "X" = Text.fold "x" := by decide +kernel
  have defined : s.macro? "Twice" = some ⟨body, ["x"]⟩ := by
    rw [Session.macro?, twice]
    exact Std.TreeMap.getElem?_insert_self
  have computes : MacroDefinition.Computes ⟨body, ["x"]⟩ := by
    refine ⟨List.pairwise_singleton .., fun name mem => ?_, ?_⟩
    · obtain rfl := List.mem_singleton.mp mem
      rintro ⟨i, low, position⟩
      obtain rfl := Nat.lt_one_iff.mp low
      exact absurd position (by decide +kernel)
    · exact .binary .sequence (.localVar (.head _)) (.localVar (List.mem_singleton.mpr same))
  have stacked : s.WellStacked := Session.wellStacked_main _ _ _
  refine ⟨defined, ?_⟩
  refine (call_by_name true stacked Nat.zero_lt_one defined computes rfl false _ _).mpr ?_
  have inPlace : inPlaceOf ["x"] [one] "X" = some one := if_pos same.symm
  have inPlace' : inPlaceOf ["x"] [one] "x" = some one := if_pos rfl
  have substituted : body.substitute (inPlaceOf ["x"] [one]) = .binary .sequence one one := by
    simp only [body, Expr.substitute, inPlace, inPlace', Option.getD_some]
  change Eval.Ends (setting.solve · (body.substitute (inPlaceOf ["x"] [one])) 0) s _ _
  rw [substituted]
  exact ⟨3, 7, 0, rfl⟩

end Calculator
