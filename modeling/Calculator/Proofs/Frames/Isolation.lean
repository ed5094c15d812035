import Calculator.Proofs.Frames.Shift

/-! Runs on two stacks that have nothing in common but the frames on top. What begins in a frame of its
own reaches those frames alone. -/

namespace Calculator

def Ground.apart (base base' : Array Frame) : Ground :=
  ⟨0, base, base', Nat.zero_le _, Nat.zero_le _⟩

namespace Session

def KeepsBase (base : Array Frame) (s : Session) : Prop :=
  ∀ id < base.size, s.frames[id]? = base[id]?

theorem KeepsFrom.keepsBase {base : Array Frame} {s : Session} (kept : s.KeepsFrom 0 base) :
    s.KeepsBase base :=
  fun id low => kept id (Nat.zero_le id) low

end Session

section Apart

variable {base base' : Array Frame} {k : Nat}

theorem Session.AlikeAbove.start (globals : Std.TreeMap String Number)
    (macros : Std.TreeMap String MacroDefinition) (console : Console) :
    AlikeAbove (.apart base base') 0 ⟨globals, macros, base, console⟩
      ⟨globals, macros, base', console⟩ where
  tables := ⟨rfl, rfl, rfl⟩
  kept _ _ _ := rfl
  kept' _ _ _ := rfl
  height := rfl
  height' := rfl
  common _ none := absurd none (Nat.not_lt_zero _)
  closed _ _ none := absurd none (Nat.not_lt_zero _)
  frames := frames_ground rfl rfl

theorem Session.AlikeAbove.frames_eq {s t : Session}
    (alike : AlikeAbove (.apart base base') 0 s t) : s.frames = base := by
  apply Array.ext_getElem?
  intro id
  by_cases low : id < base.size
  · exact alike.kept.keepsBase id low
  · have high : base.size ≤ id := Nat.le_of_not_lt low
    have height : s.frames.size = base.size := alike.height
    rw [Array.getElem?_eq_none (height ▸ high), Array.getElem?_eq_none high]

/-- What the evaluation of an expression does is the same on every stack, and leaves the stack as it
was. -/
def Setting.Isolates (setting : Setting) (expr : Expr) : Prop :=
  ∀ (globals : Std.TreeMap String Number) (macros : Std.TreeMap String MacroDefinition)
    (console : Console) (frames frames' : Array Frame) (id id' : FrameId) (fuel steps : Nat),
    let p := (setting.solve fuel expr id).run ⟨steps, ⟨globals, macros, frames, console⟩⟩
    let q := (setting.solve fuel expr id').run ⟨steps, ⟨globals, macros, frames', console⟩⟩
    p.1 = q.1 ∧ p.2.steps = q.2.steps ∧ p.2.session.SameTables q.2.session ∧
      p.2.session.KeepsBase frames ∧ (p.1 ≠ .exhausted → p.2.session.frames = frames)

theorem Setting.isolates_of_related {setting : Setting} {expr : Expr}
    (related : ∀ (base base' : Array Frame) (id id' : FrameId) (fuel : Nat),
      (shiftCorrespondence (.apart base base')).Related (0 : Nat) Eq (setting.solve fuel expr id)
        (setting.solve fuel expr id')) :
    setting.Isolates expr := by
  intro globals macros console frames frames' id id' fuel steps
  have outcome := (related frames frames' id id' fuel).lockstep rfl (.start globals macros console)
    steps
  dsimp only
  generalize (setting.solve fuel expr id).run _ = p at outcome ⊢
  generalize (setting.solve fuel expr id').run _ = q at outcome ⊢
  cases outcome with
  | value steps values alike =>
      exact ⟨congrArg Ending.value values, rfl, alike.tables, alike.kept.keepsBase,
        fun _ => alike.frames_eq⟩
  | fault steps faults alike =>
      exact ⟨congrArg Ending.fault faults, rfl, alike.tables, alike.kept.keepsBase,
        fun _ => alike.frames_eq⟩
  | exhausted steps reached =>
      exact ⟨rfl, rfl, reached.1, reached.2.1.keepsBase, fun ended => absurd rfl ended⟩
  | stopped granted => exact granted.elim

/-- The expressions that are evaluated in a frame of their own: text that is run, and macros without
arguments. -/
inductive Expr.RunsApart : Expr → Prop
  | exec {name : String} (folded : Text.fold name = "exec") (text : String) :
      RunsApart (.call name [.quote text])
  | macroRef (name : String) (definable : Bool) : RunsApart (.macroRef name [] definable)

theorem related_apart {expr : Expr} (apart : expr.RunsApart) (imply : Bool) (id id' : FrameId)
    (fuel : Nat) :
    (shiftCorrespondence (.apart base base')).Related k Eq ((Setting.mk .standard imply).solve fuel expr id)
      ((Setting.mk .standard imply).solve fuel expr id') := by
  cases fuel with
  | zero => exact .exhausted
  | succ fuel =>
      let setting : Setting := ⟨.standard, imply⟩
      let C := shiftCorrespondence (.apart base base')
      have serves : C.Serves setting.registry setting.registry := serves_shift _
      have machines := Correspondence.machines serves rfl (C.bounds_refl fuel)
      apply Correspondence.Related.step.andThenSame
      intro _
      cases apart with
      | exec folded text =>
          have found : Registry.standard.find? _ = some ⟨.exact 1, Builtin.exec⟩ :=
            Registry.find_standard (by simp [Builtin.standardTable, Builtin.programTable]) folded
          unfold Machine.step Registry.call
          dsimp only
          rw [found]
          exact machines.runText text
      | macroRef name definable =>
          exact machines.runMacro rfl (.of_closed rfl rfl rfl rfl rfl) .nil

/-- Neither the number of frames on the stack nor any local in them shows in a run of text or of a macro
without arguments, and none of them is changed. -/
theorem runs_apart_isolated {expr : Expr} (apart : expr.RunsApart) (imply : Bool) :
    (Setting.mk .standard imply).Isolates expr :=
  Setting.isolates_of_related fun _ _ => related_apart apart imply

theorem exec_isolated :
    Text.fold "EXEC" = "exec" ∧
      (Setting.mk .standard true).Isolates (.call "EXEC" [.quote "#x = 1"]) :=
  ⟨by decide +kernel, runs_apart_isolated (.exec (by decide +kernel) "#x = 1") true⟩

end Apart

end Calculator
