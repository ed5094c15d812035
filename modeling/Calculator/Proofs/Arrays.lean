import Calculator.Proofs.Arrays.Calls
import Calculator.Proofs.Frames
import Calculator.Proofs.Lines
import Calculator.Proofs.Registry

/-!
Arrays as lists.

The functions on arrays implement lists over the cells of the global store. As long as calls use arrays
that are there, and addresses and lengths are exact, what calls come to and what the arrays hold
afterwards is what a model says that knows of lists only. In the model a list whose cells are overwritten
is there no longer.
-/

namespace Calculator

open Number Session CellArray

theorem Registry.knowsArrays_standard : Registry.standard.KnowsArrays := by
  intro name builtin mem
  refine get_standard ?_
  simp only [Builtin.standardTable, List.mem_append, mem, true_or, or_true]

namespace Session

variable {s t u : Session}

structure Varies (s t : Session) : Prop where
  named {name : String} : Named name → Text.fold name ≠ Text.fold Parsed.answer →
    t.globals[Text.fold name]? = s.globals[Text.fold name]?
  rest : t = { s with globals := t.globals }

theorem Varies.refl (s : Session) : s.Varies s := ⟨fun _ _ => rfl, rfl⟩

theorem Varies.trans (first : s.Varies t) (second : t.Varies u) : s.Varies u where
  named letter other := (second.named letter other).trans (first.named letter other)
  rest := by rw [second.rest, first.rest]

theorem Varies.push (varies : s.Varies t) (fr : Frame) : (s.push fr).Varies (t.push fr) where
  named := varies.named
  rest := by
    rw [varies.rest]
    rfl

theorem Keeps.varies {changed : Int → Prop} (keeps : s.Keeps t changed) : s.Varies t :=
  ⟨fun letter _ => keeps.named letter, keeps.rest⟩

theorem varies_answered (s : Session) (value : Number) : s.Varies (s.setVariable Parsed.answer value) where
  named _ other := by
    rw [setVariable, Std.TreeMap.getElem?_insert, if_neg]
    rw [Std.LawfulEqCmp.compare_eq_iff_eq]
    exact other.symm
  rest := rfl

def plainValue? (s : Session) : Expr → Option Number
  | .constant value => some value
  | .globalVar name =>
    if Named name ∧ Text.fold name ≠ Text.fold Parsed.answer then s.globals[Text.fold name]? else none
  | .binary (.value op) left right => do return op.apply (← s.plainValue? left) (← s.plainValue? right)
  | .unary op operand => (s.plainValue? operand).map op.apply
  | _ => none

end Session

namespace Engine

variable {engine : Engine} {lists : Lists}

def Gives (engine : Engine) (e : Expr) (value : Number) : Prop :=
  ∀ t, (engine.session.push .main).Varies t →
    engine.setting.Gives engine.session.frames.size t e value

theorem gives_of_plainValue {e : Expr} {value : Number}
    (plain : engine.session.plainValue? e = some value) : engine.Gives e value := by
  intro t varies
  fun_induction Session.plainValue? engine.session e generalizing value with
  | case1 v =>
      cases plain
      exact gives_constant v
  | case2 name letter => exact gives_globalVar ((varies.named letter.1 letter.2).trans plain)
  | case3 => cases plain
  | case4 op left right ihLeft ihRight =>
      obtain ⟨a, first, plain⟩ := Option.bind_eq_some_iff.mp plain
      obtain ⟨b, second, plain⟩ := Option.bind_eq_some_iff.mp plain
      cases plain
      exact gives_binary (ihLeft first) (ihRight second)
  | case5 op operand ih =>
      obtain ⟨a, inner, rfl⟩ := Option.map_eq_some_iff.mp plain
      exact gives_unary (ih inner)
  | case6 => cases plain

def withGlobals (engine : Engine) (globals : Std.TreeMap String Number) : Engine :=
  engine.mapSession ({ · with globals })

theorem Gives.varies {globals : Std.TreeMap String Number} {e : Expr} {value : Number}
    (gives : engine.Gives e value)
    (varies : engine.session.Varies (engine.withGlobals globals).session) :
    (engine.withGlobals globals).Gives e value :=
  fun t later => gives t ((varies.push .main).trans later)

end Engine

def Lists.AllowsAll : Lists → List ArrayCall → Prop
  | _, [] => True
  | lists, call :: calls => lists.Allows call ∧ AllowsAll (lists.step call).2 calls

/-- A line that calls a function on arrays. -/
structure ArrayLine where
  text : String
  record : Bool
  call : ArrayCall

namespace ArrayLine

def Reads (line : ArrayLine) (engine : Engine) : Prop :=
  ∃ name args, Parsed.ofText engine.vocabulary engine.options.imply line.text =
      .ok ⟨some (.call name args), false⟩ ∧
    line.call.Spelled engine.Gives name args

def outcome (line : ArrayLine) (lists : Lists) : Except Error (Number × Bool) :=
  match (lists.step line.call).1 with
  | .ok value => .ok (value, false)
  | .error error => .error (.runtime error)

end ArrayLine

namespace Engine

variable {engine : Engine} {lists : Lists}

/-- The arrays of the engine are the lists. -/
def ReadsAs (engine : Engine) (lists : Lists) : Prop :=
  ∀ a values, lists a = some values → ∀ x : Number, x.IsInt a →
    ∃ enough, ∀ fuel, enough ≤ fuel → engine.readArray fuel x = some (values, engine)

/-- The lines come to what the model says, one after the other, and after each of them the arrays are the
lists of the model. -/
inductive Implements : Engine → Lists → List ArrayLine → Prop
  | done {engine : Engine} {lists : Lists} : Implements engine lists []
  | line {engine after : Engine} {lists : Lists} {line : ArrayLine} {lines : List ArrayLine}
      (ran : ∃ enough, ∀ fuel, enough ≤ fuel →
        engine.run fuel line.text line.record = some (line.outcome lists, after))
      (arrays : after.ReadsAs (lists.step line.call).2)
      (others : Implements after (lists.step line.call).2 lines) : Implements engine lists (line :: lines)

theorem eventually_inMainFrame (engine : Engine) {α : Type} {x : Nat → FrameId → Eval α}
    {result : Except RuntimeError α} {t : Session}
    (comes : Eval.Eventually (x · engine.session.frames.size) (engine.session.push .main) result t)
    (rest : t = { engine.session.push .main with globals := t.globals }) :
    ∃ enough, ∀ fuel, enough ≤ fuel →
      engine.inMainFrame fuel (x fuel) = (.of result, engine.withGlobals t.globals) := by
  obtain ⟨enough, cost, costs⟩ := comes
  refine ⟨max enough (cost + 2), fun fuel most => ?_⟩
  obtain ⟨spare, rfl⟩ := Nat.exists_eq_add_of_le (Nat.le_trans (Nat.le_max_right _ _) most)
  have framed := (costs _ (Nat.le_trans (Nat.le_max_left _ _) most)).inFrame spare
  have cut : t.cutTo engine.session.frames.size = { engine.session with globals := t.globals } := by
    rw [rest]
    exact cutTo_push { engine.session with globals := t.globals } .main
  rw [cut] at framed
  unfold inMainFrame
  unfold Eval.run at framed
  rw [framed]
  rfl

theorem readsAs_of_holds (holds : engine.session.Holds lists) : engine.ReadsAs lists := by
  intro a values found x whole
  have array := (holds.congr rfl : (engine.session.push .main).Holds lists) a values found
  obtain ⟨enough, reads⟩ := eventually_inMainFrame engine
    (x := fun fuel => toList (engine.setting.machineAt fuel) (.pointer (.constant x)))
    (eventually_toList (gives_constant x) whole array) rfl
  refine ⟨enough, fun fuel most => ?_⟩
  unfold readArray
  simp only [reads fuel most]
  rfl

theorem line_ran {line : ArrayLine} (knows : engine.registry.KnowsArrays)
    (holds : engine.session.Holds lists) (reads : line.Reads engine) (allows : lists.Allows line.call) :
    ∃ globals, (∃ enough, ∀ fuel, enough ≤ fuel → engine.run fuel line.text line.record =
        some (line.outcome lists, engine.withGlobals globals)) ∧
      (engine.withGlobals globals).session.Holds (lists.step line.call).2 ∧
      engine.session.Varies (engine.withGlobals globals).session := by
  obtain ⟨name, args, reads, spelled⟩ := reads
  have pushed : (engine.session.push .main).Holds lists := holds.congr rfl
  obtain ⟨t, comes, held, keeps⟩ := done_call pushed knows allows
    (spelled.mono fun _ _ gives => gives _ (.refl _))
  obtain ⟨enough, evaluates⟩ := eventually_inMainFrame engine (x := fun fuel => engine.setting.solve fuel _)
    comes keeps.rest
  have evaluated {fuel : Nat} (most : enough ≤ fuel) : engine.evaluate fuel (.call name args) =
      some ((lists.step line.call).1, engine.withGlobals t.globals) :=
    evaluate_eq_some.mpr (evaluates fuel most)
  have varies : engine.session.Varies (engine.withGlobals t.globals).session := ⟨keeps.varies.named, rfl⟩
  cases result : (lists.step line.call).1 with
  | error error =>
      refine ⟨t.globals, ⟨enough, fun fuel most => ?_⟩, held.congr rfl, varies⟩
      simp only [run, reads, evaluated most, result, ArrayLine.outcome]
      rfl
  | ok value =>
      cases recorded : line.record with
      | false =>
          refine ⟨t.globals, ⟨enough, fun fuel most => ?_⟩, held.congr rfl, varies⟩
          simp only [run, reads, evaluated most, result, ArrayLine.outcome]
          rfl
      | true =>
          refine ⟨t.globals.insert (Text.fold Parsed.answer) value, ⟨enough, fun fuel most => ?_⟩,
            (held.answered value).congr rfl, varies.trans (varies_answered _ value)⟩
          simp only [run, reads, evaluated most, result, ArrayLine.outcome]
          rfl

theorem implements_of_holds {lines : List ArrayLine} (knows : engine.registry.KnowsArrays)
    (holds : engine.session.Holds lists) (reads : ∀ line ∈ lines, line.Reads engine)
    (allowed : lists.AllowsAll (lines.map ArrayLine.call)) : engine.Implements lists lines := by
  induction lines generalizing engine lists with
  | nil => exact .done
  | cons line lines ih =>
      obtain ⟨allows, allowed⟩ := allowed
      obtain ⟨globals, ran, holds, varies⟩ := line_ran knows holds (reads line (.head _)) allows
      refine .line ran (readsAs_of_holds holds) (@ih (engine.withGlobals globals) _ knows holds ?_ allowed)
      -- Later lines read as they did at first.
      intro line mem
      obtain ⟨name, args, parsed, spelled⟩ := reads line (.tail _ mem)
      exact ⟨name, args, parsed, spelled.mono fun _ _ gives => gives.varies varies⟩

def isPlain (engine : Engine) : ArrayArgument → Expr → Bool
  | .array a, .pointer base => engine.session.plainValue? base == some a.number
  | .array _, _ => false
  | .value v, arg => engine.session.plainValue? arg == some v

theorem spelled_of_isPlain {argument : ArrayArgument} {arg : Expr}
    (plain : engine.isPlain argument arg = true) : argument.Spelled engine.Gives arg := by
  unfold isPlain at plain
  split at plain
  · exact ⟨_, rfl, gives_of_plainValue (beq_iff_eq.mp plain)⟩
  · cases plain
  · exact gives_of_plainValue (beq_iff_eq.mp plain)

def readsPlainly (engine : Engine) (line : ArrayLine) : Bool :=
  match Parsed.ofText engine.vocabulary engine.options.imply line.text with
  | .ok ⟨some (.call name args), false⟩ => Text.fold name == line.call.name &&
    decide (List.Forall₂ (fun argument arg => engine.isPlain argument arg = true) line.call.arguments args)
  | _ => false

theorem reads_of_readsPlainly {line : ArrayLine} (plainly : engine.readsPlainly line = true) :
    line.Reads engine := by
  unfold readsPlainly at plainly
  split at plainly
  · rename_i name args parsed
    obtain ⟨named, plain⟩ := Bool.and_eq_true_iff.mp plainly
    have plain := of_decide_eq_true plain
    refine ⟨name, args, parsed, .full (beq_iff_eq.mp named) ?_ (plain.imp fun _ _ => spelled_of_isPlain)⟩
    -- A quote has no plain value.
    rintro - text quoted
    obtain ⟨first, rfl⟩ : ∃ first, args = [first, .quote text] := by
      cases args with
      | nil => cases quoted
      | cons first rest => exact ⟨first, by rw [← quoted]; rfl⟩
    obtain ⟨_, _, -, plain, -⟩ := List.forall₂_cons_right_iff.mp plain
    obtain ⟨argument, _, quote, -⟩ := List.forall₂_cons_right_iff.mp plain
    cases argument <;> cases quote
  · cases plainly

/-- Over any sequence of calls the arrays are the lists of the model. -/
theorem arrays_implement_lists (engine : Engine) (knows : engine.registry.KnowsArrays)
    (lines : List ArrayLine) (reads : ∀ line ∈ lines, line.Reads engine)
    (allowed : Lists.AllowsAll (fun _ => none) (lines.map ArrayLine.call)) :
    engine.Implements (fun _ => none) lines :=
  implements_of_holds knows (holds_none _) reads allowed

/-- A list is copied over its own array. -/
theorem arrays_implement_lists_overlapping :
    let engine := Engine.new .standard (.withInput .buffer [])
    let a : Whole := ⟨.ofNat 5, 5, isInt_ofNat (by decide)⟩
    let b : Whole := ⟨.ofNat 7, 7, isInt_ofNat (by decide)⟩
    let index : Whole := ⟨.ofNat 1, 1, isInt_ofNat (by decide)⟩
    let lines : List ArrayLine := [
      ⟨"alloc($5, 7, PI)", true, .alloc a [.ofNat 7, .pi]⟩,
      ⟨"INSERT($(4 + 1), 1, 8)", true, .insert a index (.ofNat 8)⟩,
      ⟨"copy($5, $7)", false, .copy a b⟩]
    engine.registry.KnowsArrays ∧ (∀ line ∈ lines, line.Reads engine) ∧
      Lists.AllowsAll (fun _ => none) (lines.map ArrayLine.call) ∧
      engine.Implements (fun _ => none) lines := by
  intro engine a b index lines
  have knows : engine.registry.KnowsArrays := Registry.knowsArrays_standard
  have plain : lines.all engine.readsPlainly = true := by decide +kernel
  have reads (line : ArrayLine) (mem : line ∈ lines) : line.Reads engine :=
    reads_of_readsPlainly (List.all_eq_true.mp plain line mem)
  have start : Lists.AllFit fun _ => none := by
    intro _ _ found
    cases found
  let one := Lists.write (fun _ => none) 5 [.ofNat 7, .pi]
  let two := one.write 5 [.ofNat 7, .ofNat 8, .pi]
  have first : one.AllFit := start.write ⟨by decide, by decide, by decide⟩
  have second : two.AllFit := first.write ⟨by decide, by decide, by decide⟩
  have third : (two.write 7 [.ofNat 7, .ofNat 8, .pi]).AllFit :=
    second.write ⟨by decide, by decide, by decide⟩
  have inserted : (one.step (.insert a index (.ofNat 8))).2 = two := congrArg Prod.snd (if_pos (by decide))
  have allocates : Lists.Allows (fun _ => none) (.alloc a [.ofNat 7, .pi]) :=
    ⟨List.forall_mem_nil _, trivial, first⟩
  have inserts : one.Allows (.insert a index (.ofNat 8)) :=
    ⟨List.forall_mem_singleton.mpr rfl, trivial, inserted.symm ▸ second⟩
  have copies : two.Allows (.copy a b) := ⟨List.forall_mem_singleton.mpr rfl, trivial, third⟩
  have allowed : Lists.AllowsAll (fun _ => none) (lines.map ArrayLine.call) := by
    refine ⟨allocates, inserts, ?_⟩
    change Lists.AllowsAll (one.step (.insert a index (.ofNat 8))).2 [.copy a b]
    rw [inserted]
    exact ⟨copies, trivial⟩
  exact ⟨knows, reads, allowed, arrays_implement_lists engine knows lines reads allowed⟩

end Engine

end Calculator
