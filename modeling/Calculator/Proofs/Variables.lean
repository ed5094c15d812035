import Calculator.Proofs.Frames.Cycle
import Calculator.Proofs.Frames.Isolation
import Calculator.Script

/-! Variables as a total function. A variable that is read without being there is zero and is there from
then on; nothing but the list of all variables shows whether it is. -/

namespace Calculator

theorem Correspondence.Outcome.ending_eq {C : Correspondence} {α : Type} {w : C.World}
    {p q : Ending α × Run} (outcome : C.Outcome w Eq p q)
    (faults : ∀ error error', C.fault error error' → error = error') (lasts : ¬C.stops) :
    p.1 = q.1 := by
  cases outcome with
  | value steps values sessions => exact congrArg Ending.value values
  | fault steps errors sessions => exact congrArg Ending.fault (faults _ _ errors)
  | exhausted steps sessions => rfl
  | stopped granted => exact absurd granted lasts

namespace Session

/-- The value of a variable; one that is not there counts as zero. -/
def valueOf (s : Session) (name : String) : Number := s.globals[Text.fold name]?.getD .zero

theorem valueOf_setVariable (s : Session) (name other : String) (value : Number) :
    (s.setVariable name value).valueOf other =
      if Text.fold name = Text.fold other then value else s.valueOf other := by
  unfold valueOf setVariable
  rw [Std.TreeMap.getElem?_insert]
  simp only [Std.LawfulEqCmp.compare_eq_iff_eq]
  split
  · rfl
  · rfl

theorem readVariable_value (s : Session) (name : String) :
    (s.readVariable name).1 = s.valueOf name := by
  unfold readVariable valueOf
  split
  · rename_i value found
    rw [found]
    rfl
  · rename_i missing
    rw [missing]
    rfl

theorem valueOf_readVariable (s : Session) (name other : String) :
    (s.readVariable name).2.valueOf other = s.valueOf other := by
  unfold readVariable
  split
  · rfl
  · rename_i missing
    rw [valueOf_setVariable]
    split
    · rename_i same
      rw [valueOf, ← same, missing]
      rfl
    · rfl

theorem hasMacro_eq (s : Session) : s.hasMacro = fun name => (s.macro? name).isSome := by
  funext name
  exact Std.TreeMap.contains_eq_isSome_getElem?

/-- Sessions with the same console, macros and values of variables. -/
structure Agrees (s t : Session) : Prop where
  values : ∀ name, s.valueOf name = t.valueOf name
  macros : ∀ name, s.macro? name = t.macro? name
  console : s.console = t.console

namespace Agrees

variable {s t u : Session}

theorem trans (first : s.Agrees t) (second : t.Agrees u) : s.Agrees u where
  values name := (first.values name).trans (second.values name)
  macros name := (first.macros name).trans (second.macros name)
  console := first.console.trans second.console

theorem of_sameTables (same : s.SameTables t) : s.Agrees t where
  values name := by rw [valueOf, valueOf, same.globals]
  macros name := by rw [macro?, macro?, same.macros]
  console := same.console

theorem readVariable_self (s : Session) (name : String) : s.Agrees (s.readVariable name).2 where
  values other := (s.valueOf_readVariable name other).symm
  macros other := by
    unfold Session.readVariable
    split
    · rfl
    · rfl
  console := by
    unfold Session.readVariable
    split
    · rfl
    · rfl

variable (agree : s.Agrees t)
include agree

theorem symm : t.Agrees s where
  values name := (agree.values name).symm
  macros name := (agree.macros name).symm
  console := agree.console.symm

theorem hasMacro : s.hasMacro = t.hasMacro := by
  rw [hasMacro_eq, hasMacro_eq]
  funext name
  rw [agree.macros]

theorem setVariable (name : String) (value : Number) :
    (s.setVariable name value).Agrees (t.setVariable name value) where
  values other := by rw [valueOf_setVariable, valueOf_setVariable, agree.values]
  macros := agree.macros
  console := agree.console

theorem readVariable (name : String) :
    (s.readVariable name).1 = (t.readVariable name).1 ∧
      (s.readVariable name).2.Agrees (t.readVariable name).2 := by
  refine ⟨?_, ?_⟩
  · rw [readVariable_value, readVariable_value, agree.values]
  · exact ((readVariable_self s name).symm).trans (agree.trans (readVariable_self t name))

theorem defineMacro (name : String) (definition : MacroDefinition) :
    (s.defineMacro name definition).Agrees (t.defineMacro name definition) where
  values := agree.values
  macros other := by
    have same := agree.macros other
    unfold macro? at same ⊢
    unfold Session.defineMacro
    rw [Std.TreeMap.getElem?_insert, Std.TreeMap.getElem?_insert, same]
  console := agree.console

theorem setConsole (console : Console) :
    Agrees { s with console := console } { t with console := console } :=
  ⟨agree.values, agree.macros, rfl⟩

end Agrees

end Session

def valueComparison : Comparison where
  World := Nat
  now height s t := s.Agrees t ∧ s.frames = t.frames ∧ s.frames.size = height
  ever := Session.Agrees
  fault := Eq
  name := Eq
  expr := Eq
  frame _ := Eq
  binding _ _ := Eq
  entered _ := Eq
  grow height _ _ := height + 1
  top height := (height, height)
  stops := False

theorem valueComparison_values (f f' : FrameId) (value : Number) :
    valueComparison.binding f f' (.value value) (.value value) := rfl

def valueCorrespondence : Correspondence where
  toComparison := valueComparison
  toSyntactic := .of_eq rfl rfl rfl rfl
  ever_of_now := And.left
  heights := by
    rintro height s t ⟨_, frames, size⟩
    exact ⟨size, frames ▸ size⟩
  push := by
    rintro height s t fr _ ⟨agree, frames, size⟩ rfl
    refine ⟨⟨agree.values, agree.macros, agree.console⟩, ?_, ?_⟩
    · exact congrArg (·.push fr) frames
    · rw [Session.size_push, size]
      rfl
  cut := by
    rintro height s t fr _ _ ⟨agree, frames, size⟩
    refine ⟨⟨agree.values, agree.macros, agree.console⟩, ?_, ?_⟩
    · exact congrArg (·.shrink height) frames
    · rw [Session.size_cutTo, size]
      exact Nat.min_eq_left (Nat.le_succ height)
  consoles := by
    rintro height s t ⟨agree, _⟩
    exact agree.console
  setConsole := by
    rintro height s t console ⟨agree, frames⟩
    exact ⟨agree.setConsole console, frames⟩
  readVariable := by
    rintro height s t n _ ⟨agree, frames, size⟩ rfl
    obtain ⟨values, agrees⟩ := agree.readVariable n
    refine ⟨values, agrees, ?_⟩
    rw [Session.frames_readVariable, Session.frames_readVariable]
    exact ⟨frames, size⟩
  setVariable := by
    rintro height s t n _ value ⟨agree, frames⟩ rfl
    exact ⟨agree.setVariable n value, frames⟩
  macros := by
    rintro height s t n _ ⟨agree, _⟩ rfl
    rw [← agree.macros]
    exact .of_mem fun _ _ => ⟨rfl, List.forall₂_same.mpr fun _ _ => rfl⟩
  defineMacro := by
    rintro height s t n _ d d' ⟨agree, frames⟩ rfl ⟨bodies, aliases⟩
    obtain rfl := MacroDefinition.eq_of_parts bodies aliases
    exact ⟨agree.defineMacro n d, frames⟩
  hasMacro := by
    rintro height s t ⟨agree, _⟩
    exact agree.hasMacro
  lookup := by
    rintro height s t f _ n _ ⟨_, frames, _⟩ rfl rfl
    unfold Session.lookup
    rw [← frames]
    exact .of_mem fun _ _ => rfl
  bind := by
    rintro height s t f _ n _ b _ ⟨agree, frames, size⟩ rfl rfl rfl
    refine ⟨⟨agree.values, agree.macros, agree.console⟩, ?_, (s.size_bind n b f).trans size⟩
    unfold Session.bind
    rw [frames]
  frame_lt := by
    rintro height f _ g _ rfl rfl
    exact Iff.rfl
  frame_grow := id
  frame_top := rfl
  entered_main := rfl
  entered_lambda := congrArg Frame.ofLambda
  entered_macro := by
    rintro height f _ n _ rfl rfl
    rfl
  binding_value := valueComparison_values
  binding_layer := by
    rintro height f _ b _ rfl rfl
    cases b with
    | value value => exact .value value
    | reference expr origin => exact .reference rfl rfl
  binding_top _ same := same
  reference_top := by
    rintro height f _ e _ rfl rfl
    rfl
  unknownLocal := by
    rintro height s t f _ n _ ⟨_, frames, _⟩ rfl rfl
    unfold Session.frameName
    rw [frames]
    rfl

theorem settles_values : valueCorrespondence.Settles := by
  rintro height f _ g _ e _ rfl rfl rfl _
  rfl

theorem serves_values : valueCorrespondence.Serves .standard .standard :=
  Correspondence.serves_standard settles_values

theorem Correspondence.arrayLine (C : Correspondence) {w : C.World} {setting : Setting}
    (serves : C.Serves setting.registry setting.registry) (fuel : Nat) (address : Number) :
    let line := Eval.withFrame .main (CellArray.toList (setting.machine fuel (setting.solve fuel))
      (.pointer (.constant address)))
    C.Related w Eq line line := by
  have machines := Correspondence.machines serves rfl (C.bounds_refl fuel)
  have calls : C.Calls (.pointer (.constant address)) := fun _ _ =>
    .one (fun _ _ call => nomatch call) rfl (.leaf (fun _ _ call => nomatch call) rfl)
  exact .inFrame C.entered_main (machines.toList (C.expr_refl _ calls) C.frame_top)

structure Engine.Agrees (engine engine' : Engine) : Prop where
  options : engine.options = engine'.options
  registry : engine.registry = engine'.registry
  session : engine.session.Agrees engine'.session

namespace Engine.Agrees

variable {engine engine' : Engine} (agree : engine.Agrees engine')
include agree

theorem setting : engine.setting = engine'.setting := by
  rw [Engine.setting, Engine.setting, agree.options, agree.registry]

theorem vocabulary : engine.vocabulary = engine'.vocabulary := by
  rw [Engine.vocabulary, Engine.vocabulary, agree.registry, agree.session.hasMacro]

theorem mapSession {change : Session → Session}
    (kept : ∀ {s t : Session}, s.Agrees t → (change s).Agrees (change t)) :
    (engine.mapSession change).Agrees (engine'.mapSession change) :=
  ⟨agree.options, agree.registry, kept agree.session⟩

theorem readVariable (name : String) :
    (engine.readVariable name).1 = (engine'.readVariable name).1 ∧
      (engine.readVariable name).2.Agrees (engine'.readVariable name).2 := by
  obtain ⟨values, sessions⟩ := agree.session.readVariable name
  exact ⟨values, agree.options, agree.registry, sessions⟩

theorem inMainFrame {α : Type} {body : FrameId → Eval α}
    (shifts : ∀ base base', (shiftCorrespondence (.apart base base')).Related (0 : Nat) Eq
      (Eval.withFrame .main body) (Eval.withFrame .main body))
    (reads : ∀ height : Nat, valueCorrespondence.Related height Eq (Eval.withFrame .main body)
      (Eval.withFrame .main body)) (steps : Nat) :
    (engine.inMainFrame steps body).1 = (engine'.inMainFrame steps body).1 ∧
      (engine.inMainFrame steps body).2.Agrees (engine'.inMainFrame steps body).2 := by
  obtain ⟨options, registry, globals, macros, frames, console⟩ := engine
  obtain ⟨options', registry', t⟩ := engine'
  obtain ⟨optionsEq, registryEq, sessions⟩ := agree
  let moved : Session := ⟨globals, macros, t.frames, console⟩
  have start : moved.Agrees t := ⟨sessions.values, sessions.macros, sessions.console⟩
  have shift := (shifts frames t.frames).lockstep rfl (.start globals macros console) steps
  have read := (reads t.frames.size).lockstep rfl (s := moved) ⟨start, rfl, rfl⟩ steps
  have ends := (shift.ending_eq (fun _ _ => id) not_false).trans
    (read.ending_eq (fun _ _ => id) not_false)
  have tables := Session.Agrees.of_sameTables (shift.reached not_false).1
  exact ⟨ends, optionsEq, registryEq, tables.trans (read.reached not_false)⟩

variable (standard : engine.registry = .standard)
include standard

theorem evaluateWithin (fuel steps : Nat) (root : Expr) :
    (engine.evaluateWithin fuel steps root).1 = (engine'.evaluateWithin fuel steps root).1 ∧
      (engine.evaluateWithin fuel steps root).2.Agrees (engine'.evaluateWithin fuel steps root).2 := by
  have same : engine.setting.registry = .standard := standard
  unfold Engine.evaluateWithin
  rw [← agree.setting]
  refine agree.inMainFrame (fun base base' => ?_) (fun height => ?_) steps
  · exact Correspondence.solveLine (same ▸ serves_shift _) rfl fuel rfl
  · exact Correspondence.solveLine (same ▸ serves_values) rfl fuel rfl

theorem evaluate (fuel : Nat) (root : Expr) :
    Option.Rel (fun p q => p.1 = q.1 ∧ p.2.Agrees q.2) (engine.evaluate fuel root)
      (engine'.evaluate fuel root) := by
  obtain ⟨ends, agrees⟩ := agree.evaluateWithin standard fuel fuel root
  unfold Engine.evaluate
  generalize engine.evaluateWithin fuel fuel root = p at ends agrees ⊢
  generalize engine'.evaluateWithin fuel fuel root = q at ends agrees ⊢
  obtain ⟨ending, after⟩ := p
  obtain ⟨_, after'⟩ := q
  cases ends
  cases ending with
  | value value => exact .some ⟨rfl, agrees⟩
  | fault error => exact .some ⟨rfl, agrees⟩
  | exhausted => exact .none

theorem run (fuel : Nat) (text : String) (record : Bool) :
    Option.Rel (fun p q => p.1 = q.1 ∧ p.2.Agrees q.2) (engine.run fuel text record)
      (engine'.run fuel text record) := by
  unfold Engine.run
  rw [← agree.vocabulary, ← agree.options]
  split
  · exact .some ⟨rfl, agree⟩
  · rename_i parsed _
    split
    · exact .some ⟨rfl, agree⟩
    · rename_i root _
      have ends := agree.evaluate standard fuel root
      generalize engine.evaluate fuel root = p at ends ⊢
      generalize engine'.evaluate fuel root = q at ends ⊢
      cases ends with
      | none => exact .none
      | @some p q same =>
          obtain ⟨result, after⟩ := p
          obtain ⟨_, after'⟩ := q
          obtain ⟨results, agrees⟩ := same
          cases results
          cases result with
          | error fault => exact .some ⟨rfl, agrees⟩
          | ok value =>
              refine .some ⟨rfl, ?_⟩
              dsimp only
              split
              · exact agrees.mapSession fun agree => agree.setVariable Parsed.answer value
              · exact agrees

theorem readArray (fuel : Nat) (address : Number) :
    Option.Rel (fun p q => p.1 = q.1 ∧ p.2.Agrees q.2) (engine.readArray fuel address)
      (engine'.readArray fuel address) := by
  have same : engine.setting.registry = .standard := standard
  have ends := agree.inMainFrame
    (fun base base' => (shiftCorrespondence _).arrayLine (same ▸ serves_shift _) fuel address)
    (fun height => valueCorrespondence.arrayLine (same ▸ serves_values) fuel address) fuel
  unfold Engine.readArray
  dsimp only
  rw [← agree.setting]
  generalize engine.inMainFrame fuel _ = p at ends ⊢
  generalize engine'.inMainFrame fuel _ = q at ends ⊢
  obtain ⟨ending, after⟩ := p
  obtain ⟨_, after'⟩ := q
  obtain ⟨ends, agrees⟩ := ends
  cases ends
  cases ending with
  | value values => exact .some ⟨rfl, agrees⟩
  | fault error => exact .some ⟨rfl, agrees⟩
  | exhausted => exact .none

end Engine.Agrees

theorem Script.runLines_eq {engine engine' : Engine} (agree : engine.Agrees engine')
    (standard : engine.registry = .standard) (fuel : Nat) (last : Number) (lines : List String) :
    runLines fuel engine last lines = runLines fuel engine' last lines := by
  induction lines generalizing engine engine' last with
  | nil => rfl
  | cons line lines ih =>
      have ends := agree.run standard fuel line engine.options.record
      unfold runLines
      rw [← agree.options]
      cases ran : engine.run fuel line engine.options.record with
      | none =>
          rw [ran] at ends
          generalize engine'.run fuel line engine.options.record = q at ends ⊢
          cases ends
          rfl
      | some p =>
          obtain ⟨result, after⟩ := p
          have kept : after.registry = .standard := (Engine.run_registry ran).trans standard
          rw [ran] at ends
          generalize engine'.run fuel line engine.options.record = q at ends ⊢
          cases ends with
          | @some _ q same =>
              obtain ⟨_, after'⟩ := q
              obtain ⟨results, agrees⟩ := same
              cases results
              cases result with
              | error fault => rfl
              | ok value => exact ih agrees kept value.1

/-- That a variable was created by reading it shows in the list of all variables only. On engines with
the same options, macros and console, of which the variables have the same values if those that are
missing count as zero, every line comes to the same value or fails with the same error, writes and reads
the same, and leaves such engines; and so does every other way to read a variable or an array. -/
theorem created_by_reading_unobservable {engine engine' : Engine} (agree : engine.Agrees engine')
    (standard : engine.registry = .standard) :
    (∀ fuel text record, Option.Rel (fun p q => p.1 = q.1 ∧ p.2.Agrees q.2)
        (engine.run fuel text record) (engine'.run fuel text record)) ∧
      (∀ fuel address, Option.Rel (fun p q => p.1 = q.1 ∧ p.2.Agrees q.2)
        (engine.readArray fuel address) (engine'.readArray fuel address)) ∧
      ∀ name, (engine.readVariable name).1 = (engine'.readVariable name).1 ∧
        engine.Agrees (engine.readVariable name).2 :=
  ⟨fun fuel text record => agree.run standard fuel text record,
    fun fuel address => agree.readArray standard fuel address,
    fun name => ⟨(agree.readVariable name).1, rfl, rfl, .readVariable_self _ name⟩⟩

theorem created_variable_listed :
    let engine : Engine := .new ⟨false, true, true⟩ (.withInput .buffer [])
    let engine' := (engine.readVariable "x").2
    engine.changedVariables = [] ∧ engine'.changedVariables = [("x", .zero)] ∧
      Option.Rel (fun p q => p.1 = q.1 ∧ p.2.Agrees q.2) (engine.run 9 "x = x + 1" true)
        (engine'.run 9 "x = x + 1" true) := by
  intro engine engine'
  have agree : engine.Agrees engine' := ⟨rfl, rfl, .readVariable_self _ "x"⟩
  exact ⟨by decide +kernel, by decide +kernel, (created_by_reading_unobservable agree rfl).1 9 _ true⟩

end Calculator
