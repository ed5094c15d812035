import Calculator.Error
import Calculator.Session
import Calculator.Expr.Printer

/-!
What evaluation is made of.

An evaluation reads and changes the session, also when it fails. It is granted a number of steps: every
expression it begins to evaluate and every change of the session takes one. When they are used up it
stops where it is, so that the sessions left by runs of all lengths are the points that it passes.
-/

namespace Calculator

inductive Ending (α : Type) where
  | value (value : α)
  | fault (error : RuntimeError)
  /-- The run stopped halfway. -/
  | exhausted
  deriving Repr

structure Run where
  steps : Nat
  session : Session

/-- An evaluation: how it ends, and where that leaves the run. -/
def Eval (α : Type) : Type := Run → Ending α × Run

namespace Eval

def run {α : Type} (x : Eval α) (start : Run) : Ending α × Run := x start

instance : Monad Eval where
  pure a := fun run => (.value a, run)
  bind x f := fun run =>
    match x run with
    | (.value a, run) => f a run
    | (.fault error, run) => (.fault error, run)
    | (.exhausted, run) => (.exhausted, run)

instance : MonadExcept RuntimeError Eval where
  throw error := fun run => (.fault error, run)
  tryCatch x handler := fun run =>
    match x run with
    | (.fault error, run) => handler error run
    | (ending, run) => (ending, run)

theorem ext {α : Type} {x y : Eval α} (same : ∀ start, x.run start = y.run start) : x = y :=
  funext same

theorem run_pure {α : Type} (a : α) (start : Run) : (pure a : Eval α).run start = (.value a, start) :=
  rfl

theorem run_throw {α : Type} (error : RuntimeError) (start : Run) :
    (throw error : Eval α).run start = (.fault error, start) := rfl

theorem run_bind {α β : Type} (x : Eval α) (f : α → Eval β) (start : Run) :
    (x >>= f).run start =
      match x.run start with
      | (.value a, after) => (f a).run after
      | (.fault error, after) => (.fault error, after)
      | (.exhausted, after) => (.exhausted, after) := rfl

theorem run_tryCatch {α : Type} (x : Eval α) (handler : RuntimeError → Eval α) (start : Run) :
    (tryCatch x handler).run start =
      match x.run start with
      | (.fault error, after) => (handler error).run after
      | (ending, after) => (ending, after) := rfl

protected theorem bind_pure {α : Type} (x : Eval α) : (x >>= fun a => pure a) = x := by
  apply ext
  intro start
  rw [run_bind]
  rcases x.run start with ⟨_ | _ | _, after⟩ <;> rfl

protected theorem bind_assoc {α β γ : Type} (x : Eval α) (f : α → Eval β) (g : β → Eval γ) :
    (x >>= f >>= g) = x >>= fun a => f a >>= g := by
  apply ext
  intro start
  simp only [run_bind]
  rcases x.run start with ⟨_ | _ | _, after⟩ <;> rfl

instance : LawfulMonad Eval := LawfulMonad.mk' Eval Eval.bind_pure (fun _ _ => rfl) Eval.bind_assoc

def outOfFuel {α : Type} : Eval α := fun run => (.exhausted, run)

def tick : Eval Unit := fun run =>
  match run.steps with
  | 0 => (.exhausted, run)
  | steps + 1 => (.value (), ⟨steps, run.session⟩)

def session : Eval Session := fun run => (.value run.session, run)

def update {α : Type} (change : Session → α × Session) : Eval α := fun run =>
  match run.steps with
  | 0 => (.exhausted, run)
  | steps + 1 => (.value (change run.session).1, ⟨steps, (change run.session).2⟩)

def leave {α : Type} (base : FrameId) (result : Ending α × Run) : Ending α × Run :=
  match result with
  | (.exhausted, run) => (.exhausted, run)
  | (_, ⟨0, s⟩) => (.exhausted, ⟨0, s⟩)
  | (ending, ⟨steps + 1, s⟩) => (ending, ⟨steps, s.cutTo base⟩)

/-- Runs in a new frame on top of the stack. The stack is cut back at the end, whatever it is. -/
def withFrame {α : Type} (frame : Frame) (body : FrameId → Eval α) : Eval α := fun run =>
  match run.steps with
  | 0 => (.exhausted, run)
  | steps + 1 =>
    let base := run.session.frames.size
    leave base (body base ⟨steps, run.session.push frame⟩)

theorem run_withFrame {α : Type} (frame : Frame) (body : FrameId → Eval α) (steps : Nat)
    (s : Session) :
    (withFrame frame body).run ⟨steps + 1, s⟩ =
      leave s.frames.size ((body s.frames.size).run ⟨steps, s.push frame⟩) := rfl

def readVariable (name : String) : Eval Number := update (·.readVariable name)

def setVariable (name : String) (value : Number) : Eval Unit :=
  update fun s => ((), s.setVariable name value)

def defineMacro (name : String) (definition : MacroDefinition) : Eval Unit :=
  update fun s => ((), s.defineMacro name definition)

def bind (name : String) (binding : Binding) (frame : FrameId) : Eval Unit :=
  update fun s => ((), s.bind name binding frame)

def onConsole {α : Type} (change : Console → α × Console) : Eval α := update fun s =>
  ((change s.console).1, { s with console := (change s.console).2 })

def write (text : String) : Eval Unit := onConsole fun console => ((), console.write text)

def writeLine (text : String) : Eval Unit := onConsole fun console => ((), console.writeLine text)

def clear : Eval Unit := onConsole fun console => ((), console.clear)

def readLine : Eval (Option String) := onConsole Console.readLine

def failUnbound {α : Type} (name : String) (frame : FrameId) : Eval α := do
  throw (.unknownLocal name ((← session).frameName frame))

def require (name : String) (frame : FrameId) : Eval Binding := do
  match (← session).lookup name frame with
  | some binding => return binding
  | none => failUnbound name frame

end Eval

structure Machine where
  fuel : Nat
  solve : Expr → FrameId → Eval Number
  isFunction : String → Bool
  imply : Bool

namespace Machine

def resolve (m : Machine) : Binding → Eval Number
  | .value value => return value
  | .reference expr frame => m.solve expr frame

/-- What an expression hands on when it is stored: a local its binding, anything else its value. -/
def handOn (m : Machine) (expr : Expr) (frame : FrameId) : Eval Binding := do
  match expr with
  | .localVar name => Eval.require name frame
  | _ => return .value (← m.solve expr frame)

def referent (m : Machine) (name : String) (frame : FrameId) : Eval Session.Referent := do
  match (← Eval.session).follow? m.fuel name frame with
  | some referent => return referent
  | none => Eval.outOfFuel

end Machine

end Calculator
