import Calculator.Console
import Calculator.Expr
import Calculator.Number.Decimal
import Calculator.Text.Fold
import Std.Data.TreeMap

/-!
The state of a session: global variables, macros, the stack of frames, and the console.

Names are stored in lower case. Numeric cells are stored beside the variables, under the text of their
address.
-/

namespace Calculator

abbrev FrameId := Nat

inductive Binding where
  | value (value : Number)
  /-- An expression that is evaluated in a frame on every read. -/
  | reference (expr : Expr) (frame : FrameId)
  deriving Repr

structure Frame where
  name : String
  parent : Option FrameId
  /-- Whether names that are not bound here are looked up in the parent. -/
  captures : Bool
  locals : Std.TreeMap String Binding

namespace Frame

def main : Frame := ⟨"Main", none, false, ∅⟩

def ofLambda (parent : FrameId) : Frame := ⟨"Lambda", some parent, true, ∅⟩

def ofMacro (name : String) (parent : FrameId) : Frame := ⟨name, some parent, false, ∅⟩

end Frame

structure MacroDefinition where
  body : Expr
  aliases : List String

structure Session where
  globals : Std.TreeMap String Number
  macros : Std.TreeMap String MacroDefinition
  frames : Array Frame
  console : Console

namespace Session

def setVariable (s : Session) (name : String) (value : Number) : Session :=
  { s with globals := s.globals.insert (Text.fold name) value }

/-- The value of a variable. One that is not there yet is zero, and is there from then on. -/
def readVariable (s : Session) (name : String) : Number × Session :=
  match s.globals[Text.fold name]? with
  | some value => (value, s)
  | none => (.zero, s.setVariable name .zero)

def macro? (s : Session) (name : String) : Option MacroDefinition := s.macros[Text.fold name]?

def hasMacro (s : Session) (name : String) : Bool := s.macros.contains (Text.fold name)

def defineMacro (s : Session) (name : String) (definition : MacroDefinition) : Session :=
  { s with macros := s.macros.insert (Text.fold name) definition }

/-- The binding of a folded name in a frame or in those that it captures. A parent lies below its
frame. -/
def lookupFolded (frames : Array Frame) (folded : String) (id : FrameId) : Option Binding :=
  match frames[id]? with
  | none => none
  | some frame =>
    match frame.locals[folded]? with
    | some binding => some binding
    | none =>
      match frame.captures, frame.parent with
      | true, some parent => if parent < id then lookupFolded frames folded parent else none
      | _, _ => none
termination_by id

def lookup (s : Session) (name : String) (id : FrameId) : Option Binding :=
  lookupFolded s.frames (Text.fold name) id

def bind (s : Session) (name : String) (binding : Binding) (id : FrameId) : Session :=
  { s with
    frames := s.frames.modify id fun frame =>
      { frame with locals := frame.locals.insert (Text.fold name) binding } }

def push (s : Session) (frame : Frame) : Session := { s with frames := s.frames.push frame }

def cutTo (s : Session) (height : Nat) : Session := { s with frames := s.frames.shrink height }

def frameName (s : Session) (id : FrameId) : String :=
  match s.frames[id]? with
  | some frame => frame.name
  | none => ""

/-- Where following a local from reference to reference ends. -/
inductive Referent where
  | unbound (name : String) (frame : FrameId)
  | value (name : String) (value : Number)
  | expr (name : String) (expr : Expr) (frame : FrameId)
  deriving Repr

def follow? (s : Session) : Nat → String → FrameId → Option Referent
  | 0, _, _ => none
  | steps + 1, name, id =>
    match s.lookup name id with
    | none => some (.unbound name id)
    | some (.value value) => some (.value name value)
    | some (.reference (.localVar next) frame) => s.follow? steps next frame
    | some (.reference expr frame) => some (.expr name expr frame)

end Session

end Calculator
