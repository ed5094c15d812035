import Calculator.Builtin.Standard
import Calculator.Solve

/-!
Engines: a session together with the functions and options it runs with.

An engine runs lines of text. What a line leaves behind is a new engine, also when the line fails. A run
is given fuel and has no result if that does not suffice.
-/

namespace Calculator

structure Options where
  seed : Bool
  record : Bool
  imply : Bool
  deriving DecidableEq, Repr

def Options.standard : Options := ⟨true, true, true⟩

structure Engine where
  options : Options
  registry : Registry
  session : Session

namespace Engine

def constants : List (String × Number) :=
  [("PI", .pi),
   ("TAU", .ofBits 0x401921FB54442D18),
   ("E", .ofBits 0x4005BF0A8B145769),
   ("C", .ofNat 299792458),
   ("H", .ofDecimal false "662607015".toList (-42)),
   ("AVOGADRO", .ofDecimal false "602214076".toList 15),
   ("BYTEMIN", .zero),
   ("BYTEMAX", .ofNat 255),
   ("SBYTEMIN", .ofInt (-128)),
   ("SBYTEMAX", .ofNat 127),
   ("SHORTMIN", .ofInt (-32768)),
   ("SHORTMAX", .ofNat 32767),
   ("USHORTMIN", .zero),
   ("USHORTMAX", .ofNat 65535),
   ("INTMIN", .ofInt (-2147483648)),
   ("INTMAX", .ofNat 2147483647),
   ("UINTMIN", .zero),
   ("UINTMAX", .ofNat 4294967295),
   ("LONGMIN", .ofInt (-9223372036854775808)),
   ("LONGMAX", .ofNat 9223372036854775807),
   ("ULONGMIN", .zero),
   ("ULONGMAX", .ofNat 18446744073709551615),
   ("DOUBLEMIN", .ofBits 0xFFEFFFFFFFFFFFFF),
   ("DOUBLEMAX", .ofBits 0x7FEFFFFFFFFFFFFF),
   ("INFINITY", .infinity),
   ("EPSILON", .ofBits 1),
   ("NAN", .nan)]

/-- The variables of a new engine. The last answer is always there. -/
def seedVariables (seed : Bool) : Std.TreeMap String Number :=
  let constants := if seed then constants else []
  (constants ++ [(Parsed.answer, Number.zero)]).foldl
    (fun globals (name, value) => globals.insert (Text.fold name) value) ∅

def new (options : Options) (console : Console) : Engine :=
  ⟨options, .standard, ⟨seedVariables options.seed, ∅, #[], console⟩⟩

def vocabulary (engine : Engine) : Vocabulary :=
  ⟨engine.registry.isFunction, engine.session.hasMacro⟩

def setting (engine : Engine) : Setting := ⟨engine.registry, engine.options.imply⟩

def mapSession (engine : Engine) (change : Session → Session) : Engine :=
  { engine with session := change engine.session }

def register (engine : Engine) (name : String) (builtin : Builtin) : Engine :=
  { engine with registry := engine.registry.register name builtin }

def readVariable (engine : Engine) (name : String) : Number × Engine :=
  let (value, session) := engine.session.readVariable name
  (value, { engine with session })

def inMainFrame {α : Type} (engine : Engine) (steps : Nat) (body : FrameId → Eval α) :
    Ending α × Engine :=
  let (ending, run) := Eval.withFrame .main body ⟨steps, engine.session⟩
  (ending, { engine with session := run.session })

def evaluateWithin (engine : Engine) (fuel steps : Nat) (root : Expr) : Ending Number × Engine :=
  engine.inMainFrame steps (engine.setting.solve fuel root)

def evaluate (engine : Engine) (fuel : Nat) (root : Expr) :
    Option (Except RuntimeError Number × Engine) :=
  match engine.evaluateWithin fuel fuel root with
  | (.value value, engine) => some (.ok value, engine)
  | (.fault fault, engine) => some (.error fault, engine)
  | (.exhausted, _) => none

/-- Runs a line of text: its value, and whether it continued from the last answer. A line without an
expression is zero. Only the value of an expression is recorded, and only if `record` is set. -/
def run (engine : Engine) (fuel : Nat) (text : String) (record : Bool) :
    Option (Except Error (Number × Bool) × Engine) :=
  match Parsed.ofText engine.vocabulary engine.options.imply text with
  | .error fault => some (.error fault, engine)
  | .ok parsed =>
    match parsed.root with
    | none => some (.ok (.zero, false), engine)
    | some root =>
      (engine.evaluate fuel root).map fun
        | (.error fault, engine) => (.error (.runtime fault), engine)
        | (.ok value, engine) =>
          let engine :=
            if record then engine.mapSession (·.setVariable Parsed.answer value) else engine
          (.ok (value, parsed.implied), engine)

def define (engine : Engine) (words : Vocabulary) (name text : String) (aliases : List String) :
    Except Error (Option Engine) := do
  let parsed ← Parsed.ofText words false text
  return parsed.root.map fun body => engine.mapSession (·.defineMacro name ⟨body, aliases⟩)

def readArray (engine : Engine) (fuel : Nat) (address : Number) :
    Option (List Number × Engine) :=
  let machine := engine.setting.machine fuel (engine.setting.solve fuel)
  match engine.inMainFrame fuel (CellArray.toList machine (.pointer (.constant address))) with
  | (.value values, engine) => some (values, engine)
  | (.fault _, engine) => some ([], engine)
  | (.exhausted, _) => none

def sameDatum (x y : Number) : Bool := x == y || (x.isNaN && y.isNaN)

/-- The variables and cells that a new engine with the same options would not hold with the same value,
by name. -/
def changedVariables (engine : Engine) : List (String × Number) :=
  let seeded := seedVariables engine.options.seed
  engine.session.globals.toList.filter fun (name, value) =>
    !(seeded[name]?.any (sameDatum value))

end Engine

end Calculator
