import Calculator.Operator
import Calculator.Text.Fold
import Calculator.Token

/-!
What the names in a line denote.

A sigil decides on its own. A bare name is a function or a macro if a bracket follows and one of that
name is known or about to be defined; at the top level any other bare name is a global variable, and
below it a local if it is assigned to or known as one.
-/

namespace Calculator

inductive NameKind where
  | globalVar
  | localVar
  | macroName
  | function
  deriving DecidableEq, Repr

inductive NameTag where
  | localVar
  | macroName
  deriving DecidableEq, Repr

/-- The names declared in each open frame of the source: the top level, and inside of it the macro
bodies and lambdas, innermost first. -/
structure NameStack where
  outermost : List (String × NameTag)
  inner : List (List (String × NameTag))
  deriving DecidableEq, Repr

namespace NameStack

def empty : NameStack := ⟨[], []⟩

def push (names : NameStack) : NameStack := { names with inner := [] :: names.inner }

def pop (names : NameStack) : NameStack := { names with inner := names.inner.tail }

def declare (names : NameStack) (name : String) (tag : NameTag) : NameStack :=
  match names.inner with
  | [] => { names with outermost := (Text.fold name, tag) :: names.outermost }
  | frame :: frames => { names with inner := ((Text.fold name, tag) :: frame) :: frames }

def has (names : NameStack) (name : String) (tag : NameTag) : Bool :=
  let entry := (Text.fold name, tag)
  names.outermost.contains entry || names.inner.any (·.contains entry)

end NameStack

structure Vocabulary where
  isFunction : String → Bool
  isMacro : String → Bool

namespace Name

/-- Whether an assignment operator comes, outside of brackets, before any operator that binds looser;
`depth` is the count of open brackets, negative where more were closed. -/
def assignmentAhead (depth : Int) : List Token → Bool
  | [] => false
  | t :: rest =>
    match t.kind with
    | .openParen => assignmentAhead (depth + 1) rest
    | .closeParen => assignmentAhead (depth - 1) rest
    | .operator =>
      if depth ≠ 0 then assignmentAhead depth rest
      else match Operator.tier? t.text with
        | some tier =>
          if tier = Operator.assignmentTier then true
          else if Operator.assignmentTier < tier then false
          else assignmentAhead depth rest
        | none => assignmentAhead depth rest
    | _ => assignmentAhead depth rest

def isAssignmentTarget (rest : List Token) : Bool := assignmentAhead 0 rest

def opensCall (rest : List Token) : Bool := rest.head?.any (·.kind = .openParen)

def classify (words : Vocabulary) (names : NameStack) (topLevel : Bool) (name : String)
    (rest : List Token) : NameKind :=
  match name.toList.head? with
  | some '@' => .macroName
  | some '$' => .globalVar
  | some '#' => .localVar
  | _ =>
    if opensCall rest && words.isFunction name then .function
    else if opensCall rest
        && (words.isMacro name || names.has name .macroName || isAssignmentTarget rest) then
      .macroName
    else if topLevel then .globalVar
    else if isAssignmentTarget rest || names.has name .localVar then .localVar
    else .globalVar

def bare (name : String) : String :=
  match name.toList with
  | '$' :: rest | '#' :: rest | '@' :: rest => String.ofList rest
  | _ => name

end Name

end Calculator
