import Calculator.Expr.Element
import Calculator.Expr.Literal
import Calculator.Expr.Printer
import Calculator.Name
import Calculator.Token.Brackets
import Calculator.Token.Signs

/-!
Reading expressions from tokens.

A span is read into a flat list of expressions and operators, which then collapses into one expression.
Brackets, calls, lambdas and macro bodies are spans of their own. Where a value is followed by a name or
a bracket, the sign of a product is put between them.

The names seen so far are kept while reading. Every frame that is opened is closed again, also when
reading fails.
-/

namespace Calculator

namespace Expr

/-- Reading keeps the declared names up to date, also when it fails. -/
abbrev Reading := ExceptT ParseError (StateM NameStack)

namespace Reading

def declare (name : String) (tag : NameTag) : Reading Unit := modify (·.declare name tag)

def inFrame {α : Type} (body : Reading α) : Reading α := ExceptT.mk do
  modify NameStack.push
  let result ← body.run
  modify NameStack.pop
  return result

end Reading

/-- What has been read of a span: its elements, latest first, and, if the latest one is a value, the
kind of its last token. -/
structure Progress where
  elements : List Element
  value : Option TokenKind

namespace Progress

def start : Progress := ⟨[], none⟩

def pushNode (p : Progress) (e : Expr) (last : TokenKind) : Progress :=
  ⟨.node e :: p.elements, some last⟩

def pushOp (p : Progress) (symbol : String) : Progress := ⟨.op symbol :: p.elements, none⟩

def pushProduct (p : Progress) : Progress :=
  if p.value.isSome then p.pushOp Operator.coefficient else p

def definition? (p : Progress) (symbol : String) : Option (String × List Expr) :=
  match p.elements with
  | .node (.macroRef name args true) :: _ =>
    if Operator.tier? symbol = some Operator.assignmentTier then some (name, args) else none
  | _ => none

def finish (p : Progress) : List Element :=
  match p.elements with
  | .op symbol :: before => if symbol = ";" then before.reverse else p.elements.reverse
  | elements => elements.reverse

end Progress

/-- How to read a span of fewer than `n` tokens, at the top level or below it. -/
abbrev SpanReader (n : Nat) :=
  Bool → (span : List Token) → span.length < n → Reading (Option Expr)

open Reading Token

def readParameters {n : Nat} (read : SpanReader n) (inside : List Token) (h : inside.length < n) :
    Reading (List Expr) :=
  (parameterSpans inside).mapM fun span => do
    match ← read false span.val (Nat.lt_of_le_of_lt span.property h) with
    | some e => return e
    | none => throw .emptyParameter

/-- Reads the parameters of a lambda: names, each declared at once, and last the body. An empty
parameter is an unused name. -/
def readLambdaSpans {n : Nat} (read : SpanReader n) (inside : List Token) (h : inside.length < n) :
    List (Span inside) → Reading (Option (List String × Expr))
  | [] => return none
  | span :: spans => do
    let parameter := (← read false span.val (Nat.lt_of_le_of_lt span.property h)).getD (.localVar "_")
    if spans.isEmpty then return some ([], parameter)
    else match parameter.alias? with
      | none => throw (.invalidAlias parameter.describe)
      | some name =>
        declare name .localVar
        return (← readLambdaSpans read inside h spans).map fun (names, body) => (name :: names, body)

def readLambda {n : Nat} (read : SpanReader n) (opening : Token) (inside : List Token)
    (h : inside.length < n) : Reading Expr := do
  match ← inFrame (readLambdaSpans read inside h (parameterSpans inside)) with
  | some (names, body) => return .lambda names body
  | none => throw (.emptyBrackets opening.bracket (closingFor opening.bracket))

/-- Reads the body of a macro definition. The body may call the macro by its bare name, and the macro's
parameters are locals in it. -/
def readMacroBody {n : Nat} (read : SpanReader n) (name : String) (args : List Expr) (symbol : String)
    (body : List Token) (h : body.length < n) : Reading Expr := do
  declare name .macroName
  let built ← inFrame do
    for parameter in args.filterMap alias? do
      declare parameter .localVar
    read false body h
  match built with
  | some e => return e
  | none => throw (.missingRightOperand symbol)

def readArguments {n : Nat} (read : SpanReader n) (rest : List Token) (h : rest.length < n) :
    Reading (List Expr × Span rest) :=
  match rest, h with
  | [], _ => return ([], ⟨[], Nat.le_refl _⟩)
  | opening :: inner, h =>
    if opening.kind = .openParen then do
      let g ← group opening inner
      have shorter := g.shorter
      let args ← readParameters read g.inside (by simp only [List.length_cons] at h; omega)
      return (args, ⟨g.after, by simp only [List.length_cons]; omega⟩)
    else return ([], ⟨opening :: inner, Nat.le_refl _⟩)

def readLambdaGroup {n : Nat} (read : SpanReader n) (rest : List Token) (h : rest.length < n) :
    Reading (Expr × Span rest) :=
  match rest, h with
  | [], _ => throw .bareLambdaSigil
  | opening :: inner, h =>
    if opening.kind = .openParen then do
      let g ← group opening inner
      have shorter := g.shorter
      let e ← readLambda read opening g.inside (by simp only [List.length_cons] at h; omega)
      return (e, ⟨g.after, by simp only [List.length_cons]; omega⟩)
    else throw .bareLambdaSigil

def refusedFactor? : Option TokenKind → Option LiteralKind
  | some .hex => some .hex
  | some .roman => some .roman
  | _ => none

def readName {n : Nat} (words : Vocabulary) (read : SpanReader n) (topLevel : Bool) (p : Progress)
    (name : String) (rest : List Token) (h : rest.length < n) :
    Reading (Progress × Span rest) := do
  let kind := Name.classify words (← get) topLevel name rest
  if kind = .function then
    if let some literal := refusedFactor? p.value then
      throw (.literalCoefficient literal)
  let p := p.pushProduct
  let bare := Name.bare name
  let unread : Span rest := ⟨rest, Nat.le_refl _⟩
  match kind with
  | .function =>
    let (args, after) ← readArguments read rest h
    return (p.pushNode (.call name args) .closeParen, after)
  | .globalVar =>
    if bare.isEmpty then return (p.pushOp "$", unread)
    else return (p.pushNode (.globalVar bare) .name, unread)
  | .localVar =>
    if bare.isEmpty then return (p.pushOp "#", unread)
    else
      declare bare .localVar
      return (p.pushNode (.localVar bare) .name, unread)
  | .macroName =>
    if bare.isEmpty then
      let (e, after) ← readLambdaGroup read rest h
      return (p.pushNode e .closeParen, after)
    else
      let (args, after) ← readArguments read rest h
      let definable := args.all (·.alias?.isSome)
      return (p.pushNode (.macroRef bare args definable) .name, after)

def readOperator {n : Nat} (read : SpanReader n) (p : Progress) (symbol : String)
    (rest : List Token) (h : rest.length < n) : Reading (Progress × Span rest) :=
  let pushed := p.pushOp symbol
  match p.definition? symbol with
  | none => return (pushed, ⟨rest, Nat.le_refl _⟩)
  | some (name, args) => do
    have sizes := length_splitBody 0 rest
    let body ← readMacroBody read name args symbol (splitBody 0 rest).1 (by omega)
    return (pushed.pushNode body .name, ⟨(splitBody 0 rest).2, by omega⟩)

def readGroup {n : Nat} (read : SpanReader n) (topLevel : Bool) (p : Progress) (opening : Token)
    (rest : List Token) (h : rest.length < n) : Reading (Progress × Span rest) := do
  let g ← group opening rest
  have shorter := g.shorter
  match ← read topLevel g.inside (by omega) with
  | some e => return (p.pushProduct.pushNode e .closeParen, ⟨g.after, by omega⟩)
  | none => throw (.emptyBrackets opening.bracket g.close.bracket)

def readToken {n : Nat} (words : Vocabulary) (read : SpanReader n) (topLevel : Bool) (p : Progress)
    (t : Token) (rest : List Token) (h : rest.length < n) : Reading (Progress × Span rest) :=
  match t.literal? with
  | some result => do
    let e ← result
    return (p.pushNode e t.kind, ⟨rest, Nat.le_refl _⟩)
  | none =>
    match t.kind with
    | .operator => readOperator read p t.text rest h
    | .name => readName words read topLevel p t.text rest h
    | .openParen => readGroup read topLevel p t rest h
    | _ => throw (.unexpectedToken t.text)

def readElements (words : Vocabulary) :
    (n : Nat) → Bool → Progress → (span : List Token) → span.length < n → Reading (List Element)
  | 0, _, _, _, h => absurd h (Nat.not_lt_zero _)
  | _ + 1, _, p, [], _ => return p.finish
  | n + 1, topLevel, p, t :: rest, h => do
    have shorter : rest.length < n := Nat.lt_of_succ_lt_succ h
    let read : SpanReader n := fun topLevel span h => do
      Element.collapse (← readElements words n topLevel .start span h)
    let (p, after) ← readToken words read topLevel p t rest shorter
    readElements words n topLevel p after.val (Nat.lt_of_le_of_lt after.property shorter)

end Expr

structure Parsed where
  root : Option Expr
  implied : Bool

namespace Parsed

def answer : String := "ANS"

def continues : List Element → Bool
  | .op symbol :: _ => 2 ≤ symbol.length
  | _ => false

/-- Reads a line. If `imply` is set, a line that begins with a longer operator continues from the last
answer, so that `** 2` stands for `ANS ** 2`. -/
def read (words : Vocabulary) (imply : Bool) (line : List Token) : Expr.Reading Parsed := do
  let elements ← Expr.readElements words (line.length + 1) true .start line (Nat.lt_succ_self _)
  let implied := imply && continues elements
  let elements := if implied then .node (.globalVar answer) :: elements else elements
  return ⟨← Element.collapse elements, implied⟩

def ofTokens (words : Vocabulary) (imply : Bool) (line : List Token) : Except ParseError Parsed :=
  ((read words imply line).run .empty).1

def ofText (words : Vocabulary) (imply : Bool) (text : String) : Except Error Parsed := do
  let line ← (Token.tokenize text).mapError .token
  (ofTokens words imply line).mapError .parse

end Parsed

end Calculator
