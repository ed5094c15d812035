import Calculator.Expr.Reader
import Calculator.Proofs.Token.Brackets
import Mathlib.Data.List.Forall2

/-! Reading a line token by token. The bound on the length of spans does not matter to what is read. -/

namespace Calculator

namespace Expr

section Agreement

variable {n m : Nat} {read : SpanReader n} {other : SpanReader m}
  (agree : ∀ topLevel span (h : span.length < n) (h' : span.length < m),
    read topLevel span h = other topLevel span h')
include agree

theorem readParameters_agree (inside : List Token) (h : inside.length < n) (h' : inside.length < m) :
    readParameters read inside h = readParameters other inside h' := by
  unfold readParameters
  refine congrArg (fun f => List.mapM f _) (funext fun span => ?_)
  rw [agree]

theorem readLambdaSpans_agree (inside : List Token) (h : inside.length < n) (h' : inside.length < m)
    (spans : List (Token.Span inside)) :
    readLambdaSpans read inside h spans = readLambdaSpans other inside h' spans := by
  induction spans with
  | nil => rfl
  | cons span spans ih =>
      unfold readLambdaSpans
      rw [agree, ih]

theorem readLambda_agree (opening : Token) (inside : List Token) (h : inside.length < n)
    (h' : inside.length < m) :
    readLambda read opening inside h = readLambda other opening inside h' := by
  unfold readLambda
  rw [readLambdaSpans_agree agree]

theorem readMacroBody_agree (name : String) (args : List Expr) (symbol : String) (body : List Token)
    (h : body.length < n) (h' : body.length < m) :
    readMacroBody read name args symbol body h = readMacroBody other name args symbol body h' := by
  unfold readMacroBody
  rw [agree]

theorem readArguments_agree (rest : List Token) (h : rest.length < n) (h' : rest.length < m) :
    readArguments read rest h = readArguments other rest h' := by
  cases rest with
  | nil => rfl
  | cons opening inner =>
      simp only [readArguments]
      split
      · refine bind_congr fun g => ?_
        exact congrArg (· >>= _) (readParameters_agree agree ..)
      · rfl

theorem readLambdaGroup_agree (rest : List Token) (h : rest.length < n) (h' : rest.length < m) :
    readLambdaGroup read rest h = readLambdaGroup other rest h' := by
  cases rest with
  | nil => rfl
  | cons opening inner =>
      simp only [readLambdaGroup]
      split
      · refine bind_congr fun g => ?_
        exact congrArg (· >>= _) (readLambda_agree agree ..)
      · rfl

theorem readToken_agree (words : Vocabulary) (topLevel : Bool) (p : Progress) (t : Token)
    (rest : List Token) (h : rest.length < n) (h' : rest.length < m) :
    readToken words read topLevel p t rest h = readToken words other topLevel p t rest h' := by
  unfold readToken readOperator readName readGroup
  rw [readArguments_agree agree rest h h', readLambdaGroup_agree agree rest h h']
  split
  · rfl
  · split
    · split
      · rfl
      · exact congrArg (· >>= _) (readMacroBody_agree agree ..)
    · rfl
    · refine bind_congr fun g => ?_
      exact congrArg (· >>= _) (agree ..)
    · rfl

end Agreement

theorem readElements_bound (words : Vocabulary) {n m : Nat} (topLevel : Bool) (p : Progress)
    (span : List Token) (h : span.length < n) (h' : span.length < m) :
    readElements words n topLevel p span h = readElements words m topLevel p span h' := by
  -- The induction is on one of the bounds; spans within it are shorter than the other one too.
  induction n generalizing m topLevel p span with
  | zero => exact absurd h (Nat.not_lt_zero _)
  | succ n ih =>
      cases m with
      | zero => exact absurd h' (Nat.not_lt_zero _)
      | succ m =>
          cases span with
          | nil => rfl
          | cons t rest =>
              have shorter : rest.length < n := Nat.lt_of_succ_lt_succ h
              have shorter' : rest.length < m := Nat.lt_of_succ_lt_succ h'
              have agree : ∀ topLevel span (h : span.length < n) (h' : span.length < m),
                  (do Element.collapse (← readElements words n topLevel .start span h) :
                      Reading (Option Expr)) =
                    (do Element.collapse (← readElements words m topLevel .start span h')) :=
                fun topLevel span h h' => by rw [ih topLevel .start span h h']
              simp only [readElements]
              rw [readToken_agree agree words topLevel p t rest shorter shorter']
              exact bind_congr fun (p, after) => ih topLevel p after.val _ _

namespace Reading

variable {α β : Type} {x y z : Reading α}

theorem run_bind (x : Reading α) (f : α → Reading β) (names : NameStack) :
    (x >>= f).run names =
      match x.run names with
      | (.ok a, after) => (f a).run after
      | (.error fault, after) => (.error fault, after) := by
  change ((ExceptT.bindCont f) =<< x.run) names = _
  cases result : x.run names with
  | mk outcome after =>
      change ExceptT.bindCont f (x.run names).1 (x.run names).2 = _
      rw [result]
      cases outcome with
      | ok a => rfl
      | error fault => rfl

theorem run_get (f : NameStack → Reading β) (names : NameStack) :
    (get >>= f).run names = (f names).run names := rfl

theorem run_except (result : Except ParseError α) (names : NameStack) :
    (liftM result : Reading α).run names = (result, names) := by
  cases result <;> rfl

theorem run_bind_ok {x : Reading α} {f : α → Reading β} {names : NameStack} {b : β} :
    ((x >>= f).run names).1 = .ok b ↔
      ∃ a after, x.run names = (.ok a, after) ∧ ((f a).run after).1 = .ok b := by
  rw [run_bind]
  split
  · rename_i a after runs
    rw [runs]
    constructor
    · exact fun ends => ⟨a, after, rfl, ends⟩
    · rintro ⟨_, _, ⟨⟩, ends⟩
      exact ends
  · rename_i fault after runs
    rw [runs]
    exact ⟨nofun, nofun⟩

def GoesOn (x y : Reading α) : Prop := ∀ names, ∃ after, x.run names = y.run after

def Gives (x : Reading α) (a : α) : Prop := GoesOn x (pure a)

theorem GoesOn.refl (x : Reading α) : GoesOn x x := fun names => ⟨names, rfl⟩

theorem GoesOn.of_eq (same : x = y) : GoesOn x y := same ▸ .refl x

theorem GoesOn.trans (first : GoesOn x y) (second : GoesOn y z) : GoesOn x z := by
  intro names
  obtain ⟨between, same⟩ := first names
  obtain ⟨after, same'⟩ := second between
  exact ⟨after, same.trans same'⟩

theorem GoesOn.bind (goesOn : GoesOn x y) (f : α → Reading β) : GoesOn (x >>= f) (y >>= f) := by
  intro names
  obtain ⟨after, same⟩ := goesOn names
  exact ⟨after, by rw [run_bind, run_bind, same]⟩

theorem Gives.bind {a : α} (gives : Gives x a) (f : α → Reading β) : GoesOn (x >>= f) (f a) := by
  have goesOn := GoesOn.bind gives f
  rwa [pure_bind] at goesOn

theorem GoesOn.get {y : Reading β} {f : NameStack → Reading β}
    (goesOn : ∀ names, GoesOn (f names) y) : GoesOn (MonadState.get >>= f) y :=
  fun names => goesOn names names

theorem declare_gives (name : String) (tag : NameTag) : Gives (declare name tag) () :=
  fun names => ⟨names.declare name tag, rfl⟩

theorem inFrame_gives {a : α} (gives : Gives x a) : Gives (inFrame x) a := by
  intro names
  obtain ⟨after, same⟩ := gives names.push
  refine ⟨after.pop, ?_⟩
  change ((x.run names.push).1, (x.run names.push).2.pop) = _
  rw [same]
  rfl

theorem mapM_gives {xs : List α} {f : α → Reading β} {ys : List β}
    (gives : List.Forall₂ (fun x y => Gives (f x) y) xs ys) : Gives (xs.mapM f) ys := by
  induction gives with
  | nil => exact GoesOn.refl _
  | cons first _ ih =>
      rw [List.mapM_cons]
      exact (first.bind _).trans (ih.bind _)

/-- Wherever reading `x` succeeds, its result has a property. -/
def Yields (x : Reading α) (Q : α → Prop) : Prop :=
  ∀ names a after, x.run names = (.ok a, after) → Q a

section Yields

variable {Q : α → Prop} {R : β → Prop}

theorem yields_pure {a : α} (holds : Q a) : Yields (pure a) Q := by
  intro names a' after result
  cases result
  exact holds

theorem yields_error (fault : ParseError) : Yields (throw fault) Q := by
  intro names a after result
  cases result

theorem yields_except {result : Except ParseError α} (holds : ∀ a, result = .ok a → Q a) :
    Yields (liftM result) Q := by
  intro names a after run
  cases result with
  | error fault => cases run
  | ok value =>
      cases run
      exact holds a rfl

theorem yields_any (x : Reading α) : Yields x fun _ => True := fun _ _ _ _ => trivial

theorem Yields.bind {f : α → Reading β} (first : Yields x Q) (rest : ∀ a, Q a → Yields (f a) R) :
    Yields (x >>= f) R := by
  intro names b after result
  rw [run_bind] at result
  cases between : x.run names with
  | mk outcome names' =>
      rw [between] at result
      cases outcome with
      | error fault => cases result
      | ok a => exact rest a (first names a names' between) names' b after result

theorem Yields.inFrame (yields : Yields x Q) : Yields (inFrame x) Q := by
  intro names a after result
  have inner : (x.run names.push).1 = .ok a := (Prod.mk.inj result).1
  exact yields names.push a (x.run names.push).2 (Prod.ext inner rfl)

theorem Yields.mapM {γ : Type} {xs : List γ} {f : γ → Reading α} (each : ∀ x ∈ xs, Yields (f x) Q) :
    Yields (xs.mapM f) fun ys => ∀ y ∈ ys, Q y := by
  induction xs with
  | nil => exact yields_pure (List.forall_mem_nil _)
  | cons first rest ih =>
      obtain ⟨here, others⟩ := List.forall_mem_cons.mp each
      rw [List.mapM_cons]
      refine here.bind fun y holds => ?_
      exact (ih others).bind fun ys all => yields_pure (List.forall_mem_cons.mpr ⟨holds, all⟩)

theorem Yields.mapM_each {γ : Type} {S : γ → α → Prop} {xs : List γ} {f : γ → Reading α}
    (each : ∀ x ∈ xs, Yields (f x) (S x)) :
    Yields (xs.mapM f) fun ys => ys.length = xs.length ∧ ∀ x ∈ xs, ∃ y ∈ ys, S x y := by
  induction xs with
  | nil => exact yields_pure ⟨rfl, nofun⟩
  | cons first rest ih =>
      obtain ⟨here, others⟩ := List.forall_mem_cons.mp each
      rw [List.mapM_cons]
      refine here.bind fun y holds => (ih others).bind fun ys read => yields_pure ?_
      obtain ⟨counts, all⟩ := read
      refine ⟨by simp [counts], List.forall_mem_cons.mpr ⟨⟨y, .head _, holds⟩, fun x mem => ?_⟩⟩
      obtain ⟨z, found, holds⟩ := all x mem
      exact ⟨z, .tail _ found, holds⟩

end Yields

end Reading

theorem length_lt_bound (span : List Token) : span.length < span.length + 1 := Nat.lt_succ_self _

def elementsOf (words : Vocabulary) (topLevel : Bool) (p : Progress) (span : List Token) :
    Reading (List Element) :=
  readElements words (span.length + 1) topLevel p span (Nat.lt_add_one _)

def expressionOf (words : Vocabulary) (topLevel : Bool) (span : List Token) :
    Reading (Option Expr) := do
  Element.collapse (← elementsOf words topLevel .start span)

def parameterOf (words : Vocabulary) (span : List Token) : Reading Expr := do
  match ← expressionOf words false span with
  | some e => return e
  | none => throw .emptyParameter

def reader (words : Vocabulary) (n : Nat) : SpanReader n := fun topLevel span _ =>
  expressionOf words topLevel span

section Equations

variable {words : Vocabulary} {topLevel : Bool} {p : Progress} {t : Token} {rest : List Token}

theorem elementsOf_nil : elementsOf words topLevel p [] = pure p.finish := rfl

theorem elementsOf_cons :
    elementsOf words topLevel p (t :: rest) =
      readToken words (reader words (rest.length + 1)) topLevel p t rest (Nat.lt_succ_self _) >>=
        fun (p, after) => elementsOf words topLevel p after.val := by
  have agree : ∀ topLevel span (h : span.length < rest.length + 1) (h' : span.length < rest.length + 1),
      (do Element.collapse (← readElements words (rest.length + 1) topLevel .start span h) :
          Reading (Option Expr)) = reader words (rest.length + 1) topLevel span h' := by
    intro topLevel span h h'
    rw [readElements_bound words topLevel .start span h (Nat.lt_succ_self _)]
    rfl
  unfold elementsOf
  simp only [List.length_cons, readElements]
  rw [readToken_agree agree words topLevel p t rest _ (Nat.lt_succ_self _)]
  exact bind_congr fun (p, after) => readElements_bound words topLevel p after.val _ _

theorem spans_val (line : List Token) :
    (Token.parameterSpans line).map Subtype.val = Token.parameters line := by
  unfold Token.parameterSpans
  rw [List.map_map]
  exact List.attach_map_subtype_val _

theorem readParameters_reader {n : Nat} (inside : List Token) (h : inside.length < n) :
    readParameters (reader words n) inside h = (Token.parameters inside).mapM (parameterOf words) := by
  rw [← spans_val, List.mapM_map]
  rfl

open Reading

theorem literal?_eq_none (t : Token)
    (kind : t.kind = .operator ∨ t.kind = .name ∨ t.kind = .openParen ∨ t.kind = .closeParen) :
    t.literal? = none := by
  rcases kind with kind | kind | kind | kind
  · simp [Token.literal?, kind]
  · simp [Token.literal?, kind]
  · simp [Token.literal?, kind]
  · simp [Token.literal?, kind]

theorem flat_of_literal? {t : Token} {result : Except ParseError Expr} (literal : t.literal? = some result) :
    t.Flat := by
  constructor
  · intro kind
    rw [literal?_eq_none t (.inr (.inr (.inl kind)))] at literal
    cases literal
  · intro kind
    rw [literal?_eq_none t (.inr (.inr (.inr kind)))] at literal
    cases literal

theorem elementsOf_literal {e : Expr} (literal : t.literal? = some (.ok e)) :
    elementsOf words topLevel p (t :: rest) = elementsOf words topLevel (p.pushNode e t.kind) rest := by
  rw [elementsOf_cons, readToken, literal]
  rfl

theorem elementsOf_operator (kind : t.kind = .operator) (plain : p.definition? t.text = none) :
    elementsOf words topLevel p (t :: rest) = elementsOf words topLevel (p.pushOp t.text) rest := by
  rw [elementsOf_cons, readToken, literal?_eq_none t (.inl kind), kind]
  simp only [readOperator, plain]
  rfl

theorem declareAll_gives (names : List String) :
    Gives (forIn names PUnit.unit fun name _ => do
      declare name .localVar
      pure (.yield PUnit.unit)) PUnit.unit := by
  induction names with
  | nil => exact .refl _
  | cons name names ih =>
      rw [List.forIn_cons, bind_assoc]
      exact ((declare_gives name .localVar).bind _).trans ih

theorem readMacroBody_gives {n : Nat} {read : SpanReader n} {body : List Token} {h : body.length < n}
    {e : Expr} (gives : (read false body h).Gives (some e)) (name : String) (args : List Expr)
    (symbol : String) : (readMacroBody read name args symbol body h).Gives e := by
  unfold readMacroBody
  refine ((declare_gives _ _).bind _).trans ?_
  refine ((inFrame_gives (a := some e) ?_).bind _).trans (.refl _)
  exact ((declareAll_gives _).bind fun _ => read false body h).trans gives

theorem elementsOf_definition {name : String} {args : List Expr} {body : Expr}
    (kind : t.kind = .operator) (defines : p.definition? t.text = some (name, args))
    (gives : (expressionOf words false (Token.splitBody 0 rest).1).Gives (some body)) :
    (elementsOf words topLevel p (t :: rest)).GoesOn
      (elementsOf words topLevel ((p.pushOp t.text).pushNode body .name) (Token.splitBody 0 rest).2) := by
  rw [elementsOf_cons, readToken, literal?_eq_none t (.inl kind), kind]
  simp only [readOperator, defines, bind_assoc, pure_bind]
  exact (readMacroBody_gives gives name args t.text).bind _

theorem readToken_open {n : Nat} {read : SpanReader n} {h : rest.length < n}
    (kind : t.kind = .openParen) :
    readToken words read topLevel p t rest h = readGroup read topLevel p t rest h := by
  rw [readToken, literal?_eq_none t (.inr (.inr (.inl kind))), kind]

theorem elementsOf_ungrouped {fault : ParseError} (kind : t.kind = .openParen)
    (ungrouped : Token.group t rest = .error fault) (names : NameStack) :
    (elementsOf words topLevel p (t :: rest)).run names = (.error fault, names) := by
  rw [elementsOf_cons, readToken_open kind, readGroup, ungrouped]
  rfl

theorem elementsOf_group {close : Token} {inside more : List Token} (kind : t.kind = .openParen)
    (closes : Token.Closes 0 rest inside close more)
    (matching : Token.closingFor t.bracket = close.bracket) (names : NameStack) :
    (elementsOf words topLevel p (t :: rest)).run names =
      match (expressionOf words topLevel inside).run names with
      | (.ok (some e), after) =>
        (elementsOf words topLevel (p.pushProduct.pushNode e .closeParen) more).run after
      | (.ok none, after) => (.error (.emptyBrackets t.bracket close.bracket), after)
      | (.error fault, after) => (.error fault, after) := by
  obtain ⟨g, grouped, rfl, rfl, rfl⟩ := Token.group_eq closes matching
  rw [elementsOf_cons, readToken_open kind, readGroup, grouped]
  change (expressionOf words topLevel g.inside >>= _ >>= _).run names = _
  rw [run_bind, run_bind]
  cases (expressionOf words topLevel g.inside).run names with
  | mk outcome after =>
      cases outcome with
      | error fault => rfl
      | ok read =>
          cases read with
          | none => rfl
          | some e => rfl

theorem pushProduct_free (free : p.value = none) : p.pushProduct = p := by
  simp [Progress.pushProduct, free]

section Name

variable {name : String} {opening close : Token} {inner inside more : List Token}

theorem readArguments_none {n : Nat} {read : SpanReader n} {h : rest.length < n}
    (none : Name.opensCall rest = false) :
    readArguments read rest h = pure ([], ⟨rest, Nat.le_refl _⟩) := by
  cases rest with
  | nil => rfl
  | cons t rest =>
      have other : t.kind ≠ .openParen := by simpa [Name.opensCall] using none
      rw [readArguments, if_neg other]

theorem readArguments_gives {n : Nat} {args : List Expr} {h : (opening :: inner).length < n}
    (kind : opening.kind = .openParen) (closes : Token.Closes 0 inner inside close more)
    (matching : Token.closingFor opening.bracket = close.bracket)
    (gives : List.Forall₂ (fun span e => (parameterOf words span).Gives e)
      (Token.parameters inside) args) :
    ∃ after : Token.Span (opening :: inner), after.val = more ∧
      (readArguments (reader words n) (opening :: inner) h).Gives (args, after) := by
  obtain ⟨g, grouped, rfl, rfl, rfl⟩ := Token.group_eq closes matching
  have shorter := g.shorter
  have fits : g.inside.length < n := by
    simp only [List.length_cons] at h
    omega
  have parameters : (readParameters (reader words n) g.inside fits).Gives args := by
    rw [readParameters_reader]
    exact mapM_gives gives
  rw [readArguments, if_pos kind, grouped]
  exact ⟨_, rfl, parameters.bind _⟩

theorem elementsOf_name (name : String) :
    elementsOf words topLevel p (⟨.name, name⟩ :: rest) =
      readName words (reader words (rest.length + 1)) topLevel p name rest (Nat.lt_succ_self _) >>=
        fun (p, after) => elementsOf words topLevel p after.val :=
  elementsOf_cons

section Global

variable (classified : ∀ names, Name.classify words names topLevel name rest = .globalVar)
include classified

theorem elementsOf_globalVar (named : (Name.bare name).isEmpty = false) :
    GoesOn (elementsOf words topLevel p (⟨.name, name⟩ :: rest))
      (elementsOf words topLevel (p.pushProduct.pushNode (.globalVar (Name.bare name)) .name) rest) := by
  rw [elementsOf_name, readName, bind_assoc]
  refine .get fun names => ?_
  simp only [classified names, named, reduceCtorEq, if_false, Bool.false_eq_true]
  exact .refl _

theorem elementsOf_pointer (bare : (Name.bare name).isEmpty = true) :
    GoesOn (elementsOf words topLevel p (⟨.name, name⟩ :: rest))
      (elementsOf words topLevel (p.pushProduct.pushOp "$") rest) := by
  rw [elementsOf_name, readName, bind_assoc]
  refine .get fun names => ?_
  simp only [classified names, bare, reduceCtorEq, if_false, if_true]
  exact .refl _

end Global

section Local

variable (classified : ∀ names, Name.classify words names topLevel name rest = .localVar)
include classified

theorem elementsOf_localVar (named : (Name.bare name).isEmpty = false) :
    GoesOn (elementsOf words topLevel p (⟨.name, name⟩ :: rest))
      (elementsOf words topLevel (p.pushProduct.pushNode (.localVar (Name.bare name)) .name) rest) := by
  rw [elementsOf_name, readName, bind_assoc]
  refine .get fun names => ?_
  simp only [classified names, named, reduceCtorEq, if_false, Bool.false_eq_true, bind_assoc]
  exact (declare_gives _ _).bind _

theorem elementsOf_localPointer (bare : (Name.bare name).isEmpty = true) :
    GoesOn (elementsOf words topLevel p (⟨.name, name⟩ :: rest))
      (elementsOf words topLevel (p.pushProduct.pushOp "#") rest) := by
  rw [elementsOf_name, readName, bind_assoc]
  refine .get fun names => ?_
  simp only [classified names, bare, reduceCtorEq, if_false, if_true]
  exact .refl _

end Local

section Macro

variable (classified : ∀ names, Name.classify words names topLevel name rest = .macroName)
include classified

theorem elementsOf_macroRef {args : List Expr} {after : Token.Span rest}
    (named : (Name.bare name).isEmpty = false)
    (arguments : (readArguments (reader words (rest.length + 1)) rest (Nat.lt_succ_self _)).Gives
      (args, after)) :
    GoesOn (elementsOf words topLevel p (⟨.name, name⟩ :: rest))
      (elementsOf words topLevel (p.pushProduct.pushNode
        (.macroRef (Name.bare name) args (args.all (·.alias?.isSome))) .name) after.val) := by
  rw [elementsOf_name, readName, bind_assoc]
  refine .get fun names => ?_
  simp only [classified names, named, reduceCtorEq, if_false, Bool.false_eq_true, bind_assoc]
  exact arguments.bind _

theorem elementsOf_lambda {e : Expr} {after : Token.Span rest}
    (bare : (Name.bare name).isEmpty = true)
    (lambda : (readLambdaGroup (reader words (rest.length + 1)) rest (Nat.lt_succ_self _)).Gives
      (e, after)) :
    GoesOn (elementsOf words topLevel p (⟨.name, name⟩ :: rest))
      (elementsOf words topLevel (p.pushProduct.pushNode e .closeParen) after.val) := by
  rw [elementsOf_name, readName, bind_assoc]
  refine .get fun names => ?_
  simp only [classified names, bare, reduceCtorEq, if_false, if_true, bind_assoc]
  exact lambda.bind _

end Macro

theorem elementsOf_call {args : List Expr} {after : Token.Span rest}
    (classified : ∀ names, Name.classify words names topLevel name rest = .function)
    (free : p.value = none)
    (arguments : (readArguments (reader words (rest.length + 1)) rest (Nat.lt_succ_self _)).Gives
      (args, after)) :
    GoesOn (elementsOf words topLevel p (⟨.name, name⟩ :: rest))
      (elementsOf words topLevel (p.pushNode (.call name args) .closeParen) after.val) := by
  rw [elementsOf_name, readName, bind_assoc]
  refine .get fun names => ?_
  simp only [classified names, free, refusedFactor?, if_true, bind_assoc, Progress.pushProduct,
    Option.isSome_none, Bool.false_eq_true, if_false]
  exact arguments.bind _

end Name

/-- A span is read as a parameter of a lambda, whatever kind of name the parameter is. -/
def ReadsAlias (words : Vocabulary) (span : List Token) (name : String) : Prop :=
  ∀ names, ∃ e after, (expressionOf words false span).run names = (.ok e, after) ∧
    (e.getD (.localVar "_")).alias? = some name

section Lambda

variable {n : Nat} {inside last : List Token} {front : List (List Token)} {aliases : List String}
  {body : Expr} (names : List.Forall₂ (ReadsAlias words) front aliases)
  (gives : (expressionOf words false last).Gives (some body))
include names gives

theorem readLambdaSpans_gives {h : inside.length < n} {spans : List (Token.Span inside)}
    (split : spans.map Subtype.val = front ++ [last]) :
    (readLambdaSpans (reader words n) inside h spans).Gives (some (aliases, body)) := by
  induction names generalizing spans with
  | nil =>
      obtain ⟨span, spans, rfl, rfl, empty⟩ := List.map_eq_cons_iff.mp split
      obtain rfl := List.map_eq_nil_iff.mp empty
      unfold readLambdaSpans
      exact gives.bind _
  | @cons first name front aliases alias_ _ ih =>
      obtain ⟨span, spans, rfl, rfl, others⟩ := List.map_eq_cons_iff.mp split
      have more : spans.isEmpty = false := by
        cases spans with
        | nil => simp at others
        | cons => rfl
      intro known
      obtain ⟨e, after, reads, named⟩ := alias_ known
      have fits : span.val.length < n := Nat.lt_of_le_of_lt span.property h
      have reads : (reader words n false span.val fits).run known = (.ok e, after) := reads
      unfold readLambdaSpans
      rw [run_bind, reads]
      simp only [more, named, Bool.false_eq_true, if_false]
      exact (((declare_gives name .localVar).bind _).trans ((ih others).bind _)) after

theorem readLambdaGroup_gives {opening close : Token} {inner more : List Token}
    {h : (opening :: inner).length < n} (kind : opening.kind = .openParen)
    (closes : Token.Closes 0 inner inside close more)
    (matching : Token.closingFor opening.bracket = close.bracket)
    (split : Token.parameters inside = front ++ [last]) :
    ∃ after : Token.Span (opening :: inner), after.val = more ∧
      (readLambdaGroup (reader words n) (opening :: inner) h).Gives (.lambda aliases body, after) := by
  obtain ⟨g, grouped, rfl, rfl, rfl⟩ := Token.group_eq closes matching
  have shorter := g.shorter
  have fits : g.inside.length < n := by
    simp only [List.length_cons] at h
    omega
  have lambda : (readLambda (reader words n) opening g.inside fits).Gives (.lambda aliases body) :=
    (inFrame_gives (readLambdaSpans_gives names gives (spans_val g.inside ▸ split))).bind _
  rw [readLambdaGroup, if_pos kind, grouped]
  exact ⟨_, rfl, lambda.bind _⟩

end Lambda

end Equations

end Expr

namespace Parsed

open Calculator.Expr Calculator.Expr.Reading

variable {words : Vocabulary} {imply : Bool} {line : List Token} {e : Expr}

def ofElements (imply : Bool) (elements : List Element) : Except ParseError Parsed :=
  (Element.collapse (if imply && continues elements then .node (.globalVar answer) :: elements
    else elements)).map fun root => ⟨root, imply && continues elements⟩

theorem ofTokens_run (words : Vocabulary) (imply : Bool) (line : List Token) :
    ofTokens words imply line =
      ((elementsOf words true .start line).run .empty).1 >>= ofElements imply := by
  change ((elementsOf words true .start line >>= _).run .empty).1 = _
  rw [run_bind]
  cases (elementsOf words true .start line).run .empty with
  | mk outcome names =>
      cases outcome with
      | error fault => rfl
      | ok elements =>
          change _ = ofElements imply elements
          unfold ofElements
          dsimp only
          generalize Element.collapse _ = collapsed
          cases collapsed <;> rfl

theorem ofTokens_ok {parsed : Parsed} :
    ofTokens words imply line = .ok parsed ↔ ∃ elements,
      ((elementsOf words true .start line).run .empty).1 = .ok elements ∧
        ofElements imply elements = .ok parsed := by
  rw [ofTokens_run]
  cases ((elementsOf words true .start line).run .empty).1 with
  | error fault => exact ⟨nofun, nofun⟩
  | ok elements =>
      constructor
      · exact fun stands => ⟨elements, rfl, stands⟩
      · rintro ⟨_, ⟨⟩, stands⟩
        exact stands

theorem ofTokens_eq {elements : List Element} {names : NameStack}
    (reads : (elementsOf words true .start line).run .empty = (.ok elements, names))
    (starts : (imply && continues elements) = false) (collapsed : Element.collapse elements = .ok (some e)) :
    ofTokens words imply line = .ok ⟨some e, false⟩ := by
  change ((elementsOf words true .start line >>= _).run .empty).1 = _
  rw [run_bind, reads]
  simp only [starts, Bool.false_eq_true, if_false, collapsed]
  rfl

theorem of_ofTokens (parsed : ofTokens words imply line = .ok ⟨some e, false⟩) :
    ∃ elements names, (elementsOf words true .start line).run .empty = (.ok elements, names) ∧
      Element.collapse elements = .ok (some e) := by
  change ((elementsOf words true .start line >>= _).run .empty).1 = _ at parsed
  rw [run_bind] at parsed
  cases result : (elementsOf words true .start line).run .empty with
  | mk outcome names =>
      cases outcome with
      | error fault => simp [result] at parsed
      | ok elements =>
          refine ⟨elements, names, rfl, ?_⟩
          simp only [result] at parsed
          cases implied : imply && continues elements with
          | true =>
              simp only [implied] at parsed
              generalize Element.collapse _ = collapsed at parsed
              cases collapsed with
              | error fault => cases parsed
              | ok root => cases parsed
          | false =>
              simp only [implied, Bool.false_eq_true, if_false] at parsed
              cases collapsed : Element.collapse elements with
              | error fault =>
                  rw [collapsed] at parsed
                  cases parsed
              | ok root =>
                  rw [collapsed] at parsed
                  cases parsed
                  rfl

theorem ofText_eq {text : String} {parsed : Parsed} (tokenized : Token.tokenize text = .ok line)
    (reads : ofTokens words imply line = .ok parsed) : ofText words imply text = .ok parsed := by
  rw [ofText, tokenized]
  change (ofTokens words imply line).mapError Error.parse = _
  rw [reads]
  rfl

theorem of_ofText {text : String} {parsed : Parsed} (reads : ofText words imply text = .ok parsed) :
    ∃ line, Token.tokenize text = .ok line ∧ ofTokens words imply line = .ok parsed := by
  rw [ofText] at reads
  cases tokenized : Token.tokenize text with
  | error fault =>
      rw [tokenized] at reads
      cases reads
  | ok line =>
      rw [tokenized] at reads
      change (ofTokens words imply line).mapError Error.parse = _ at reads
      cases parses : ofTokens words imply line with
      | error fault =>
          rw [parses] at reads
          cases reads
      | ok root =>
          rw [parses] at reads
          cases reads
          exact ⟨line, rfl, parses⟩

theorem ofText_ne_runtime (text : String) (fault : RuntimeError) :
    ofText words imply text ≠ .error (.runtime fault) := by
  intro reads
  rw [ofText] at reads
  cases tokenized : Token.tokenize text with
  | error error =>
      rw [tokenized] at reads
      cases reads
  | ok line =>
      rw [tokenized] at reads
      change (ofTokens words imply line).mapError Error.parse = _ at reads
      cases parses : ofTokens words imply line with
      | error error =>
          rw [parses] at reads
          cases reads
      | ok root =>
          rw [parses] at reads
          cases reads

end Parsed

end Calculator
