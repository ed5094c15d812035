import Calculator.Proofs.Correspondence
import Calculator.Proofs.Expr.Reading
import Calculator.Proofs.Limit

/-! Two readings in lockstep.

A lockstep says which lines, names, expressions and readings belong together. Two lines that do are read
token by token to expressions that do. What a reading depends on is so shown on the lines alone. -/

namespace Calculator

namespace Expr

open Token

theorem Layer.eq {e e' : Expr} (form : Layer Eq Eq e e') : e = e' := by
  cases form with
  | constant | quote => rfl
  | globalVar names | localVar names => rw [names]
  | macroRef _ names parts | call names parts =>
      rw [List.forall₂_eq_eq_eq] at parts
      rw [names, parts]
  | lambda names parts =>
      rw [List.forall₂_eq_eq_eq] at names
      rw [names, parts]
  | pointer parts | localPointer parts | unary _ parts => rw [parts]
  | assign lefts rights | binary _ lefts rights => rw [lefts, rights]

theorem alias_rel_of_eq {e e' : Expr} (same : e = e') : Option.Rel Eq e.alias? e'.alias? := by
  subst same
  cases e.alias? with
  | none => exact .none
  | some name => exact .some rfl

/-- A relation between readings that doing one thing after the other keeps. -/
structure Reading.Congruence where
  Rel : {α β : Type} → (α → β → Prop) → Reading α → Reading β → Prop
  known : NameStack → NameStack → Prop
  value {α β : Type} {r : α → β → Prop} {a : α} {b : β} : r a b → Rel r (pure a) (pure b)
  fault {α β : Type} {r : α → β → Prop} (error : ParseError) : Rel r (throw error) (throw error)
  andThen {α β α' β' : Type} {r : α → β → Prop} {q : α' → β' → Prop} {x : Reading α} {y : Reading β}
    {f : α → Reading α'} {g : β → Reading β'} :
    Rel r x y → (∀ a b, r a b → Rel q (f a) (g b)) → Rel q (x >>= f) (y >>= g)
  get {α β : Type} {r : α → β → Prop} {f : NameStack → Reading α} {g : NameStack → Reading β} :
    (∀ names names', known names names' → Rel r (f names) (g names')) →
      Rel r (MonadState.get >>= f) (MonadState.get >>= g)
  inFrame {α β : Type} {r : α → β → Prop} {x : Reading α} {y : Reading β} :
    Rel r x y → Rel r (Reading.inFrame x) (Reading.inFrame y)

namespace Reading.Congruence

variable {C : Congruence} {α β : Type} {r : α → β → Prop}

theorem mapM {γ γ' : Type} {p : γ → γ' → Prop} {f : γ → Reading α} {g : γ' → Reading β} {xs : List γ}
    {ys : List γ'} (related : List.Forall₂ p xs ys) (each : ∀ x y, p x y → C.Rel r (f x) (g y)) :
    C.Rel (List.Forall₂ r) (xs.mapM f) (ys.mapM g) := by
  induction related with
  | nil => exact C.value .nil
  | cons first _ ih =>
      rw [List.mapM_cons, List.mapM_cons]
      apply C.andThen (each _ _ first)
      intro a b value
      apply C.andThen ih
      intro as bs values
      exact C.value (.cons value values)

theorem except {x : Except ParseError α} {y : Except ParseError β} (results : Results Eq r x y) :
    C.Rel r (liftM x) (liftM y) := by
  cases results with
  | value values => exact C.value values
  | fault same => exact same ▸ C.fault _

end Reading.Congruence

theorem spans_alike {l l' : List Token} (lines : l = l') :
    List.Forall₂ (fun s s' => s.val = s'.val) (parameterSpans l) (parameterSpans l') :=
  lines ▸ List.forall₂_same.mpr fun _ _ => rfl

theorem opensCall_alike {l l' : List Token} (lines : l = l') : Name.opensCall l = Name.opensCall l' :=
  congrArg Name.opensCall lines

theorem group_alike {opening opening' : Token} {l l' : List Token}
    (lines : opening :: l = opening' :: l') :
    opening = opening' ∧ Results Eq (GroupsAlike Eq Eq) (group opening l) (group opening' l') := by
  obtain ⟨rfl, rfl⟩ := List.cons.inj lines
  refine ⟨rfl, ?_⟩
  cases group opening l with
  | ok g => exact .value ⟨rfl, rfl, rfl⟩
  | error fault => exact .fault rfl

theorem definition_alike (definition : Option (String × List Expr)) :
    Option.Rel (fun d d' => d.1 = d'.1 ∧ List.Forall₂ Eq d.2 d'.2) definition definition := by
  cases definition with
  | none => exact .none
  | some definition => exact .some ⟨rfl, List.forall₂_same.mpr fun _ _ => rfl⟩

theorem root_alike (root : Option Expr) : Option.Rel Eq root root := by
  cases root with
  | none => exact .none
  | some e => exact .some rfl

/-- The symbols that reading itself puts between operands. -/
def readingSigns : List String := [Operator.coefficient, "$", "#"]

/-- What belongs together in two readings. -/
structure Lockstep extends Reading.Congruence where
  line : List Token → List Token → Prop
  span : List Token → List Token → Prop
  level : Bool → Bool → Prop
  name : String → String → Prop
  expr : Expr → Expr → Prop
  going : Progress → Progress → Prop
  declare {n n' : String} (names : name n n') (tag : NameTag) :
    Rel (fun _ _ => True) (Reading.declare n tag) (Reading.declare n' tag)
  below : level false false
  expr_refl (e : Expr) : expr e e
  layer {e e' : Expr} (form : Layer name expr e e') : expr e e'
  alias_rel {e e' : Expr} (exprs : expr e e') : Option.Rel name e.alias? e'.alias?
  invalidAlias {α β : Type} {r : α → β → Prop} {e e' : Expr} (exprs : expr e e') :
    Rel r (throw (.invalidAlias e.describe)) (throw (.invalidAlias e'.describe))
  spans {l l' : List Token} (lines : span l l') :
    List.Forall₂ (fun s s' => span s.val s'.val) (parameterSpans l) (parameterSpans l')
  opensCall {l l' : List Token} (lines : line l l') : Name.opensCall l = Name.opensCall l'
  groups {opening opening' : Token} {l l' : List Token} (lines : line (opening :: l) (opening' :: l'))
    (opens : opening.kind = .openParen) : opening = opening' ∧
      Rel (GroupsAlike line span) (liftM (group opening l)) (liftM (group opening' l'))
  value_eq {p p' : Progress} (goes : going p p') : p.value = p'.value
  pushNode {p p' : Progress} (goes : going p p') {e e' : Expr} (exprs : expr e e') (last : TokenKind) :
    going (p.pushNode e last) (p'.pushNode e' last)
  pushSign {p p' : Progress} (goes : going p p') {symbol : String} (sign : symbol ∈ readingSigns) :
    going (p.pushOp symbol) (p'.pushOp symbol)

theorem exists_opening {rest : List Token} (opens : Name.opensCall rest = true) :
    ∃ opening inner, rest = opening :: inner ∧ opening.kind = .openParen := by
  cases rest with
  | nil => cases opens
  | cons opening inner => exact ⟨opening, inner, rfl, by simpa [Name.opensCall] using opens⟩

theorem readLambdaGroup_none {n : Nat} {read : SpanReader n} {rest : List Token} {h : rest.length < n}
    (none : Name.opensCall rest = false) :
    readLambdaGroup read rest h = throw .bareLambdaSigil := by
  cases rest with
  | nil => rfl
  | cons t rest =>
      have other : t.kind ≠ .openParen := by simpa [Name.opensCall] using none
      rw [readLambdaGroup, if_neg other]

theorem readToken_operator {words : Vocabulary} {n : Nat} {read : SpanReader n} {topLevel : Bool}
    {p : Progress} {t : Token} {rest : List Token} {h : rest.length < n} (kind : t.kind = .operator) :
    readToken words read topLevel p t rest h = readOperator read p t.text rest h := by
  rw [readToken, literal?_eq_none t (.inl kind), kind]

namespace Lockstep

variable {C : Lockstep}

theorem pushProduct {p p' : Progress} (goes : C.going p p') :
    C.going p.pushProduct p'.pushProduct := by
  unfold Progress.pushProduct
  rw [C.value_eq goes]
  split
  · exact C.pushSign goes (.head _)
  · exact goes

theorem all_alias_eq {args args' : List Expr} (parts : List.Forall₂ C.expr args args') :
    (args.all fun arg => arg.alias?.isSome) = args'.all fun arg => arg.alias?.isSome := by
  induction parts with
  | nil => rfl
  | @cons arg arg' args args' first _ ih =>
      have aliases := C.alias_rel first
      rw [List.all_cons, List.all_cons, ih]
      generalize arg.alias? = name at aliases ⊢
      generalize arg'.alias? = name' at aliases ⊢
      cases aliases <;> rfl

theorem aliases {args args' : List Expr} (parts : List.Forall₂ C.expr args args') :
    List.Forall₂ C.name (args.filterMap alias?) (args'.filterMap alias?) :=
  List.rel_filterMap (R := C.expr) (P := C.name) (fun _ _ exprs => C.alias_rel exprs) parts

theorem declareAll {names names' : List String} (related : List.Forall₂ C.name names names') :
    C.Rel (fun _ _ => True)
      (forIn names PUnit.unit fun name _ => do
        Reading.declare name .localVar
        pure (.yield PUnit.unit))
      (forIn names' PUnit.unit fun name _ => do
        Reading.declare name .localVar
        pure (.yield PUnit.unit)) := by
  induction related with
  | nil => exact C.value trivial
  | cons first _ ih =>
      rw [List.forIn_cons, List.forIn_cons, bind_assoc, bind_assoc]
      exact C.andThen (C.declare first .localVar) fun _ _ _ => ih

theorem opening_cases {rest rest' : List Token} (lines : C.line rest rest') :
    (∃ opening inner inner', rest = opening :: inner ∧ rest' = opening :: inner' ∧
      opening.kind = .openParen ∧
      C.Rel (GroupsAlike C.line C.span) (liftM (group opening inner)) (liftM (group opening inner'))) ∨
    Name.opensCall rest = false ∧ Name.opensCall rest' = false := by
  have same := C.opensCall lines
  cases opens : Name.opensCall rest with
  | false => exact .inr ⟨rfl, same ▸ opens⟩
  | true =>
      obtain ⟨opening, inner, rfl, kind⟩ := exists_opening opens
      obtain ⟨opening', inner', rfl, _⟩ := exists_opening (same ▸ opens)
      obtain ⟨rfl, groups⟩ := C.groups lines kind
      exact .inl ⟨opening, inner, inner', rfl, rfl, kind, groups⟩

def Ongoing (C : Lockstep) {rest rest' : List Token} (a : Progress × Span rest)
    (a' : Progress × Span rest') : Prop := C.going a.1 a'.1 ∧ C.line a.2.val a'.2.val

section Readers

variable {n n' : Nat} {read : SpanReader n} {read' : SpanReader n'}
  (alike : ∀ topLevel topLevel' span span' h h', C.level topLevel topLevel' → C.span span span' →
    C.Rel (Option.Rel C.expr) (read topLevel span h) (read' topLevel' span' h'))
include alike

theorem readParameters {inside inside' : List Token} (lines : C.span inside inside')
    (h : inside.length < n) (h' : inside'.length < n') :
    C.Rel (List.Forall₂ C.expr) (readParameters read inside h) (readParameters read' inside' h') := by
  apply Reading.Congruence.mapM (C.spans lines)
  intro span span' spans
  apply C.andThen (alike false false span.val span'.val _ _ C.below spans)
  intro result result' results
  cases results with
  | none => exact C.fault _
  | some exprs => exact C.value exprs

theorem readLambdaSpans {inside inside' : List Token} (h : inside.length < n)
    (h' : inside'.length < n') {spans : List (Span inside)} {spans' : List (Span inside')}
    (lines : List.Forall₂ (fun s s' => C.span s.val s'.val) spans spans') :
    C.Rel (Option.Rel fun l l' => List.Forall₂ C.name l.1 l'.1 ∧ C.expr l.2 l'.2)
      (readLambdaSpans read inside h spans) (readLambdaSpans read' inside' h' spans') := by
  induction lines with
  | nil => exact C.value .none
  | @cons span span' spans spans' first others ih =>
      unfold Expr.readLambdaSpans
      apply C.andThen (alike false false span.val span'.val _ _ C.below first)
      intro result result' results
      have parameters : C.expr (result.getD (.localVar "_")) (result'.getD (.localVar "_")) := by
        cases results with
        | none => exact C.expr_refl _
        | some exprs => exact exprs
      have aliases := C.alias_rel parameters
      have ends : spans.isEmpty = spans'.isEmpty := by cases others <;> rfl
      dsimp only
      rw [ends]
      split
      · exact C.value (.some ⟨.nil, parameters⟩)
      · generalize (result.getD (.localVar "_")).alias? = name at aliases ⊢
        generalize (result'.getD (.localVar "_")).alias? = name' at aliases ⊢
        cases aliases with
        | none => exact C.invalidAlias parameters
        | some names =>
            apply C.andThen (C.declare names .localVar)
            intro _ _ _
            apply C.andThen ih
            intro lambda lambda' lambdas
            cases lambdas with
            | none => exact C.value .none
            | some parts => exact C.value (.some ⟨.cons names parts.1, parts.2⟩)

theorem readLambda (opening : Token) {inside inside' : List Token} (lines : C.span inside inside')
    (h : inside.length < n) (h' : inside'.length < n') :
    C.Rel C.expr (readLambda read opening inside h) (readLambda read' opening inside' h') := by
  apply C.andThen (C.inFrame (readLambdaSpans alike h h' (C.spans lines)))
  intro lambda lambda' lambdas
  cases lambdas with
  | none => exact C.fault _
  | some parts => exact C.value (C.layer (.lambda parts.1 parts.2))

theorem readMacroBody {name name' : String} (names : C.name name name') {args args' : List Expr}
    (parts : List.Forall₂ C.expr args args') (symbol : String) {body body' : List Token}
    (lines : C.span body body') (h : body.length < n) (h' : body'.length < n') :
    C.Rel C.expr (readMacroBody read name args symbol body h)
      (readMacroBody read' name' args' symbol body' h') := by
  apply C.andThen (C.declare names .macroName)
  intro _ _ _
  have inner := C.andThen (declareAll (aliases parts)) fun _ _ _ =>
    alike false false body body' h h' C.below lines
  apply C.andThen (C.inFrame inner)
  intro result result' results
  cases results with
  | none => exact C.fault _
  | some exprs => exact C.value exprs

theorem readArguments {rest rest' : List Token} (lines : C.line rest rest') (h : rest.length < n)
    (h' : rest'.length < n') :
    C.Rel (fun a a' => List.Forall₂ C.expr a.1 a'.1 ∧ C.line a.2.val a'.2.val)
      (readArguments read rest h) (readArguments read' rest' h') := by
  obtain ⟨opening, inner, inner', rfl, rfl, kind, groups⟩ | ⟨none, none'⟩ := opening_cases lines
  · rw [Expr.readArguments, Expr.readArguments, if_pos kind, if_pos kind]
    apply C.andThen groups
    intro g g' groups
    apply C.andThen (readParameters alike groups.inside _ _)
    intro args args' parts
    exact C.value ⟨parts, groups.after⟩
  · rw [readArguments_none none, readArguments_none none']
    exact C.value ⟨.nil, lines⟩

theorem readLambdaGroup {rest rest' : List Token} (lines : C.line rest rest') (h : rest.length < n)
    (h' : rest'.length < n') :
    C.Rel (fun l l' => C.expr l.1 l'.1 ∧ C.line l.2.val l'.2.val) (readLambdaGroup read rest h)
      (readLambdaGroup read' rest' h') := by
  obtain ⟨opening, inner, inner', rfl, rfl, kind, groups⟩ | ⟨none, none'⟩ := opening_cases lines
  · rw [Expr.readLambdaGroup, Expr.readLambdaGroup, if_pos kind, if_pos kind]
    apply C.andThen groups
    intro g g' groups
    apply C.andThen (readLambda alike opening groups.inside _ _)
    intro e e' exprs
    exact C.value ⟨exprs, groups.after⟩
  · rw [readLambdaGroup_none none, readLambdaGroup_none none']
    exact C.fault _

section Step

variable {topLevel topLevel' : Bool} (levels : C.level topLevel topLevel') {p p' : Progress}
  (goes : C.going p p') {rest rest' : List Token} (h : rest.length < n) (h' : rest'.length < n')
include goes

include levels in
theorem readGroup {opening : Token} (opens : opening.kind = .openParen)
    (lines : C.line (opening :: rest) (opening :: rest')) :
    C.Rel C.Ongoing (readGroup read topLevel p opening rest h)
      (readGroup read' topLevel' p' opening rest' h') := by
  apply C.andThen (C.groups lines opens).2
  intro g g' groups
  apply C.andThen (alike topLevel topLevel' g.inside g'.inside _ _ levels groups.inside)
  intro result result' results
  cases results with
  | none => exact groups.close ▸ C.fault _
  | some exprs => exact C.value ⟨C.pushNode (pushProduct goes) exprs _, groups.after⟩

omit goes in
theorem readOperator {symbol : String} (pushed : C.going (p.pushOp symbol) (p'.pushOp symbol))
    (definitions : Option.Rel (fun d d' => C.name d.1 d'.1 ∧ List.Forall₂ C.expr d.2 d'.2)
      (p.definition? symbol) (p'.definition? symbol))
    (lines : C.line rest rest') (body : C.span (splitBody 0 rest).1 (splitBody 0 rest').1)
    (after : C.line (splitBody 0 rest).2 (splitBody 0 rest').2) :
    C.Rel C.Ongoing (readOperator read p symbol rest h) (readOperator read' p' symbol rest' h') := by
  unfold Expr.readOperator
  generalize p.definition? symbol = d at definitions ⊢
  generalize p'.definition? symbol = d' at definitions ⊢
  cases definitions with
  | none => exact C.value ⟨pushed, lines⟩
  | some parts =>
      apply C.andThen (readMacroBody alike parts.1 parts.2 symbol body _ _)
      intro e e' exprs
      exact C.value ⟨C.pushNode pushed exprs _, after⟩

theorem readName {words : Vocabulary} {name name' : String} (names : C.name name name')
    (bares : C.name (Name.bare name) (Name.bare name'))
    (empties : (Name.bare name).isEmpty = (Name.bare name').isEmpty)
    (kinds : ∀ known known', C.known known known' →
      Name.classify words known topLevel name rest = Name.classify words known' topLevel' name' rest')
    (lines : C.line rest rest') :
    C.Rel C.Ongoing (readName words read topLevel p name rest h)
      (readName words read' topLevel' p' name' rest' h') := by
  have product := pushProduct goes
  apply C.get
  intro known known' inScope
  rw [kinds known known' inScope]
  cases Name.classify words known' topLevel' name' rest' with
  | function =>
      simp only [if_true]
      rw [C.value_eq goes]
      split
      · exact C.fault _
      · apply C.andThen (readArguments alike lines h h')
        intro a a' parts
        exact C.value ⟨C.pushNode product (C.layer (.call names parts.1)) _, parts.2⟩
  | globalVar =>
      simp only [reduceCtorEq, if_false]
      rw [empties]
      split
      · exact C.value ⟨C.pushSign product (by decide), lines⟩
      · exact C.value ⟨C.pushNode product (C.layer (.globalVar bares)) _, lines⟩
  | localVar =>
      simp only [reduceCtorEq, if_false]
      rw [empties]
      split
      · exact C.value ⟨C.pushSign product (by decide), lines⟩
      · apply C.andThen (C.declare bares .localVar)
        intro _ _ _
        exact C.value ⟨C.pushNode product (C.layer (.localVar bares)) _, lines⟩
  | macroName =>
      simp only [reduceCtorEq, if_false]
      rw [empties]
      split
      · apply C.andThen (readLambdaGroup alike lines h h')
        intro l l' parts
        exact C.value ⟨C.pushNode product parts.1 _, parts.2⟩
      · apply C.andThen (readArguments alike lines h h')
        intro a a' parts
        have definable : (a.1.all fun arg => arg.alias?.isSome) =
            a'.1.all fun arg => arg.alias?.isSome := all_alias_eq parts.1
        rw [definable]
        exact C.value ⟨C.pushNode product (C.layer (.macroRef _ bares parts.1)) _, parts.2⟩

include levels in
theorem readToken {words : Vocabulary} {t : Token} (notOperator : t.kind ≠ .operator)
    (name_refl : t.kind = .name → C.name t.text t.text ∧ C.name (Name.bare t.text) (Name.bare t.text))
    (kinds : t.kind = .name → ∀ known known', C.known known known' →
      Name.classify words known topLevel t.text rest = Name.classify words known' topLevel' t.text rest')
    (here : C.line (t :: rest) (t :: rest')) (lines : t.Flat → C.line rest rest') :
    C.Rel C.Ongoing (readToken words read topLevel p t rest h)
      (readToken words read' topLevel' p' t rest' h') := by
  unfold Expr.readToken
  split
  · rename_i result literal
    have lines := lines (flat_of_literal? literal)
    have results : Results Eq C.expr result result := by
      cases result with
      | ok e => exact .value (C.expr_refl e)
      | error fault => exact .fault rfl
    apply C.andThen (Reading.Congruence.except results)
    intro e e' exprs
    exact C.value ⟨C.pushNode goes exprs _, lines⟩
  · split
    · exact absurd ‹_› notOperator
    · rename_i named
      obtain ⟨names, bares⟩ := name_refl named
      exact readName alike goes h h' names bares rfl (kinds named) (lines (flat_of_name named))
    · exact readGroup alike levels goes h h' ‹_› here
    · exact C.fault _

end Step

end Readers

end Lockstep

namespace Reading

variable {α α' β β' : Type} {fault : ParseError → ParseError → Prop} {r : α → β → Prop}
  {q : α' → β' → Prop}

def Alike (fault : ParseError → ParseError → Prop) (r : α → β → Prop) (x : Reading α) (y : Reading β) :
    Prop :=
  ∀ names, Results fault r (x.run names).1 (y.run names).1 ∧ (x.run names).2 = (y.run names).2

theorem alike_pure {a : α} {b : β} (values : r a b) : Alike fault r (pure a) (pure b) :=
  fun _ => ⟨.value values, rfl⟩

theorem alike_refl {r : α → α → Prop} (refl : ∀ a, r a a) (x : Reading α) : Alike Eq r x x := by
  intro names
  refine ⟨?_, rfl⟩
  cases (x.run names).1 with
  | ok a => exact .value (refl a)
  | error error => exact .fault rfl

theorem alike_throw {error error' : ParseError} (faults : fault error error') :
    Alike fault r (throw error) (throw error') :=
  fun _ => ⟨.fault faults, rfl⟩

theorem Alike.bind {x : Reading α} {y : Reading β} {f : α → Reading α'} {g : β → Reading β'}
    (first : Alike fault r x y) (next : ∀ a b, r a b → Alike fault q (f a) (g b)) :
    Alike fault q (x >>= f) (y >>= g) := by
  intro names
  obtain ⟨results, same⟩ := first names
  rw [run_bind, run_bind]
  generalize x.run names = p at results same ⊢
  generalize y.run names = p' at results same ⊢
  obtain ⟨result, after⟩ := p
  obtain ⟨result', after'⟩ := p'
  obtain rfl : after = after' := same
  cases results with
  | value values => exact next _ _ values after
  | fault faults => exact ⟨.fault faults, rfl⟩

theorem Alike.inFrame {x : Reading α} {y : Reading β} (alike : Alike fault r x y) :
    Alike fault r (inFrame x) (inFrame y) := by
  intro names
  obtain ⟨results, same⟩ := alike names.push
  exact ⟨results, congrArg NameStack.pop same⟩

theorem Alike.yields {x : Reading α} {y : Reading β} (alike : Alike fault r x y) :
    x.Yields fun a => ∃ b, r a b := by
  intro names a after run
  obtain ⟨results, -⟩ := alike names
  rw [run] at results
  generalize (y.run names).1 = outcome at results
  cases results with
  | value values => exact ⟨_, values⟩

def alikeCongruence (refl : ∀ error, fault error error) : Congruence where
  Rel := Alike fault
  known := Eq
  value := alike_pure
  fault error := alike_throw (refl error)
  andThen := Alike.bind
  get each := fun names => each names names rfl names
  inFrame := Alike.inFrame

theorem Alike.eq {x y : Reading α} (alike : Alike Eq Eq x y) : x = y := by
  funext names
  obtain ⟨results, same⟩ := alike names
  exact Prod.ext (results_eq.mp results) same

end Reading

def Progress.over (below : List Element) (p : Progress) : Progress := ⟨p.elements ++ below, p.value⟩

namespace Progress

variable {p : Progress} (some : p.elements ≠ []) (below : List Element)
include some

theorem definition?_over (symbol : String) : (p.over below).definition? symbol = p.definition? symbol := by
  unfold definition? Progress.over
  cases elements : p.elements with
  | nil => exact absurd elements some
  | cons last before =>
      cases last with
      | op _ => rfl
      | node e =>
          cases e with
          | macroRef _ _ definable => cases definable <;> rfl
          | _ => rfl

theorem finish_over : (p.over below).finish = below.reverse ++ p.finish := by
  unfold finish Progress.over
  cases elements : p.elements with
  | nil => exact absurd elements some
  | cons last before =>
      cases last with
      | node e => simp
      | op symbol =>
          by_cases sequence : symbol = ";"
          · simp [sequence]
          · simp [sequence]

end Progress

/-- A property of elements that no operand and no sign of reading itself undoes. -/
structure Keeps (P : List Element → Prop) : Prop where
  node {elements : List Element} (holds : P elements) (e : Expr) : P (.node e :: elements)
  sign {elements : List Element} (holds : P elements) {symbol : String} (sign : symbol ∈ readingSigns) :
    P (.op symbol :: elements)

def overLockstep (below : List Element) {P : List Element → Prop} (keeps : Keeps P)
    (line : List Token → List Token → Prop)
    (opensCall : ∀ {l l'}, line l l' → Name.opensCall l = Name.opensCall l')
    (groups : ∀ {opening opening' l l'}, line (opening :: l) (opening' :: l') →
      opening.kind = .openParen → opening = opening' ∧
        Results Eq (GroupsAlike line Eq) (group opening l) (group opening' l')) : Lockstep where
  toCongruence := Reading.alikeCongruence (Eq.refl ·)
  line := line
  span := Eq
  level := Eq
  name := Eq
  expr := Eq
  going p p' := p' = p.over below ∧ P p.elements
  declare names tag := names ▸ fun _ => ⟨.value trivial, rfl⟩
  below := rfl
  expr_refl _ := rfl
  layer := Layer.eq
  alias_rel := alias_rel_of_eq
  invalidAlias exprs := exprs ▸ Reading.alike_throw rfl
  spans := spans_alike
  opensCall := opensCall
  groups lines opens := ⟨(groups lines opens).1, Reading.Congruence.except (groups lines opens).2⟩
  value_eq goes := goes.1 ▸ rfl
  pushNode := by
    rintro p p' ⟨rfl, holds⟩ e e' rfl last
    exact ⟨rfl, keeps.node holds e⟩
  pushSign := by
    rintro p p' ⟨rfl, holds⟩ symbol sign
    exact ⟨rfl, keeps.sign holds sign⟩

end Expr

end Calculator
