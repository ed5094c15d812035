import Calculator.Proofs.Expr.Lockstep
import Calculator.Proofs.Expr.Nesting
import Calculator.Proofs.Expr.Relating
import Calculator.Proofs.Token.Swapping

/-! The scopes of names while a line is read. What is declared inside of a lambda or a macro body is
forgotten behind it. -/

namespace Calculator

namespace NameStack

def extend (names : NameStack) (entries : List (String × NameTag)) : NameStack :=
  match names.inner with
  | [] => { names with outermost := entries ++ names.outermost }
  | frame :: frames => { names with inner := (entries ++ frame) :: frames }

theorem extend_nil (names : NameStack) : names.extend [] = names := by
  obtain ⟨outermost, inner⟩ := names
  cases inner <;> rfl

theorem extend_extend (names : NameStack) (first second : List (String × NameTag)) :
    (names.extend first).extend second = names.extend (second ++ first) := by
  obtain ⟨outermost, inner⟩ := names
  cases inner <;> simp [extend]

theorem declare_extend (names : NameStack) (name : String) (tag : NameTag) :
    names.declare name tag = names.extend [(Text.fold name, tag)] := by
  obtain ⟨outermost, inner⟩ := names
  cases inner <;> rfl

theorem pop_extend (names : NameStack) (entries : List (String × NameTag)) :
    (names.push.extend entries).pop = names := rfl

end NameStack

namespace Expr

open Token

namespace Reading

variable {α β α' β' : Type} {r : α → β → Prop} {q : α' → β' → Prop}

def Restores (x : Reading α) : Prop := ∀ names, (x.run names).2 = names

/-- Two readings that come to the same, and declare names in the innermost frame only, also when they
fail. -/
def Extends (r : α → β → Prop) (x : Reading α) (y : Reading β) : Prop :=
  Alike Eq r x y ∧ ∀ names, ∃ entries, (x.run names).2 = names.extend entries

theorem Extends.restores {x : Reading α} {y : Reading β} (extends_ : Extends r x y) :
    Restores (inFrame x) := by
  intro names
  obtain ⟨entries, same⟩ := extends_.2 names.push
  exact (congrArg NameStack.pop same).trans (names.pop_extend entries)

theorem extends_of_restores {x : Reading α} {y : Reading β} (alike : Alike Eq r x y)
    (restores : Restores x) : Extends r x y :=
  ⟨alike, fun names => ⟨[], (restores names).trans names.extend_nil.symm⟩⟩

theorem Restores.bind {x : Reading α} {f : α → Reading α'} (first : Restores x)
    (next : ∀ a, Restores (f a)) : Restores (x >>= f) := by
  intro names
  have same := first names
  rw [run_bind]
  generalize x.run names = p at same ⊢
  obtain ⟨result, after⟩ := p
  obtain rfl : after = names := same
  cases result with
  | ok a => exact next a after
  | error fault => rfl

theorem Extends.bind {x : Reading α} {y : Reading β} {f : α → Reading α'} {g : β → Reading β'}
    (first : Extends r x y) (next : ∀ a b, r a b → Extends q (f a) (g b)) :
    Extends q (x >>= f) (y >>= g) := by
  refine ⟨first.1.bind fun a b related => (next a b related).1, fun names => ?_⟩
  obtain ⟨results, -⟩ := first.1 names
  obtain ⟨entries, extended⟩ := first.2 names
  rw [run_bind]
  generalize x.run names = p at results extended ⊢
  generalize (y.run names).1 = result' at results
  obtain ⟨result, after⟩ := p
  obtain rfl : after = names.extend entries := extended
  cases results with
  | fault => exact ⟨entries, rfl⟩
  | value related =>
      obtain ⟨more, same⟩ := (next _ _ related).2 (names.extend entries)
      exact ⟨_, same.trans (names.extend_extend entries more)⟩

def extendsCongruence : Congruence where
  Rel := Extends
  known := Eq
  value values := extends_of_restores (alike_pure values) fun _ => rfl
  fault _ := extends_of_restores (alike_throw rfl) fun _ => rfl
  andThen := Extends.bind
  get each := ⟨fun names => (each names names rfl).1 names, fun names => (each names names rfl).2 names⟩
  inFrame extends_ := extends_of_restores extends_.1.inFrame extends_.restores

def sameLockstep : Lockstep where
  toCongruence := extendsCongruence
  line := Eq
  span := Eq
  level := Eq
  name := Eq
  expr := Eq
  going := Eq
  declare names tag :=
    ⟨names ▸ fun _ => ⟨.value trivial, rfl⟩, fun stack => ⟨_, stack.declare_extend _ tag⟩⟩
  below := rfl
  expr_refl _ := rfl
  layer := Layer.eq
  alias_rel := alias_rel_of_eq
  invalidAlias exprs := exprs ▸ extendsCongruence.fault _
  spans := spans_alike
  opensCall := opensCall_alike
  groups lines _ := ⟨(group_alike lines).1, Congruence.except (group_alike lines).2⟩
  value_eq goes := congrArg Progress.value goes
  pushNode goes _ _ exprs _ := by rw [goes, exprs]
  pushSign goes _ _ := by rw [goes]

end Reading

open Reading

section Readers

variable (words : Vocabulary)

theorem reader_extends {n m : Nat} (each : ∀ topLevel p span, span.length < n →
      Extends Eq (elementsOf words topLevel p span) (elementsOf words topLevel p span))
    (topLevel topLevel' : Bool) (span span' : List Token) (h : span.length < n) (h' : span'.length < m)
    (levels : topLevel = topLevel') (spans : span = span') :
    Extends (Option.Rel Eq) (reader words n topLevel span h) (reader words m topLevel' span' h') := by
  subst levels spans
  refine extendsCongruence.andThen (each topLevel .start span h) ?_
  rintro elements _ rfl
  refine Congruence.except (C := extendsCongruence) ?_
  cases Element.collapse elements with
  | ok root => exact .value (root_alike root)
  | error fault => exact .fault rfl

theorem readToken_extends {n : Nat} {read : SpanReader n} (alike : ∀ topLevel topLevel' span span' h h',
      topLevel = topLevel' → span = span' →
      Extends (Option.Rel Eq) (read topLevel span h) (read topLevel' span' h'))
    (topLevel : Bool) (p : Progress) (t : Token) (rest : List Token) (h : rest.length < n) :
    Extends sameLockstep.Ongoing (readToken words read topLevel p t rest h)
      (readToken words read topLevel p t rest h) := by
  by_cases kind : t.kind = .operator
  · rw [readToken_operator kind]
    exact Lockstep.readOperator (C := sameLockstep) alike h h rfl (definition_alike _) rfl rfl rfl
  · exact Lockstep.readToken (C := sameLockstep) alike rfl rfl h h kind (fun _ => ⟨rfl, rfl⟩)
      (fun _ _ _ same => same ▸ rfl) rfl fun _ => rfl

theorem elementsOf_extends (topLevel : Bool) (p : Progress) (span : List Token) :
    Extends Eq (elementsOf words topLevel p span) (elementsOf words topLevel p span) := by
  induction size : span.length using Nat.strongRecOn generalizing topLevel p span with
  | ind size ih =>
      subst size
      cases span with
      | nil => exact extendsCongruence.value rfl
      | cons t rest =>
          rw [elementsOf_cons]
          have readers := reader_extends words (n := rest.length + 1) (m := rest.length + 1)
            fun topLevel p span shorter => ih _ shorter topLevel p span rfl
          refine extendsCongruence.andThen (readToken_extends words readers topLevel p t rest _) ?_
          rintro ⟨p', after⟩ ⟨_, after'⟩ ⟨rfl, left⟩
          obtain rfl : after = after' := Subtype.ext left
          exact ih _ (Nat.lt_succ_of_le after.property) topLevel p' after.val rfl

theorem reader_extends_all (n m : Nat) (topLevel topLevel' : Bool) (span span' : List Token)
    (h : span.length < n) (h' : span'.length < m) (levels : topLevel = topLevel') (spans : span = span') :
    Extends (Option.Rel Eq) (reader words n topLevel span h) (reader words m topLevel' span' h') :=
  reader_extends words (fun topLevel p span _ => elementsOf_extends words topLevel p span) topLevel
    topLevel' span span' h h' levels spans

variable {n : Nat}

theorem readLambda_restores (opening : Token) (inside : List Token) (h : inside.length < n) :
    Restores (readLambda (reader words n) opening inside h) := by
  have spans := Lockstep.readLambdaSpans (C := sameLockstep) (reader_extends_all words n n) h h
    (sameLockstep.spans (l := inside) rfl)
  refine (Extends.restores spans).bind fun lambda => ?_
  cases lambda <;> exact fun _ => rfl

theorem readMacroBody_names (name : String) (args : List Expr) (symbol : String) (body : List Token)
    (h : body.length < n) (names : NameStack) :
    ((readMacroBody (reader words n) name args symbol body h).run names).2 =
      names.declare name .macroName := by
  have declared : List.Forall₂ Eq (args.filterMap alias?) (args.filterMap alias?) :=
    List.forall₂_same.mpr fun _ _ => rfl
  have inner := extendsCongruence.andThen (Lockstep.declareAll (C := sameLockstep) declared) fun _ _ _ =>
    reader_extends_all words n n false false body body h h rfl rfl
  unfold readMacroBody
  rw [run_bind]
  refine Restores.bind (Extends.restores inner) (fun built => ?_) (names.declare name .macroName)
  cases built <;> exact fun _ => rfl

end Readers

namespace Reading

variable {α α' β β' : Type} {r : α → β → Prop} {q : α' → β' → Prop}

/-- Where both readings succeed with the same names declared, their results belong together, and they
declare the same names. -/
def Agrees (r : α → β → Prop) (x : Reading α) (y : Reading β) : Prop :=
  ∀ names a b after after', x.run names = (.ok a, after) → y.run names = (.ok b, after') →
    r a b ∧ after = after'

theorem Agrees.bind {x : Reading α} {y : Reading β} {f : α → Reading α'} {g : β → Reading β'}
    (first : Agrees r x y) (next : ∀ a b, r a b → Agrees q (f a) (g b)) :
    Agrees q (x >>= f) (y >>= g) := by
  intro names c d after after' run run'
  rw [run_bind] at run run'
  split at run
  · rename_i a between here
    split at run'
    · rename_i b between' there
      obtain ⟨related, rfl⟩ := first names a b between between' here there
      exact next a b related between c d after after' run run'
    · cases run'
  · cases run

theorem agrees_of_except {x : Except ParseError α} {y : Except ParseError β}
    (related : ∀ a b, x = .ok a → y = .ok b → r a b) : Agrees r (liftM x) (liftM y) := by
  intro names a b after after' run run'
  cases x with
  | error fault => cases run
  | ok a =>
      cases y with
      | error fault => cases run'
      | ok b =>
          cases run
          cases run'
          exact ⟨related _ _ rfl rfl, rfl⟩

theorem Alike.agrees {x : Reading α} {y : Reading β} (alike : Alike Eq r x y) : Agrees r x y := by
  intro names a b after after' run run'
  obtain ⟨results, same⟩ := alike names
  rw [run, run'] at results same
  cases results with
  | value related => exact ⟨related, same⟩

def agreesCongruence : Congruence where
  Rel := Agrees
  known := Eq
  value values := (alike_pure values).agrees
  fault _ := (alike_throw rfl).agrees
  andThen := Agrees.bind
  get each := fun names => each names names rfl names
  inFrame {_ _ _ x y} agrees := by
    intro names a b after after' run run'
    obtain ⟨result, rfl⟩ := Prod.mk.inj run
    obtain ⟨result', rfl⟩ := Prod.mk.inj run'
    obtain ⟨related, same⟩ := agrees names.push a b _ _ (Prod.ext result rfl) (Prod.ext result' rfl)
    exact ⟨related, congrArg NameStack.pop same⟩

end Reading

/-- Two expressions that are built alike, but for parts that stand in a relation. -/
inductive AgreeBut (P : Expr → Expr → Prop) : Expr → Expr → Prop
  | refl (e : Expr) : AgreeBut P e e
  | here {e e' : Expr} (parts : P e e') : AgreeBut P e e'
  | layer {e e' : Expr} (form : Layer Eq (AgreeBut P) e e') : AgreeBut P e e'

def lambdaOf (words : Vocabulary) (opening : Token) (inside : List Token) : Reading Expr :=
  readLambda (reader words (inside.length + 1)) opening inside (length_lt_bound inside)

/-- Two lambdas in the same brackets, read where the same names are known. -/
def Lambdas (words : Vocabulary) (swap : Swap) (e e' : Expr) : Prop :=
  ∃ known, ((lambdaOf words swap.opening swap.inside).run known).1 = .ok e ∧
    ((lambdaOf words swap.opening swap.inside').run known).1 = .ok e'

theorem agreeBut_compatible (P : Expr → Expr → Prop) : Compatible (AgreeBut P) where
  refl := .refl
  pointer exprs := .layer (.pointer exprs)
  localPointer exprs := .layer (.localPointer exprs)
  unary op _ _ exprs := .layer (.unary op exprs)
  binary op _ _ _ _ lefts rights := .layer (.binary op lefts rights)
  assign lefts rights := .layer (.assign lefts rights)

open Reading

theorem readLambda_lambda {n : Nat} {read : SpanReader n} {opening : Token} {inside : List Token}
    {h : inside.length < n} :
    (readLambda read opening inside h).Yields fun e => ∃ aliases body, e = .lambda aliases body := by
  refine (yields_any _).bind fun lambda _ => ?_
  cases lambda with
  | none => exact yields_error _
  | some parts => exact yields_pure ⟨_, _, rfl⟩

theorem Lambdas.forms {words : Vocabulary} {swap : Swap} {e e' : Expr} (lambdas : Lambdas words swap e e') :
    (∃ aliases body, e = .lambda aliases body) ∧ ∃ aliases body, e' = .lambda aliases body := by
  obtain ⟨known, read, read'⟩ := lambdas
  exact ⟨readLambda_lambda known e _ (Prod.ext read rfl), readLambda_lambda known e' _ (Prod.ext read' rfl)⟩

theorem agreeBut_alias {words : Vocabulary} {swap : Swap} {e e' : Expr}
    (agree : AgreeBut (Lambdas words swap) e e') : Option.Rel Eq e.alias? e'.alias? := by
  cases agree with
  | refl => exact alias_rel_of_eq rfl
  | here lambdas =>
      obtain ⟨⟨_, _, rfl⟩, _, _, rfl⟩ := lambdas.forms
      exact .none
  | layer form => exact form.alias_rel

theorem agreeBut_definable {words : Vocabulary} {swap : Swap} {e e' : Expr}
    (agree : AgreeBut (Lambdas words swap) e e') :
    Definables Eq (AgreeBut (Lambdas words swap)) e.definable? e'.definable? := by
  cases agree with
  | refl =>
      cases e.definable? with
      | none => exact .none
      | some definition => exact .some ⟨rfl, List.forall₂_same.mpr fun e _ => .refl e⟩
  | here lambdas =>
      obtain ⟨⟨_, _, rfl⟩, _, _, rfl⟩ := lambdas.forms
      exact .none
  | layer form => exact form.definable?

section Swapped

variable {swap : Swap}

def SwappedAbove (swap : Swap) (line line' : List Token) : Prop :=
  Swapped swap line line' ∧ Above 0 line

theorem swapped_group {opening opening' : Token} {l l' : List Token}
    (lines : SwappedAbove swap (opening :: l) (opening' :: l'))
    (opens : opening.kind = .openParen) : opening = opening' ∧
      Agrees (GroupsAlike (SwappedAbove swap) (SwappedAbove swap))
        (liftM (group opening l)) (liftM (group opening' l')) := by
  obtain ⟨swapped, above⟩ := lines
  have rests : opening = opening' ∧ Swapped swap l l' := by
    cases swapped with
    | refl => exact ⟨rfl, .refl l⟩
    | cons _ rest => exact ⟨rfl, rest⟩
    | lambda => cases opens
  refine ⟨rests.1, agrees_of_except fun g g' grouped grouped' => ?_⟩
  have closes := closes_of_group grouped
  obtain ⟨more, after, closes', inner, behind⟩ := rests.2.closes closes
  obtain ⟨sameInside, sameClose, sameAfter⟩ := closes'.unique (closes_of_group grouped')
  have inside := above.of_opening opens
  rw [closes.eq_append, Above.balanced closes.balanced_inside] at inside
  obtain ⟨_, zero, outside⟩ := inside.of_closing closes.kind
  obtain rfl := Nat.succ.inj zero
  exact ⟨⟨sameInside ▸ inner, .of_balanced closes.balanced_inside 0⟩, sameClose,
    sameAfter ▸ behind, outside⟩

theorem swapped_spans {line line' : List Token} (lines : SwappedAbove swap line line') :
    List.Forall₂ (fun s s' => SwappedAbove swap s.val s'.val) (parameterSpans line)
      (parameterSpans line') := by
  have spans := (List.forall₂_and_left _ _).mpr
    ⟨lines.2.parameters, lines.1.parameters⟩
  rw [← spans_val, ← spans_val, List.forall₂_map_left_iff, List.forall₂_map_right_iff] at spans
  exact spans.imp fun _ _ both => ⟨both.2, both.1⟩

def swapLockstep (swap : Swap) (words : Vocabulary) : Lockstep where
  toCongruence := agreesCongruence
  line := SwappedAbove swap
  span := SwappedAbove swap
  level := Eq
  name := Eq
  expr := AgreeBut (Lambdas words swap)
  going := Progress.Related (AgreeBut (Lambdas words swap))
  declare names _ := names ▸ (alike_refl (fun _ => trivial) _).agrees
  below := rfl
  expr_refl := .refl
  layer := .layer
  alias_rel := agreeBut_alias
  invalidAlias _ := fun _ _ _ _ _ run => nomatch run
  spans := swapped_spans
  opensCall lines := lines.1.opensCall
  groups := swapped_group
  value_eq goes := goes.value
  pushNode goes _ _ exprs last := goes.pushNode exprs last
  pushSign goes symbol _ := goes.pushOp symbol

theorem classify_congr {rest rest' : List Token} (opens : Name.opensCall rest = Name.opensCall rest')
    (ahead : Name.isAssignmentTarget rest = Name.isAssignmentTarget rest') (words : Vocabulary)
    (names : NameStack) (topLevel : Bool) (name : String) :
    Name.classify words names topLevel name rest = Name.classify words names topLevel name rest' := by
  unfold Name.classify
  rw [opens, ahead]

theorem readToken_sigil {words : Vocabulary} {n : Nat} {read : SpanReader n} {topLevel : Bool}
    {p : Progress} {rest : List Token} {h : rest.length < n} :
    readToken words read topLevel p lambdaSigil rest h = readLambdaGroup read rest h >>=
      fun (e, after) => pure (p.pushProduct.pushNode e .closeParen, after) := by
  rfl

theorem readLambdaGroup_ok {words : Vocabulary} {n : Nat} {opening close : Token}
    {inner inside back : List Token} (opens : opening.kind = .openParen)
    (closes : Closes 0 inner inside close back) {h : (opening :: inner).length < n}
    {known after : NameStack} {result : Expr × Span (opening :: inner)}
    (runs : (readLambdaGroup (reader words n) _ h).run known = (.ok result, after)) :
    ((lambdaOf words opening inside).run known).1 = .ok result.1 ∧ result.2.val = back ∧
      after = known := by
  rw [readLambdaGroup, if_pos opens, run_bind] at runs
  cases grouped : group opening inner with
  | error fault =>
      rw [grouped] at runs
      cases runs
  | ok g =>
      obtain ⟨rfl, -, rfl⟩ := closes.unique (closes_of_group grouped)
      rw [grouped] at runs
      have shorter : g.inside.length < n := by
        have := g.shorter
        simp only [List.length_cons] at h
        omega
      have agree : ∀ topLevel span (h : span.length < n) (h' : span.length < g.inside.length + 1),
          reader words n topLevel span h = reader words _ topLevel span h' := fun _ _ _ _ => rfl
      have same : readLambda (reader words n) opening g.inside shorter =
          lambdaOf words opening g.inside := readLambda_agree agree ..
      have restores := readLambda_restores words opening g.inside shorter known
      change (readLambda (reader words n) opening g.inside shorter >>= _).run known = _ at runs
      rw [run_bind] at runs
      rw [← same]
      generalize (readLambda (reader words n) opening g.inside shorter).run known = ran at runs restores ⊢
      obtain ⟨outcome, names⟩ := ran
      obtain rfl : names = known := restores
      cases outcome with
      | error fault => cases runs
      | ok e =>
          cases runs
          exact ⟨rfl, rfl, rfl⟩

theorem readToken_lambda {words : Vocabulary} {n n' : Nat} {topLevel : Bool} {p p' : Progress}
    (goes : (swapLockstep swap words).going p p') {back rest rest' : List Token}
    (line : rest = swap.opening :: (swap.inside ++ swap.close :: back))
    (line' : rest' = swap.opening :: (swap.inside' ++ swap.close :: back))
    (h : rest.length < n) (h' : rest'.length < n') :
    Agrees (fun a a' => (swapLockstep swap words).going a.1 a'.1 ∧ a.2.val = back ∧ a'.2.val = back)
      (readToken words (reader words n) topLevel p lambdaSigil rest h)
      (readToken words (reader words n') topLevel p' lambdaSigil rest' h') := by
  subst line line'
  rw [readToken_sigil, readToken_sigil]
  refine Agrees.bind (r := fun l l' => Lambdas words swap l.1 l'.1 ∧ l.2.val = back ∧ l'.2.val = back) ?_ ?_
  · intro known a b after after' run run'
    obtain ⟨lambda, left, rfl⟩ := readLambdaGroup_ok swap.opens (swap.closes_inside swap.balanced back) run
    obtain ⟨lambda', left', rfl⟩ := readLambdaGroup_ok swap.opens (swap.closes_inside swap.balanced' back) run'
    exact ⟨⟨⟨_, lambda, lambda'⟩, left, left'⟩, rfl⟩
  · rintro ⟨e, after⟩ ⟨e', after'⟩ ⟨lambdas, left, left'⟩
    have product := Lockstep.pushProduct (C := swapLockstep swap words) goes
    exact agreesCongruence.value ⟨product.pushNode (.here lambdas) _, left, left'⟩

theorem readToken_swapped {words : Vocabulary} {n n' : Nat} {topLevel : Bool} {p p' : Progress}
    (alike : ∀ topLevel topLevel' span span' h h', topLevel = topLevel' → SwappedAbove swap span span' →
      Agrees (Option.Rel (AgreeBut (Lambdas words swap))) (reader words n topLevel span h)
        (reader words n' topLevel' span' h'))
    (goes : (swapLockstep swap words).going p p') {t : Token} {rest rest' : List Token}
    (swapped : Swapped swap rest rest') (above : Above 0 (t :: rest)) (h : rest.length < n)
    (h' : rest'.length < n') :
    Agrees (swapLockstep swap words).Ongoing (readToken words (reader words n) topLevel p t rest h)
      (readToken words (reader words n') topLevel p' t rest' h') := by
  have lines (isFlat : t.Flat) : SwappedAbove swap rest rest' := ⟨swapped, above.of_flat isFlat⟩
  by_cases kind : t.kind = .operator
  · have above := above.of_flat (flat_of_operator kind)
    rw [readToken_operator kind, readToken_operator kind]
    refine Lockstep.readOperator (C := swapLockstep swap words) alike h h' (goes.pushOp _)
      (goes.definition? (fun _ _ => agreeBut_definable) _) ⟨swapped, above⟩ ?_ ?_
    · exact ⟨(swapped.splitBody above).1, above.splitBody.1⟩
    · exact ⟨(swapped.splitBody above).2, above.splitBody.2⟩
  · refine Lockstep.readToken (C := swapLockstep swap words) alike rfl goes h h' kind (fun _ => ⟨rfl, rfl⟩)
      ?_ ⟨swapped.cons t, above⟩ lines
    rintro named known _ rfl
    have above := above.of_flat (flat_of_name named)
    exact classify_congr swapped.opensCall (swapped.assignmentAhead above) ..

theorem elementsOf_swapped {words : Vocabulary} {topLevel : Bool} {p p' : Progress}
    (goes : (swapLockstep swap words).going p p') {line line' : List Token}
    (lines : SwappedAbove swap line line') :
    Agrees (Element.AllRelated (AgreeBut (Lambdas words swap)))
      (elementsOf words topLevel p line) (elementsOf words topLevel p' line') := by
  induction size : line.length using Nat.strongRecOn generalizing topLevel p p' line line' with
  | ind size ih =>
      subst size
      have readers {n n' : Nat} (fits : n ≤ line.length) : ∀ topLevel topLevel' span span' h h',
          topLevel = topLevel' → SwappedAbove swap span span' →
          Agrees (Option.Rel (AgreeBut (Lambdas words swap))) (reader words n topLevel span h)
            (reader words n' topLevel' span' h') := by
        rintro topLevel _ span span' h h' rfl spans
        refine Agrees.bind (ih _ (Nat.lt_of_lt_of_le h fits) ⟨.nil, rfl⟩ spans rfl) ?_
        intro elements elements' related
        exact Congruence.except (C := agreesCongruence)
          (Element.collapse_related (agreeBut_compatible _) related)
      have step (t : Token) (rest rest' : List Token) (same : line = t :: rest)
          (same' : line' = t :: rest') (swapped : Swapped swap rest rest') :
          Agrees (Element.AllRelated (AgreeBut (Lambdas words swap)))
            (elementsOf words topLevel p line) (elementsOf words topLevel p' line') := by
        subst same same'
        rw [elementsOf_cons, elementsOf_cons]
        refine Agrees.bind (readToken_swapped (readers (Nat.le_refl _)) goes swapped lines.2 _ _) ?_
        rintro ⟨q, after⟩ ⟨q', after'⟩ ⟨goes, left⟩
        exact ih _ (Nat.lt_succ_of_le after.property) goes left rfl
      obtain ⟨swapped, above⟩ := lines
      cases swapped with
      | refl line =>
          cases line with
          | nil => exact agreesCongruence.value goes.finish
          | cons t rest => exact step t rest rest rfl rfl (.refl rest)
      | cons t rest => exact step t _ _ rfl rfl rest
      | lambda back =>
          unfold BracketPair.lambda
          rw [elementsOf_cons, elementsOf_cons]
          refine Agrees.bind (readToken_lambda goes rfl rfl _ _) ?_
          rintro ⟨q, after⟩ ⟨q', after'⟩ ⟨goes, left, left'⟩
          change after.val = back at left
          change after'.val = back at left'
          rw [BracketPair.lambda_eq, Above.balanced (swap.balanced_lambda swap.balanced), ← left] at above
          have lines : SwappedAbove swap after.val after'.val := ⟨left.trans left'.symm ▸ .refl _, above⟩
          exact ih _ (Nat.lt_succ_of_le after.property) goes lines rfl

end Swapped

end Expr

namespace Token

theorem above_of_bracketsMatch {opened line : List Token} (matched : bracketsMatch opened line = true) :
    Above opened.length line := by
  induction line generalizing opened with
  | nil => exact .nil _
  | cons t rest ih =>
      unfold bracketsMatch at matched
      split at matched
      · exact .opening ‹_› (ih matched)
      · split at matched
        · cases opened with
          | nil => cases matched
          | cons opening opened => exact .closing ‹_› (ih (Bool.and_eq_true_iff.mp matched).2)
        · exact .flat ⟨‹_›, ‹_›⟩ (ih matched)

end Token

namespace Parsed

open Calculator.Expr Calculator.Expr.Reading Calculator.Token

theorem above_of_ofTokens {words : Vocabulary} {imply : Bool} {line : List Token} {parsed : Parsed}
    (reads : ofTokens words imply line = .ok parsed) : Above 0 line :=
  above_of_bracketsMatch (read_nested .empty parsed _ (Prod.ext reads rfl)).bracketsMatch

theorem ofTokens_swapped {words : Vocabulary} {swap : Swap} {imply : Bool} {line line' : List Token}
    {parsed parsed' : Parsed} (swapped : Swapped swap line line')
    (reads : ofTokens words imply line = .ok parsed) (reads' : ofTokens words imply line' = .ok parsed') :
    Related (AgreeBut (Lambdas words swap)) parsed parsed' := by
  have lines : SwappedAbove swap line line' := ⟨swapped, above_of_ofTokens reads⟩
  have agree : Agrees _ (elementsOf words true .start line) (elementsOf words true .start line') :=
    elementsOf_swapped ⟨.nil, rfl⟩ lines
  obtain ⟨elements, ended, stands⟩ := ofTokens_ok.mp reads
  obtain ⟨elements', ended', stands'⟩ := ofTokens_ok.mp reads'
  obtain ⟨related, -⟩ := agree .empty elements elements' _ _ (Prod.ext ended rfl) (Prod.ext ended' rfl)
  have parsed := ofElements_related (agreeBut_compatible _) imply related
  rw [stands, stands'] at parsed
  cases parsed with
  | value related => exact related

/-- Names that are declared inside of a lambda or a macro body are forgotten behind it: reading a lambda
leaves the declared names as they were, reading the body of a definition adds the macro to the innermost
frame, and any reading only puts entries into that frame. So lines that differ inside of one lambda are
read to expressions that differ in that lambda only. -/
theorem names_stay_inside (words : Vocabulary) :
    (∀ (n : Nat) (opening : Token) (inside : List Token) (h : inside.length < n) (names : NameStack),
      ((readLambda (reader words n) opening inside h).run names).2 = names) ∧
    (∀ (n : Nat) (name : String) (args : List Expr) (symbol : String) (body : List Token)
      (h : body.length < n) (names : NameStack),
      ((readMacroBody (reader words n) name args symbol body h).run names).2 =
        names.declare name .macroName) ∧
    (∀ (topLevel : Bool) (p : Progress) (span : List Token) (names : NameStack),
      ∃ entries, ((elementsOf words topLevel p span).run names).2 = names.extend entries) ∧
    ∀ (swap : Swap) (imply : Bool) (front back : List Token) (parsed parsed' : Parsed),
      ofTokens words imply (front ++ swap.lambda swap.inside back) = .ok parsed →
      ofTokens words imply (front ++ swap.lambda swap.inside' back) = .ok parsed' →
        Related (AgreeBut (Lambdas words swap)) parsed parsed' :=
  ⟨fun _ opening inside h => readLambda_restores words opening inside h,
    fun _ name args symbol body h => readMacroBody_names words name args symbol body h,
    fun topLevel p span => (elementsOf_extends words topLevel p span).2,
    fun _ _ front back _ _ => ofTokens_swapped ((Swapped.lambda back).front front)⟩

/-- In `@(@(y = 1); y)` the last `y` is no local of the inner lambda. -/
theorem names_stay_inside_inner :
    let words : Vocabulary := ⟨fun _ => false, fun _ => false⟩
    let y : Token := ⟨.name, "y"⟩
    let one : Token := ⟨.number, "1"⟩
    let equals : Token := ⟨.operator, "="⟩
    let flat (t : Token) (isFlat : t.Flat) : Balanced (fun _ => True) [t] := .cons isFlat trivial .nil
    let swap : Swap := ⟨⟨openRound, closeRound, rfl, rfl⟩, [y, equals, one], [one],
      .cons ⟨nofun, nofun⟩ trivial (.cons ⟨nofun, nofun⟩ trivial (flat one ⟨nofun, nofun⟩)),
      flat one ⟨nofun, nofun⟩⟩
    let front := [lambdaSigil, openRound]
    let back := [⟨.operator, ";"⟩, y, closeRound]
    let line := front ++ swap.lambda swap.inside back
    let line' := front ++ swap.lambda swap.inside' back
    ((readLambda (reader words 9) openRound [y, equals, one] (by decide)).run .empty).2 = .empty ∧
      ((readMacroBody (reader words 9) "f" [] "=" [one] (by decide)).run .empty).2 =
        NameStack.empty.declare "f" .macroName ∧
      ∃ parsed parsed', ofTokens words true line = .ok parsed ∧ ofTokens words true line' = .ok parsed' ∧
        Related (AgreeBut (Lambdas words swap)) parsed parsed' := by
  intro words y one equals flat swap front back line line'
  obtain ⟨lambdas, bodies, -, swaps⟩ := names_stay_inside words
  have reads : (ofTokens words true line).isOk = true := by decide +kernel
  have reads' : (ofTokens words true line').isOk = true := by decide +kernel
  refine ⟨lambdas 9 _ _ _ _, bodies 9 _ _ _ _ _ _, ?_⟩
  cases parses : ofTokens words true line with
  | error fault =>
      rw [parses] at reads
      cases reads
  | ok parsed =>
      cases parses' : ofTokens words true line' with
      | error fault =>
          rw [parses'] at reads'
          cases reads'
      | ok parsed' => exact ⟨parsed, parsed', rfl, rfl, swaps swap true front back parsed parsed' parses parses'⟩

end Parsed

end Calculator
