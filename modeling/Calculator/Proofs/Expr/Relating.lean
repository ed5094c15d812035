import Calculator.Proofs.Correspondence
import Calculator.Proofs.Expr.Reading
import Calculator.Proofs.Limit

/-! Collapsing elements whose expressions belong together. -/

namespace Calculator

theorem Results.bind {ε α β α' β' : Type} {fault : ε → ε → Prop} {r : α → β → Prop}
    {q : α' → β' → Prop} {x : Except ε α} {y : Except ε β} {f : α → Except ε α'}
    {g : β → Except ε β'} (first : Results fault r x y)
    (next : ∀ a b, r a b → Results fault q (f a) (g b)) : Results fault q (x >>= f) (y >>= g) := by
  cases first with
  | value values => exact next _ _ values
  | fault faults => exact .fault faults

/-- What prefix operators and operators make of expressions that belong together belongs together. -/
structure Expr.Compatible (R : Expr → Expr → Prop) : Prop where
  refl (e : Expr) : R e e
  pointer {e e' : Expr} (exprs : R e e') : R (.pointer e) (.pointer e')
  localPointer {e e' : Expr} (exprs : R e e') : R (.localPointer e) (.localPointer e')
  unary (op : UnaryOp) {e e' : Expr} (exprs : R e e') : R (.unary op e) (.unary op e')
  binary (op : BinaryOp) {left left' right right' : Expr} (lefts : R left left')
    (rights : R right right') : R (.binary op left right) (.binary op left' right')
  assign {left left' right right' : Expr} (lefts : R left left') (rights : R right right') :
    R (.assign left right) (.assign left' right')

variable {R : Expr → Expr → Prop}

theorem Expr.Compatible.build (compatible : Compatible R) {left left' right right' : Expr}
    (lefts : R left left') (rights : R right right') (role : Operator.Role) :
    R (left.build role right) (left'.build role right') := by
  unfold Expr.build
  split
  · exact compatible.binary _ lefts rights
  · exact compatible.assign lefts rights
  · exact compatible.assign lefts (compatible.binary _ lefts rights)

namespace Element

inductive Related (R : Expr → Expr → Prop) : Element → Element → Prop
  | node {e e' : Expr} (exprs : R e e') : Related R (.node e) (.node e')
  | op (symbol : String) : Related R (.op symbol) (.op symbol)

abbrev AllRelated (R : Expr → Expr → Prop) : List Element → List Element → Prop :=
  List.Forall₂ (Related R)

theorem Related.isOp {element element' : Element} (same : element.Related R element') :
    element.isOp = element'.isOp := by
  cases same <;> rfl

theorem atOperand_eq {elements elements' : List Element} (same : AllRelated R elements elements') :
    atOperand elements = atOperand elements' := by
  cases same with
  | nil => rfl
  | cons first _ => exact first.isOp

theorem reverse_related {elements elements' : List Element}
    (same : AllRelated R elements elements') : AllRelated R elements.reverse elements'.reverse :=
  List.rel_reverse same

theorem head_related {elements elements' : List Element} (same : AllRelated R elements elements') :
    Option.Rel (Related R) elements.head? elements'.head? := by
  cases same with
  | nil => exact .none
  | cons first _ => exact .some first

theorem tail_related {elements elements' : List Element} (same : AllRelated R elements elements') :
    AllRelated R elements.tail elements'.tail := by
  cases same with
  | nil => exact .nil
  | cons _ others => exact others

theorem unknown_eq {elements elements' : List Element} (same : AllRelated R elements elements') :
    unknown? elements = unknown? elements' := by
  induction same with
  | nil => rfl
  | cons first _ ih =>
      unfold unknown? at ih ⊢
      cases first with
      | node exprs => exact ih
      | op symbol => rw [List.findSome?_cons, List.findSome?_cons, ih]

theorem joinLeft_op {tier : Nat} {symbol : String} (here : hasTier tier (.op symbol) = true)
    (before rest : List Element) :
    joinLeft tier before (.op symbol :: rest) = (do
      let e ← join symbol before.head? rest.head?
      joinLeft tier (.node e :: before.tail) rest.tail) := by
  rw [joinLeft.eq_def]
  simp only [here, if_true]
  generalize join symbol before.head? rest.head? = joined
  cases joined <;> cases rest <;> rfl

theorem joinRight_op {tier : Nat} {symbol : String} (here : hasTier tier (.op symbol) = true)
    (before after : List Element) :
    joinRight tier (.op symbol :: before) after = (do
      let e ← join symbol before.head? after.head?
      joinRight tier before.tail (.node e :: after.tail)) := by
  rw [joinRight.eq_def]
  simp only [here, if_true]
  generalize join symbol before.head? after.head? = joined
  cases joined <;> cases before <;> rfl

section Compatible

variable (compatible : Expr.Compatible R)
include compatible

theorem prefixed_related (symbol : String) {e e' : Expr} (exprs : R e e') :
    Option.Rel R (prefixed? symbol e) (prefixed? symbol e') := by
  unfold prefixed?
  split
  · exact .some exprs
  · exact .some (compatible.pointer exprs)
  · exact .some (compatible.localPointer exprs)
  · exact .some (compatible.unary .not exprs)
  · exact .some (compatible.unary .complement exprs)
  · exact .none

theorem foldPrefixes_related {before before' after after' : List Element}
    {current current' : Element} (befores : AllRelated R before before')
    (currents : current.Related R current') (afters : AllRelated R after after') :
    Results Eq (AllRelated R) (foldPrefixes before current after)
      (foldPrefixes before' current' after') := by
  -- The induction is on the elements still to pass.
  induction befores generalizing current current' after after' with
  | nil => exact .value (.cons currents afters)
  | @cons _ _ before before' first others ih =>
      cases first with
      | node exprs => exact ih (.node exprs) (.cons currents afters)
      | op symbol =>
          cases currents with
          | op current => exact ih (.op symbol) (.cons (.op current) afters)
          | @node e e' exprs =>
              have applied := prefixed_related compatible symbol exprs
              unfold foldPrefixes
              rw [atOperand_eq others]
              split
              · exact ih (.op symbol) (.cons (.node exprs) afters)
              · split
                · exact .fault rfl
                · generalize prefixed? symbol e = p at applied ⊢
                  generalize prefixed? symbol e' = p' at applied ⊢
                  cases applied with
                  | some exprs => exact ih (.node exprs) afters
                  | none =>
                      exact ih (.node (compatible.refl _)) (.cons (.op _) (.cons (.node exprs) afters))

theorem applyPrefixes_related {elements elements' : List Element}
    (same : AllRelated R elements elements') :
    Results Eq (AllRelated R) (applyPrefixes elements) (applyPrefixes elements') := by
  have reversed := reverse_related same
  unfold applyPrefixes
  generalize elements.reverse = before at reversed ⊢
  generalize elements'.reverse = before' at reversed ⊢
  cases reversed with
  | nil => exact .value .nil
  | cons last before => exact foldPrefixes_related compatible before last .nil

theorem join_related (symbol : String) {left left' right right' : Option Element}
    (lefts : Option.Rel (Related R) left left') (rights : Option.Rel (Related R) right right') :
    Results Eq R (join symbol left right) (join symbol left' right') := by
  cases lefts with
  | none => exact .fault rfl
  | some first =>
      cases first with
      | op _ => exact .fault rfl
      | node lefts =>
          cases rights with
          | none => exact .fault rfl
          | some second =>
              cases second with
              | op _ => exact .fault rfl
              | node rights =>
                  unfold join
                  dsimp only
                  split
                  · exact .value (compatible.build lefts rights _)
                  · exact .fault rfl

theorem joinLeft_related (tier : Nat) {before before' rest rest' : List Element}
    (befores : AllRelated R before before') (rests : AllRelated R rest rest') :
    Results Eq (AllRelated R) (joinLeft tier before rest) (joinLeft tier before' rest') := by
  -- The induction is on the number of elements still to come, of which an operator takes two.
  induction size : rest.length using Nat.strongRecOn generalizing before before' rest rest' with
  | ind size ih =>
      subst size
      cases rests with
      | nil =>
          rw [joinLeft, joinLeft]
          exact .value (reverse_related befores)
      | cons first others =>
          cases first with
          | node exprs =>
              rw [joinLeft, joinLeft]
              exact ih _ (Nat.lt_succ_self _) (.cons (.node exprs) befores) others rfl
          | op symbol =>
              cases here : hasTier tier (.op symbol) with
              | true =>
                  rw [joinLeft_op here, joinLeft_op here]
                  apply (join_related compatible symbol (head_related befores) (head_related others)).bind
                  intro e e' exprs
                  refine ih _ ?_ (.cons (.node exprs) (tail_related befores))
                    (tail_related others) rfl
                  rw [List.length_tail, List.length_cons]
                  omega
              | false =>
                  rw [joinLeft.eq_def, joinLeft.eq_def]
                  simp only [here, Bool.false_eq_true, if_false]
                  exact ih _ (Nat.lt_succ_self _) (.cons (.op symbol) befores) others rfl

theorem joinRight_related (tier : Nat) {before before' after after' : List Element}
    (befores : AllRelated R before before') (afters : AllRelated R after after') :
    Results Eq (AllRelated R) (joinRight tier before after) (joinRight tier before' after') := by
  induction size : before.length using Nat.strongRecOn
    generalizing before before' after after' with
  | ind size ih =>
      subst size
      cases befores with
      | nil =>
          rw [joinRight, joinRight]
          exact .value afters
      | cons first others =>
          cases first with
          | node exprs =>
              rw [joinRight, joinRight]
              exact ih _ (Nat.lt_succ_self _) others (.cons (.node exprs) afters) rfl
          | op symbol =>
              cases here : hasTier tier (.op symbol) with
              | true =>
                  rw [joinRight_op here, joinRight_op here]
                  apply (join_related compatible symbol (head_related others) (head_related afters)).bind
                  intro e e' exprs
                  refine ih _ ?_ (tail_related others)
                    (.cons (.node exprs) (tail_related afters)) rfl
                  rw [List.length_tail, List.length_cons]
                  omega
              | false =>
                  rw [joinRight.eq_def, joinRight.eq_def]
                  simp only [here, Bool.false_eq_true, if_false]
                  exact ih _ (Nat.lt_succ_self _) others (.cons (.op symbol) afters) rfl

theorem joinTier_related {elements elements' : List Element}
    (same : AllRelated R elements elements') (tier : Nat) :
    Results Eq (AllRelated R) (joinTier elements tier) (joinTier elements' tier) := by
  unfold joinTier
  split
  · exact joinRight_related compatible tier (reverse_related same) .nil
  · exact joinLeft_related compatible tier .nil same

theorem foldTiers_related (tiers : List Nat) {elements elements' : List Element}
    (same : AllRelated R elements elements') :
    Results Eq (AllRelated R) (tiers.foldlM joinTier elements) (tiers.foldlM joinTier elements') := by
  induction tiers generalizing elements elements' with
  | nil => exact .value same
  | cons tier tiers ih =>
      rw [List.foldlM_cons, List.foldlM_cons]
      exact (joinTier_related compatible same tier).bind fun _ _ joined => ih joined

theorem joinTiers_related {elements elements' : List Element}
    (same : AllRelated R elements elements') :
    Results Eq (AllRelated R) (joinTiers elements) (joinTiers elements') := by
  unfold joinTiers
  rw [unknown_eq same]
  split
  · exact .fault rfl
  · exact foldTiers_related compatible Operator.tiers same

theorem collapse_related {elements elements' : List Element}
    (same : AllRelated R elements elements') :
    Results Eq (Option.Rel R) (collapse elements) (collapse elements') := by
  cases same with
  | nil => exact .value .none
  | cons first others =>
      apply (applyPrefixes_related compatible (.cons first others)).bind
      intro applied applied' same
      apply (joinTiers_related compatible same).bind
      intro joined joined' same
      cases same with
      | nil => exact .value .none
      | cons first others =>
          cases others with
          | cons _ _ => cases first <;> exact .fault rfl
          | nil =>
              cases first with
              | op symbol => exact .value .none
              | node exprs => exact .value (.some exprs)

end Compatible

end Element

namespace Expr

def definable? : Expr → Option (String × List Expr)
  | .macroRef name args true => some (name, args)
  | _ => none

abbrev Definables (name : String → String → Prop) (R : Expr → Expr → Prop) :
    Option (String × List Expr) → Option (String × List Expr) → Prop :=
  Option.Rel fun d d' => name d.1 d'.1 ∧ List.Forall₂ R d.2 d'.2

theorem Layer.definable? {name : String → String → Prop} {e e' : Expr} (form : Layer name R e e') :
    Definables name R e.definable? e'.definable? := by
  cases form with
  | @macroRef n n' args args' definable names parts =>
      cases definable with
      | false => exact .none
      | true => exact .some ⟨names, parts⟩
  | _ => exact .none

structure Progress.Related (R : Expr → Expr → Prop) (p p' : Progress) : Prop where
  elements : Element.AllRelated R p.elements p'.elements
  value : p.value = p'.value

namespace Progress.Related

variable {p p' : Progress} (same : Related R p p')
include same

theorem pushNode {e e' : Expr} (exprs : R e e') (last : TokenKind) :
    Related R (p.pushNode e last) (p'.pushNode e' last) :=
  ⟨.cons (.node exprs) same.elements, rfl⟩

theorem pushOp (symbol : String) : Related R (p.pushOp symbol) (p'.pushOp symbol) :=
  ⟨.cons (.op symbol) same.elements, rfl⟩

theorem finish : Element.AllRelated R p.finish p'.finish := by
  obtain ⟨elements, value⟩ := same
  have reversed := Element.reverse_related elements
  unfold Progress.finish
  generalize p.elements = xs at elements reversed ⊢
  generalize p'.elements = ys at elements reversed ⊢
  cases elements with
  | nil => exact reversed
  | cons first others =>
      cases first with
      | node exprs => exact reversed
      | op symbol =>
          dsimp only
          split
          · exact Element.reverse_related others
          · exact reversed

theorem definition? {name : String → String → Prop}
    (forms : ∀ e e', R e e' → Definables name R e.definable? e'.definable?) (symbol : String) :
    Definables name R (p.definition? symbol) (p'.definition? symbol) := by
  have defines (e : Expr) (before : List Element) (value : Option TokenKind) :
      (⟨.node e :: before, value⟩ : Progress).definition? symbol =
        if Operator.tier? symbol = some Operator.assignmentTier then e.definable? else none := by
    cases e with
    | macroRef name args definable => cases definable <;> simp [Progress.definition?, Expr.definable?]
    | _ => simp [Progress.definition?, Expr.definable?]
  obtain ⟨xs, value⟩ := p
  obtain ⟨ys, value'⟩ := p'
  cases same.elements with
  | nil => exact .none
  | cons first _ =>
      cases first with
      | op _ => exact .none
      | node exprs =>
          rw [defines, defines]
          split
          · exact forms _ _ exprs
          · exact .none

end Progress.Related

end Expr

namespace Parsed

theorem continues_eq {elements elements' : List Element}
    (same : Element.AllRelated R elements elements') : continues elements = continues elements' := by
  cases same with
  | nil => rfl
  | cons first _ => cases first <;> rfl

structure Related (R : Expr → Expr → Prop) (parsed parsed' : Parsed) : Prop where
  root : Option.Rel R parsed.root parsed'.root
  implied : parsed.implied = parsed'.implied

theorem ofElements_related (compatible : Expr.Compatible R) (imply : Bool) {elements elements' : List Element}
    (same : Element.AllRelated R elements elements') :
    Results Eq (Related R) (ofElements imply elements) (ofElements imply elements') := by
  have continued : Element.AllRelated R
      (if imply && continues elements then .node (.globalVar answer) :: elements else elements)
      (if imply && continues elements then .node (.globalVar answer) :: elements' else elements') := by
    split
    · exact .cons (.node (compatible.refl _)) same
    · exact same
  have collapsed := Element.collapse_related compatible continued
  unfold ofElements
  rw [← continues_eq same]
  generalize Element.collapse _ = root at collapsed ⊢
  generalize Element.collapse _ = root' at collapsed ⊢
  cases collapsed with
  | value roots => exact .value ⟨roots, rfl⟩
  | fault same => exact .fault same

end Parsed

end Calculator
