import Calculator.Proofs.Expr.Nesting
import Mathlib.Logic.Relation

/-! Reading as a sequence of steps. A step reads one token and what belongs to it. -/

namespace Calculator

namespace Token

inductive Grouped : List Token → Prop
  | none : Grouped []
  | group {opening close : Token} {inside : List Token} (opens : opening.kind = .openParen)
      (closes : close.kind = .closeParen) (inner : Balanced (fun _ => True) inside) :
      Grouped (opening :: (inside ++ [close]))

theorem group_grouped {opening : Token} {line : List Token} {g : Group line}
    (opens : opening.kind = .openParen) (grouped : group opening line = .ok g) :
    Grouped (opening :: (g.inside ++ [g.close])) :=
  .group opens (closes_of_group grouped).kind (closes_of_group grouped).balanced_inside

end Token

namespace Expr

open Token Reading

def leaf? (kind : NameKind) (name : String) : Option Expr :=
  match kind with
  | .globalVar => some (.globalVar name)
  | .localVar => some (.localVar name)
  | .macroName | .function => none

/-- What reading a token may come to: what has been read then, and what is left to read. -/
inductive Taken (words : Vocabulary) (topLevel : Bool) (known : NameStack) (p : Progress) (t : Token)
    (rest : List Token) : Progress → List Token → Prop
  | literal {result : Except ParseError Expr} (literal : t.literal? = some result) (e : Expr) :
      Taken words topLevel known p t rest (p.pushNode e t.kind) rest
  | operator (kind : t.kind = .operator) (plain : p.definition? t.text = none) :
      Taken words topLevel known p t rest (p.pushOp t.text) rest
  | definition (kind : t.kind = .operator) {defined : String × List Expr}
      (defines : p.definition? t.text = some defined) (body : Expr) :
      Taken words topLevel known p t rest ((p.pushOp t.text).pushNode body .name) (splitBody 0 rest).2
  | sign (kind : t.kind = .name) (bare : Name.bare t.text = "") {symbol : String}
      (sign : symbol = "$" ∨ symbol = "#") :
      Taken words topLevel known p t rest (p.pushProduct.pushOp symbol) rest
  | named (kind : t.kind = .name) (e : Expr) (last : TokenKind) {front after : List Token}
      (split : rest = front ++ after) (grouped : Grouped front)
      (isLeaf : ∀ leaf ∈ leaf? (Name.classify words known topLevel t.text rest) (Name.bare t.text),
        e = leaf) :
      Taken words topLevel known p t rest (p.pushProduct.pushNode e last) after
  | group (e : Expr) {front after : List Token} (split : rest = front ++ after)
      (grouped : Grouped (t :: front)) :
      Taken words topLevel known p t rest (p.pushProduct.pushNode e .closeParen) after

section Inversion

variable {n : Nat} {read : SpanReader n} {rest : List Token} {h : rest.length < n}

theorem readArguments_grouped :
    (readArguments read rest h).Yields fun result =>
      ∃ front, rest = front ++ result.2.val ∧ Grouped front := by
  cases rest with
  | nil => exact yields_pure ⟨[], rfl, .none⟩
  | cons opening inner =>
      rw [readArguments]
      split
      · rename_i opens
        refine (yields_except fun g grouped => grouped).bind fun g grouped => ?_
        exact (yields_any _).bind fun _ _ => yields_pure
          ⟨_, group_split grouped, group_grouped opens grouped⟩
      · exact yields_pure ⟨[], rfl, .none⟩

theorem readLambdaGroup_grouped :
    (readLambdaGroup read rest h).Yields fun result =>
      ∃ front, rest = front ++ result.2.val ∧ Grouped front := by
  cases rest with
  | nil => exact yields_error _
  | cons opening inner =>
      rw [readLambdaGroup]
      split
      · rename_i opens
        refine (yields_except fun g grouped => grouped).bind fun g grouped => ?_
        exact (yields_any _).bind fun _ _ => yields_pure
          ⟨_, group_split grouped, group_grouped opens grouped⟩
      · exact yields_error _

variable {words : Vocabulary} {topLevel : Bool} {p : Progress} {t : Token} {known : NameStack}

theorem readGroup_taken (opens : t.kind = .openParen) :
    (readGroup read topLevel p t rest h).Yields fun result =>
      Taken words topLevel known p t rest result.1 result.2.val := by
  refine (yields_except fun g grouped => grouped).bind fun g grouped => ?_
  refine (yields_any _).bind fun root _ => ?_
  cases root with
  | none => exact yields_error _
  | some e =>
      have split : rest = g.inside ++ [g.close] ++ g.after := List.cons.inj (group_split grouped) |>.2
      exact yields_pure (.group e split (group_grouped opens grouped))

theorem readOperator_taken (kind : t.kind = .operator) :
    (readOperator read p t.text rest h).Yields fun result =>
      Taken words topLevel known p t rest result.1 result.2.val := by
  unfold readOperator
  split
  · rename_i plain
    exact yields_pure (.operator kind plain)
  · rename_i defines
    exact (yields_any _).bind fun body _ => yields_pure (.definition kind defines body)

theorem readName_taken (kind : t.kind = .name) {result : Progress × Span rest} {names : NameStack}
    (runs : (readName words read topLevel p t.text rest h).run known = (.ok result, names)) :
    Taken words topLevel known p t rest result.1 result.2.val := by
  unfold readName at runs
  rw [run_get] at runs
  refine (show Yields _ (fun result : Progress × Span rest =>
    Taken words topLevel known p t rest result.1 result.2.val) from ?_) known result names runs
  cases classified : Name.classify words known topLevel t.text rest with
  | function =>
      simp only [if_true]
      split
      · exact yields_error _
      · refine readArguments_grouped.bind ?_
        rintro ⟨args, after⟩ ⟨front, split, grouped⟩
        exact yields_pure (.named kind _ _ split grouped (by simp [classified, leaf?]))
  | globalVar =>
      simp only [reduceCtorEq, if_false]
      split
      · rename_i bare
        exact yields_pure (.sign kind (String.isEmpty_iff.mp bare) (.inl rfl))
      · exact yields_pure (.named kind _ _ rfl .none (by simp [classified, leaf?]))
  | localVar =>
      simp only [reduceCtorEq, if_false]
      split
      · rename_i bare
        exact yields_pure (.sign kind (String.isEmpty_iff.mp bare) (.inr rfl))
      · exact (yields_any _).bind fun _ _ =>
          yields_pure (.named kind _ _ rfl .none (by simp [classified, leaf?]))
  | macroName =>
      simp only [reduceCtorEq, if_false]
      split
      · refine readLambdaGroup_grouped.bind ?_
        rintro ⟨e, after⟩ ⟨front, split, grouped⟩
        exact yields_pure (.named kind _ _ split grouped (by simp [classified, leaf?]))
      · refine readArguments_grouped.bind ?_
        rintro ⟨args, after⟩ ⟨front, split, grouped⟩
        exact yields_pure (.named kind _ _ split grouped (by simp [classified, leaf?]))

theorem readToken_taken {result : Progress × Span rest} {names : NameStack}
    (runs : (readToken words read topLevel p t rest h).run known = (.ok result, names)) :
    Taken words topLevel known p t rest result.1 result.2.val := by
  unfold readToken at runs
  split at runs
  · rename_i literal
    refine (show Yields _ (fun result : Progress × Span rest =>
      Taken words topLevel known p t rest result.1 result.2.val) from ?_) known result names runs
    exact (yields_any _).bind fun e _ => yields_pure (.literal literal e)
  · split at runs
    · exact readOperator_taken ‹_› known result names runs
    · exact readName_taken ‹_› runs
    · exact readGroup_taken ‹_› known result names runs
    · cases runs

end Inversion

theorem Taken.pushes {words : Vocabulary} {topLevel : Bool} {known : NameStack} {p p' : Progress}
    {t : Token} {rest after : List Token} (taken : Taken words topLevel known p t rest p' after) :
    ∃ last pushed, p'.elements = last :: pushed ++ p.elements := by
  have product : ∃ pushed, p.pushProduct.elements = pushed ++ p.elements := by
    unfold Progress.pushProduct
    split
    · exact ⟨[.op Operator.coefficient], rfl⟩
    · exact ⟨[], rfl⟩
  obtain ⟨pushed, product⟩ := product
  cases taken with
  | literal _ e => exact ⟨.node e, [], rfl⟩
  | operator => exact ⟨.op t.text, [], rfl⟩
  | definition _ _ body => exact ⟨.node body, [.op t.text], rfl⟩
  | @sign _ _ symbol => exact ⟨.op symbol, pushed, congrArg _ product⟩
  | named _ e => exact ⟨.node e, pushed, congrArg _ product⟩
  | group e => exact ⟨.node e, pushed, congrArg _ product⟩

theorem Taken.length_le {words : Vocabulary} {topLevel : Bool} {known : NameStack} {p p' : Progress}
    {t : Token} {rest after : List Token} (taken : Taken words topLevel known p t rest p' after) :
    after.length ≤ rest.length := by
  cases taken with
  | literal | operator | sign => exact Nat.le_refl _
  | definition =>
      have sizes := length_splitBody 0 rest
      omega
  | named _ _ _ split | group _ split =>
      rw [split, List.length_append]
      omega

theorem Progress.finish_eq (p : Progress) :
    p.finish = p.elements.reverse ∨ p.finish ++ [.op ";"] = p.elements.reverse := by
  unfold finish
  split
  · rename_i top
    split
    · rename_i sequence
      exact .inr (by rw [top, sequence, List.reverse_cons])
    · exact .inl rfl
  · exact .inl rfl

theorem tier_of_definition? {p : Progress} {symbol : String} {definition : String × List Expr}
    (defines : p.definition? symbol = some definition) :
    Operator.tier? symbol = some Operator.assignmentTier := by
  unfold Progress.definition? at defines
  split at defines
  · split at defines
    · assumption
    · cases defines
  · cases defines

/-- Where reading a span has come to. -/
structure Point where
  progress : Progress
  known : NameStack
  line : List Token

def Point.start (known : NameStack) (span : List Token) : Point := ⟨.start, known, span⟩

inductive Step (words : Vocabulary) (topLevel : Bool) : Point → Point → Prop
  | intro {p p' : Progress} {known names : NameStack} {t : Token} {rest : List Token} {after : Span rest}
      (runs : (readToken words (reader words (rest.length + 1)) topLevel p t rest
        (Nat.lt_succ_self _)).run known = (.ok (p', after), names)) :
      Step words topLevel ⟨p, known, t :: rest⟩ ⟨p', names, after.val⟩

abbrev Comes (words : Vocabulary) (topLevel : Bool) : Point → Point → Prop :=
  Relation.ReflTransGen (Step words topLevel)

def Point.Ends (words : Vocabulary) (topLevel : Bool) (point : Point) (elements : List Element) : Prop :=
  ((elementsOf words topLevel point.progress point.line).run point.known).1 = .ok elements

section Points

variable {words : Vocabulary} {topLevel : Bool} {elements : List Element}

theorem Step.taken {p : Progress} {known : NameStack} {t : Token} {rest : List Token} {point : Point}
    (step : Step words topLevel ⟨p, known, t :: rest⟩ point) :
    Taken words topLevel known p t rest point.progress point.line := by
  cases step with
  | intro runs => exact readToken_taken runs

theorem Step.ends {a b : Point} (step : Step words topLevel a b) :
    a.Ends words topLevel elements ↔ b.Ends words topLevel elements := by
  cases step with
  | intro runs =>
      unfold Point.Ends
      rw [elementsOf_cons, run_bind, runs]

theorem Comes.ends {a b : Point} (comes : Comes words topLevel a b) :
    a.Ends words topLevel elements ↔ b.Ends words topLevel elements := by
  induction comes with
  | refl => exact .rfl
  | tail _ step ih => exact ih.trans step.ends

theorem Point.Ends.step {p : Progress} {known : NameStack} {t : Token} {rest : List Token}
    (ends : Ends words topLevel ⟨p, known, t :: rest⟩ elements) :
    ∃ point, Step words topLevel ⟨p, known, t :: rest⟩ point ∧ point.Ends words topLevel elements := by
  have run := ends
  unfold Ends at run
  rw [elementsOf_cons, run_bind] at run
  split at run
  · rename_i step names runs
    have step := Step.intro runs
    exact ⟨_, step, step.ends.mp ends⟩
  · cases run

theorem Point.Ends.front {point : Point} (ends : point.Ends words topLevel elements) :
    point.progress.elements.reverse <+: elements ∨
      elements ++ [.op ";"] = point.progress.elements.reverse := by
  obtain ⟨p, known, line⟩ := point
  induction size : line.length using Nat.strongRecOn generalizing p known line with
  | ind size ih =>
      subst size
      cases line with
      | nil =>
          cases ends
          rcases p.finish_eq with all | dropped
          · exact .inl (all ▸ List.prefix_refl _)
          · exact .inr dropped
      | cons t rest =>
          obtain ⟨⟨p', names, after⟩, step, ends⟩ := ends.step
          have taken := step.taken
          obtain ⟨last, pushed, grown⟩ := taken.pushes
          have reversed : p'.elements.reverse = p.elements.reverse ++ pushed.reverse ++ [last] := by
            simp [show p'.elements = last :: pushed ++ p.elements from grown]
          have further := ih _ (Nat.lt_succ_of_le taken.length_le) p' names after ends rfl
          change p'.elements.reverse <+: elements ∨ _ = p'.elements.reverse at further
          rw [reversed, List.append_assoc] at further
          refine .inl ?_
          rcases further with stays | dropped
          · exact (List.prefix_append _ _).trans stays
          · rw [← List.append_assoc] at dropped
            exact ⟨_, (List.append_inj' dropped rfl).1.symm⟩

end Points

end Expr

end Calculator
