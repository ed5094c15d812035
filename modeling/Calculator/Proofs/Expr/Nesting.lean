import Calculator.Proofs.Expr.Formed

/-!
Lines that are read have their brackets in order: every bracket is closed by one of its kind, and commas
stand only between the arguments of a call or the parameters of a lambda.

While the reader looks for the end of a group it counts depth alone, and the commas of a call are found
the same way. That the pairs inside match follows because each of them is read in its turn.
-/

namespace Calculator

namespace Expr

inductive Within (e : Expr) : Expr → Prop
  | here : Within e e
  | part {whole part : Expr} (mem : part ∈ whole.parts) (inner : Within e part) : Within e whole

theorem Within.trans {e middle whole : Expr} (first : e.Within middle) (second : middle.Within whole) :
    e.Within whole := by
  induction second with
  | here => exact first
  | part mem _ ih => exact .part mem ih

/-- The expression is what a name and a number of parameters in brackets stand for: a call, a use of a
macro, or, behind a lone sigil, a lambda whose last parameter is the body. -/
def Takes (name : String) (count : Nat) : Expr → Prop
  | .call function args => function = name ∧ args.length = count
  | .macroRef called args _ => called = Name.bare name ∧ args.length = count
  | .lambda aliases _ => Name.bare name = "" ∧ aliases.length + 1 = count
  | _ => False

def OccursIn (root : Option Expr) (e : Expr) : Prop := ∃ whole ∈ root, e.Within whole

def Among (elements : List Element) (e : Expr) : Prop := ∃ x, .node x ∈ elements ∧ e.Within x

end Expr

namespace Token

structure Pairs (opening close : Token) : Prop where
  opens : opening.kind = .openParen
  closes : close.kind = .closeParen
  matching : closingFor opening.bracket = close.bracket

/-- Spans with a comma after each; the last one may do without. -/
inductive Separated : List (List Token) → List Token → Prop
  | none : Separated [] []
  | last (span : List Token) : Separated [span] span
  | more {comma : Token} {spans : List (List Token)} {line : List Token} (span : List Token)
      (kind : comma.kind = .comma) (rest : Separated spans line) :
      Separated (span :: spans) (span ++ comma :: line)

/-- Every bracket is closed by one of its kind. A comma stands only directly inside the brackets behind
a name, where an expression that is used takes the spans it separates. -/
inductive Nested (used : Expr → Prop) : List Token → Prop
  | nil : Nested used []
  | flat {t : Token} {line : List Token} (isFlat : t.Flat) (noComma : t.NoComma)
      (rest : Nested used line) : Nested used (t :: line)
  | group {opening close : Token} {inside after : List Token} (pair : Pairs opening close)
      (inner : Nested used inside) (rest : Nested used after) :
      Nested used (opening :: (inside ++ close :: after))
  | call {callee opening close : Token} {spans : List (List Token)} {inside after : List Token}
      {e : Expr} (named : callee.kind = .name) (pair : Pairs opening close)
      (separated : Separated spans inside) (inner : ∀ span ∈ spans, Nested used span) (occurs : used e)
      (takes : e.Takes callee.text spans.length) (rest : Nested used after) :
      Nested used (callee :: opening :: (inside ++ close :: after))

/-- Whether the brackets of a line close those of `opened`, innermost first, and one another, each one
of its kind. -/
def bracketsMatch (opened : List Token) : List Token → Bool
  | [] => opened.isEmpty
  | t :: rest =>
    if t.kind = .openParen then bracketsMatch (t :: opened) rest
    else if t.kind = .closeParen then
      match opened with
      | [] => false
      | opening :: opened => closingFor opening.bracket = t.bracket && bracketsMatch opened rest
    else bracketsMatch opened rest

theorem Separated.consFirst {spans : List (List Token)} {line : List Token} (t : Token)
    (separated : Separated spans line) : Separated (consFirst t spans) (t :: line) := by
  cases separated with
  | none => exact .last [t]
  | last => exact .last (t :: line)
  | more span kind rest => exact .more (t :: span) kind rest

theorem splitCommas_separated (depth : Nat) (line : List Token) :
    Separated (splitCommas depth line) line := by
  fun_induction splitCommas depth line with
  | case1 => exact .last []
  | case2 _ t _ _ _ ih => exact ih.consFirst t
  | case3 _ _ rest comma _ empty =>
      obtain rfl := List.isEmpty_iff.mp empty
      exact .more [] comma .none
  | case4 _ _ _ comma _ _ ih => exact .more [] comma ih
  | case5 _ t _ _ ih => exact ih.consFirst t
  | case6 _ t _ _ ih => exact ih.consFirst t
  | case7 _ t _ _ _ _ ih => exact ih.consFirst t

theorem parameters_separated (line : List Token) : Separated (parameters line) line := by
  cases line with
  | nil => exact .none
  | cons t rest => exact splitCommas_separated 0 (t :: rest)

theorem Closes.kind {depth : Nat} {line inside after : List Token} {close : Token}
    (closes : Closes depth line inside close after) : close.kind = .closeParen := by
  induction closes with
  | here kind => exact kind
  | flat _ _ ih => exact ih
  | opening _ _ ih => exact ih
  | closing _ _ ih => exact ih

theorem group_pairs {opening : Token} {line : List Token} {g : Group line}
    (opens : opening.kind = .openParen) (grouped : group opening line = .ok g) :
    Pairs opening g.close := by
  unfold group at grouped
  split at grouped
  · cases grouped
  · rename_i found
    split at grouped
    · rename_i matching
      cases grouped
      exact ⟨opens, (Closes.of_closeGroup? found).kind, matching⟩
    · cases grouped

theorem group_split {opening : Token} {line : List Token} {g : Group line}
    (grouped : group opening line = .ok g) :
    opening :: line = opening :: (g.inside ++ [g.close]) ++ g.after := by
  conv_lhs => rw [group_append grouped]
  simp

theorem plain_of_literal? {t : Token} {result : Except ParseError Expr} (literal : t.literal? = some result) :
    t.Flat ∧ t.NoComma := by
  refine ⟨Expr.flat_of_literal? literal, fun kind => ?_⟩
  simp [Token.literal?, kind] at literal

namespace Nested

variable {used other : Expr → Prop} {line more : List Token}

theorem append (first : Nested used line) (second : Nested used more) : Nested used (line ++ more) := by
  induction first with
  | nil => exact second
  | flat isFlat noComma _ ih => exact .flat isFlat noComma ih
  | group pair inner _ _ ih =>
      rw [List.cons_append, List.append_assoc, List.cons_append]
      exact .group pair inner ih
  | call named pair separated inner occurs takes _ _ ih =>
      rw [List.cons_append, List.cons_append, List.append_assoc, List.cons_append]
      exact .call named pair separated inner occurs takes ih

theorem mono (nested : Nested used line) (weaker : ∀ e, used e → other e) : Nested other line := by
  induction nested with
  | nil => exact .nil
  | flat isFlat noComma _ ih => exact .flat isFlat noComma ih
  | group pair _ _ inner ih => exact .group pair inner ih
  | call named pair separated _ occurs takes _ inner ih =>
      exact .call named pair separated inner (weaker _ occurs) takes ih

theorem of_none (nested : Nested used line)
    (none : ∀ e name count, used e → e.Takes name count → count = 0) : Nested other line := by
  induction nested with
  | nil => exact .nil
  | flat isFlat noComma _ ih => exact .flat isFlat noComma ih
  | group pair _ _ inner ih => exact .group pair inner ih
  | call named pair separated _ occurs takes _ _ ih =>
      obtain rfl := List.eq_nil_of_length_eq_zero (none _ _ _ occurs takes)
      cases separated
      exact .flat (by simp [Flat, named]) (by simp [NoComma, named]) (.group pair .nil ih)

end Nested

theorem bracketsMatch_flat {t : Token} (flat : t.Flat) (opened rest : List Token) :
    bracketsMatch opened (t :: rest) = bracketsMatch opened rest := by
  rw [bracketsMatch.eq_def]
  simp [flat.1, flat.2]

theorem bracketsMatch_pair {opening close : Token} {inside : List Token} (pair : Pairs opening close)
    (passes : ∀ opened rest, bracketsMatch opened (inside ++ rest) = bracketsMatch opened rest)
    (opened rest : List Token) :
    bracketsMatch opened (opening :: (inside ++ close :: rest)) = bracketsMatch opened rest := by
  have enters : bracketsMatch opened (opening :: (inside ++ close :: rest)) =
      bracketsMatch (opening :: opened) (inside ++ close :: rest) := by
    simp [bracketsMatch, pair.opens]
  have leaves : bracketsMatch (opening :: opened) (close :: rest) = bracketsMatch opened rest := by
    simp [bracketsMatch, pair.closes, pair.matching]
  calc bracketsMatch opened (opening :: (inside ++ close :: rest))
      = bracketsMatch (opening :: opened) (inside ++ close :: rest) := enters
    _ = bracketsMatch (opening :: opened) (close :: rest) := passes _ _
    _ = bracketsMatch opened rest := leaves

theorem Separated.bracketsMatch {spans : List (List Token)} {line : List Token}
    (separated : Separated spans line)
    (passes : ∀ span ∈ spans, ∀ opened rest,
      bracketsMatch opened (span ++ rest) = bracketsMatch opened rest) (opened rest : List Token) :
    bracketsMatch opened (line ++ rest) = bracketsMatch opened rest := by
  induction separated with
  | none => rfl
  | last span => exact passes span (.head _) opened rest
  | @more comma spans line span kind _ ih =>
      obtain ⟨first, others⟩ := List.forall_mem_cons.mp passes
      rw [List.append_assoc, first, List.cons_append, bracketsMatch_flat (flat_of_comma kind), ih others]

theorem Nested.bracketsMatch_append {used : Expr → Prop} {line : List Token} (nested : Nested used line)
    (opened more : List Token) : bracketsMatch opened (line ++ more) = bracketsMatch opened more := by
  induction nested generalizing opened more with
  | nil => rfl
  | flat isFlat _ _ ih => rw [List.cons_append, bracketsMatch_flat isFlat, ih]
  | group pair _ _ inner ih =>
      rw [List.cons_append, List.append_assoc, List.cons_append, bracketsMatch_pair pair inner, ih]
  | call named pair separated _ _ _ _ inner ih =>
      rw [List.cons_append, List.cons_append, List.append_assoc, List.cons_append,
        bracketsMatch_flat (by simp [Flat, named]),
        bracketsMatch_pair pair (separated.bracketsMatch inner), ih]

theorem Nested.bracketsMatch {used : Expr → Prop} {line : List Token} (nested : Nested used line) :
    bracketsMatch [] line = true := by
  have closed := nested.bracketsMatch_append [] []
  rwa [List.append_nil] at closed

end Token

namespace Element

open Calculator.Expr

def Kept (elements others : List Element) : Prop := ∀ x, .node x ∈ elements → Among others x

theorem Kept.of_subset {elements others : List Element} (subset : ∀ x, .node x ∈ elements →
    .node x ∈ others) : Kept elements others := fun x mem => ⟨x, subset x mem, .here⟩

theorem Kept.trans {xs ys zs : List Element} (first : Kept xs ys) (second : Kept ys zs) : Kept xs zs := by
  intro x mem
  obtain ⟨y, mem, within⟩ := first x mem
  obtain ⟨z, mem, within'⟩ := second y mem
  exact ⟨z, mem, within.trans within'⟩

theorem Kept.among {elements others : List Element} (kept : Kept elements others) {e : Expr}
    (among : Among elements e) : Among others e := by
  obtain ⟨x, mem, within⟩ := among
  obtain ⟨y, mem, within'⟩ := kept x mem
  exact ⟨y, mem, within.trans within'⟩

theorem within_prefixed {symbol : String} {operand e : Expr} (applies : prefixed? symbol operand = some e) :
    operand.Within e := by
  unfold prefixed? at applies
  split at applies
  · cases applies
    exact .here
  all_goals
    cases applies
    try exact .part (.head _) .here

theorem within_build (left right : Expr) (role : Operator.Role) :
    left.Within (left.build role right) ∧ right.Within (left.build role right) := by
  cases role with
  | binary op => exact ⟨.part (.head _) .here, .part (.tail _ (.head _)) .here⟩
  | assign compound =>
      cases compound with
      | none => exact ⟨.part (.head _) .here, .part (.tail _ (.head _)) .here⟩
      | some op =>
          exact ⟨.part (.head _) .here, .part (.tail _ (.head _)) (.part (.tail _ (.head _)) .here)⟩

theorem foldPrefixes_kept {before after elements : List Element} {current : Element}
    (folded : foldPrefixes before current after = .ok elements) :
    Kept (before.reverse ++ current :: after) elements := by
  fun_induction foldPrefixes before current after with
  | case1 current after =>
      cases folded
      exact .of_subset fun x mem => mem
  | case2 symbol before operand after _ ih =>
      refine Kept.trans (.of_subset fun x mem => ?_) (ih folded)
      simpa using mem
  | case3 => cases folded
  | case4 symbol before operand after _ _ e applies ih =>
      refine Kept.trans (fun x mem => ?_) (ih folded)
      have place : .node x ∈ before.reverse ++ .node e :: after ∨ x = operand := by
        simp at mem ⊢
        tauto
      rcases place with apart | rfl
      · exact ⟨x, apart, .here⟩
      · exact ⟨e, by simp, within_prefixed applies⟩
  | case5 symbol before operand after _ _ _ ih =>
      refine Kept.trans (.of_subset fun x mem => ?_) (ih folded)
      simp at mem ⊢
      tauto
  | case6 e before current after _ ih =>
      refine Kept.trans (.of_subset fun x mem => ?_) (ih folded)
      simpa using mem

theorem applyPrefixes_kept {elements applied : List Element} (ok : applyPrefixes elements = .ok applied) :
    Kept elements applied := by
  unfold applyPrefixes at ok
  split at ok
  · rename_i empty
    obtain rfl := List.reverse_eq_nil_iff.mp empty
    exact nofun
  · rename_i last before reversed
    have split : elements = before.reverse ++ [last] := by
      rw [← List.reverse_reverse elements, reversed, List.reverse_cons]
    rw [split]
    exact foldPrefixes_kept ok

theorem Reduces.kept {xs ys : List Element} (reduces : Reduces xs ys) : Kept xs ys := by
  induction reduces with
  | refl => exact .of_subset fun x mem => mem
  | tail _ step ih =>
      obtain ⟨tier, joined⟩ := step
      refine ih.trans ?_
      cases joined with
      | @join _ role before after left right found =>
          obtain ⟨lefts, rights⟩ := within_build left right role
          intro x mem
          have place : .node x ∈ before ++ .node (left.build role right) :: after ∨ x = left ∨
              x = right := by
            simp at mem ⊢
            tauto
          rcases place with apart | rfl | rfl
          · exact ⟨x, apart, .here⟩
          · exact ⟨_, by simp, lefts⟩
          · exact ⟨_, by simp, rights⟩

theorem collapse_kept {elements : List Element} {root : Option Expr}
    (collapsed : collapse elements = .ok root) {e : Expr} (among : Among elements e) : OccursIn root e := by
  obtain ⟨rfl, _⟩ | ⟨operands, joined, applied, reduces, ended⟩ := collapse_ok collapsed
  · obtain ⟨x, mem, _⟩ := among
    cases mem
  · obtain ⟨x, mem, within⟩ := ((applyPrefixes_kept applied).trans reduces.kept).among among
    rcases ended with ⟨root, rfl, rfl⟩ | ⟨none, _⟩
    · obtain rfl : x = root := by simpa using mem
      exact ⟨x, rfl, within⟩
    · exact absurd mem (none x)

end Element

namespace Expr

open Reading Token

namespace Progress

variable {p : Progress}

theorem kept_pushNode (e : Expr) (last : TokenKind) :
    Element.Kept p.elements (p.pushNode e last).elements := .of_subset fun _ mem => .tail _ mem

theorem kept_pushOp (symbol : String) : Element.Kept p.elements (p.pushOp symbol).elements :=
  .of_subset fun _ mem => .tail _ mem

theorem kept_pushProduct : Element.Kept p.elements p.pushProduct.elements := by
  unfold Progress.pushProduct
  split
  · exact kept_pushOp _
  · exact .of_subset fun x mem => mem

theorem kept_finish : Element.Kept p.elements p.finish := by
  refine .of_subset fun x mem => ?_
  unfold Progress.finish
  split
  · rename_i symbol before split
    split
    · rw [split] at mem
      simpa using mem
    · simpa using mem
  · simpa using mem

theorem among_pushNode (e : Expr) (last : TokenKind) {part : Expr} (within : part.Within e) :
    Among (p.pushNode e last).elements part := ⟨e, .head _, within⟩

end Progress

theorem OccursIn.within {root : Option Expr} {e : Expr} (occurs : OccursIn root e) (default : Expr) :
    e.Within (root.getD default) := by
  obtain ⟨whole, rfl, within⟩ := occurs
  exact within

theorem alias?_takes {e part : Expr} {name called : String} {count : Nat}
    (named : e.alias? = some name) (within : part.Within e) (takes : part.Takes called count) :
    count = 0 := by
  unfold alias? at named
  split at named
  all_goals
    cases within with
    | here => first | exact takes.2.symm | cases takes | cases named
    | part mem => first | cases mem | cases named

def CallNested (e : Expr) (name : String) (line : List Token) : Prop :=
  ∀ callee, callee.kind = .name → callee.text = name → Nested (·.Within e) (callee :: line)

theorem callNested_of_spans {e : Expr} {name : String} {opening close : Token} {inside : List Token}
    (pair : Pairs opening close)
    (inner : ∀ span ∈ parameters inside, Nested (·.Within e) span)
    (takes : e.Takes name (parameters inside).length) :
    CallNested e name (opening :: (inside ++ [close])) := by
  rintro callee named rfl
  exact .call named pair (parameters_separated inside) inner .here takes .nil

theorem callNested_nil (e : Expr) (name : String) : CallNested e name [] := by
  rintro callee named rfl
  exact .flat (by simp [Flat, named]) (by simp [NoComma, named]) .nil

def StepNested (p : Progress) (line : List Token) {rest : List Token} (step : Progress × Span rest) :
    Prop :=
  Element.Kept p.elements step.1.elements ∧
    ∃ front, line = front ++ step.2.val ∧ Nested (Among step.1.elements) front

theorem stepNested_name {p : Progress} {t : Token} {rest : List Token} {e : Expr} {front : List Token} {after : Span rest} {last : TokenKind}
    (named : t.kind = .name) (split : rest = front ++ after.val) (nested : CallNested e t.text front) :
    StepNested p (t :: rest) (p.pushProduct.pushNode e last, after) := by
  refine ⟨Progress.kept_pushProduct.trans (Progress.kept_pushNode _ _), t :: front, ?_, ?_⟩
  · exact congrArg (t :: ·) split
  · exact (nested t named rfl).mono fun part within => Progress.among_pushNode _ _ within

theorem stepNested_sigil {p : Progress} {t : Token} {rest : List Token} {symbol : String} (named : t.kind = .name) :
    StepNested p (t :: rest) (p.pushProduct.pushOp symbol, ⟨rest, Nat.le_refl _⟩) :=
  ⟨Progress.kept_pushProduct.trans (Progress.kept_pushOp _), [t], rfl,
    .flat (by simp [Flat, named]) (by simp [NoComma, named]) .nil⟩

section Steps

variable {n : Nat} {read : SpanReader n}
  (reads : ∀ topLevel span (h : span.length < n),
    (read topLevel span h).Yields fun root => Nested (OccursIn root) span)
include reads

theorem readParameters_nested {inside : List Token} {h : inside.length < n} :
    (readParameters read inside h).Yields fun args => args.length = (parameters inside).length ∧
      ∀ span ∈ parameters inside, ∃ e ∈ args, Nested (·.Within e) span := by
  rw [← spans_val, List.length_map]
  simp only [List.forall_mem_map]
  refine Yields.mapM_each fun span _ => ?_
  refine (reads false span.val _).bind fun root nested => ?_
  cases root with
  | none => exact yields_error _
  | some e => exact yields_pure (nested.mono fun part occurs => occurs.within e)

theorem readArguments_nested {rest : List Token} {h : rest.length < n} :
    (readArguments read rest h).Yields fun result =>
      ∃ front, rest = front ++ result.2.val ∧ ∀ e name, e.parts = result.1 →
        (∀ count, count = result.1.length → e.Takes name count) → CallNested e name front := by
  cases rest with
  | nil => exact yields_pure ⟨[], rfl, fun e name _ _ => callNested_nil e name⟩
  | cons opening inner =>
      rw [readArguments]
      split
      · rename_i opens
        refine (yields_except fun g grouped => grouped).bind fun g grouped => ?_
        refine (readParameters_nested reads).bind fun args read => yields_pure ?_
        obtain ⟨counts, all⟩ := read
        refine ⟨_, group_split grouped, fun e name parts takes => ?_⟩
        refine callNested_of_spans (group_pairs opens grouped) (fun span mem => ?_) (takes _ counts.symm)
        obtain ⟨arg, mem, nested⟩ := all span mem
        exact nested.mono fun part within => within.trans (.part (parts ▸ mem) .here)
      · exact yields_pure ⟨[], rfl, fun e name _ _ => callNested_nil e name⟩

theorem readLambdaSpans_nested {inside : List Token} {h : inside.length < n}
    {spans : List (Span inside)} :
    (readLambdaSpans read inside h spans).Yields fun result => ∀ lambda ∈ result,
      lambda.1.length + 1 = spans.length ∧
        ∀ span ∈ spans, Nested (·.Within lambda.2) span.val := by
  induction spans with
  | nil => exact yields_pure nofun
  | cons span spans ih =>
      unfold readLambdaSpans
      refine (reads false span.val _).bind fun root nested => ?_
      have parameter := nested.mono fun part occurs => occurs.within (.localVar "_")
      simp only
      split
      · rename_i empty
        obtain rfl := List.isEmpty_iff.mp empty
        refine yields_pure ?_
        rintro _ ⟨⟩
        exact ⟨rfl, List.forall_mem_singleton.mpr parameter⟩
      split
      · exact yields_error _
      · rename_i name named
        refine (yields_any _).bind fun _ _ => ih.bind fun result all => yields_pure ?_
        rintro _ mem
        obtain ⟨inner, found, rfl⟩ := Option.map_eq_some_iff.mp mem
        obtain ⟨counts, others⟩ := all inner found
        refine ⟨by simp [counts], List.forall_mem_cons.mpr ⟨?_, others⟩⟩
        exact parameter.of_none fun part called count => alias?_takes named

theorem readLambdaGroup_nested {rest : List Token} {h : rest.length < n} {name : String}
    (bare : Name.bare name = "") :
    (readLambdaGroup read rest h).Yields fun result =>
      ∃ front, rest = front ++ result.2.val ∧ CallNested result.1 name front := by
  cases rest with
  | nil => exact yields_error _
  | cons opening inner =>
      rw [readLambdaGroup]
      split
      · rename_i opens
        refine (yields_except fun g grouped => grouped).bind fun g grouped => ?_
        have shorter := g.shorter
        have fits : g.inside.length < n := by
          simp only [List.length_cons] at h
          omega
        have lambda : (readLambda read opening g.inside fits).Yields fun e =>
            CallNested e name (opening :: (g.inside ++ [g.close])) := by
          refine (readLambdaSpans_nested reads).inFrame.bind fun result all => ?_
          cases result with
          | none => exact yields_error _
          | some lambda =>
              obtain ⟨counts, nested⟩ := all lambda rfl
              refine yields_pure (callNested_of_spans (group_pairs opens grouped) ?_ ?_)
              · rw [← spans_val, List.forall_mem_map]
                exact fun span mem => (nested span mem).mono fun part within =>
                  within.trans (.part (.head _) .here)
              · rw [← spans_val, List.length_map]
                exact ⟨bare, counts⟩
        exact lambda.bind fun e nested => yields_pure ⟨_, group_split grouped, nested⟩
      · exact yields_error _

theorem readMacroBody_nested {name symbol : String} {args : List Expr} {body : List Token}
    {h : body.length < n} :
    (readMacroBody read name args symbol body h).Yields fun e => Nested (·.Within e) body := by
  refine (yields_any _).bind fun _ _ => ?_
  have inner := (yields_any (forIn (args.filterMap alias?) PUnit.unit fun name _ => do
    declare name .localVar
    pure (.yield PUnit.unit))).bind fun _ _ => reads false body h
  refine inner.inFrame.bind fun root nested => ?_
  cases root with
  | none => exact yields_error _
  | some e => exact yields_pure (nested.mono fun part occurs => occurs.within e)

section Step

variable {topLevel : Bool} {p : Progress} {t : Token} {rest : List Token} {h : rest.length < n}

theorem readGroup_nested (opens : t.kind = .openParen) :
    (readGroup read topLevel p t rest h).Yields (StepNested p (t :: rest)) := by
  refine (yields_except fun g grouped => grouped).bind fun g grouped => ?_
  refine (reads topLevel g.inside _).bind fun root nested => ?_
  cases root with
  | none => exact yields_error _
  | some e =>
      refine yields_pure ⟨Progress.kept_pushProduct.trans (Progress.kept_pushNode _ _), _,
        group_split grouped, ?_⟩
      exact .group (group_pairs opens grouped) (nested.mono fun part occurs =>
          Progress.among_pushNode _ _ (occurs.within e)) .nil

theorem readOperator_nested (operator : t.kind = .operator) :
    (readOperator read p t.text rest h).Yields (StepNested p (t :: rest)) := by
  have flat : t.Flat := by simp [Flat, operator]
  have noComma : t.NoComma := by simp [NoComma, operator]
  unfold readOperator
  split
  · exact yields_pure ⟨Progress.kept_pushOp _, [t], rfl, .flat flat noComma .nil⟩
  · refine (readMacroBody_nested reads).bind fun e nested => yields_pure
      ⟨(Progress.kept_pushOp _).trans (Progress.kept_pushNode _ _), t :: (splitBody 0 rest).1, ?_, ?_⟩
    · rw [List.cons_append, splitBody_append]
    · exact .flat flat noComma (nested.mono fun part within => Progress.among_pushNode _ _ within)

theorem readName_nested (words : Vocabulary) (named : t.kind = .name) :
    (readName words read topLevel p t.text rest h).Yields (StepNested p (t :: rest)) := by
  unfold readName
  refine (yields_any _).bind fun names _ => ?_
  cases Name.classify words names topLevel t.text rest with
  | function =>
      simp only [if_true]
      split
      · exact yields_error _
      · refine (readArguments_nested reads).bind ?_
        rintro ⟨args, after⟩ ⟨front, split, nested⟩
        exact yields_pure (stepNested_name named split
          (nested (.call t.text args) _ rfl fun count counts => ⟨rfl, counts.symm⟩))
  | globalVar =>
      simp only [reduceCtorEq, if_false]
      split
      · exact yields_pure (stepNested_sigil named)
      · exact yields_pure (stepNested_name named rfl (callNested_nil _ _))
  | localVar =>
      simp only [reduceCtorEq, if_false]
      split
      · exact yields_pure (stepNested_sigil named)
      · exact (yields_any _).bind fun _ _ =>
          yields_pure (stepNested_name named rfl (callNested_nil _ _))
  | macroName =>
      simp only [reduceCtorEq, if_false]
      split
      · rename_i bare
        refine (readLambdaGroup_nested reads (String.isEmpty_iff.mp bare)).bind ?_
        rintro ⟨e, after⟩ ⟨front, split, nested⟩
        exact yields_pure (stepNested_name named split nested)
      · refine (readArguments_nested reads).bind ?_
        rintro ⟨args, after⟩ ⟨front, split, nested⟩
        exact yields_pure (stepNested_name named split
          (nested (.macroRef _ args _) _ rfl fun count counts => ⟨rfl, counts.symm⟩))

theorem readToken_nested (words : Vocabulary) :
    (readToken words read topLevel p t rest h).Yields (StepNested p (t :: rest)) := by
  unfold readToken
  split
  · rename_i result literal
    obtain ⟨flat, noComma⟩ := plain_of_literal? literal
    exact (yields_any _).bind fun e _ =>
      yields_pure ⟨Progress.kept_pushNode _ _, [t], rfl, .flat flat noComma .nil⟩
  · split
    · rename_i kind
      exact readOperator_nested reads kind
    · rename_i kind
      exact readName_nested reads words kind
    · rename_i kind
      exact readGroup_nested reads kind
    · exact yields_error _

end Step

end Steps

theorem readElements_nested {words : Vocabulary} {n : Nat} {topLevel : Bool} {p : Progress}
    {span : List Token} {h : span.length < n} :
    (readElements words n topLevel p span h).Yields fun elements =>
      Element.Kept p.elements elements ∧ Nested (Among elements) span := by
  -- The induction is on the bound: every span inside of the line is shorter.
  induction n generalizing topLevel p span with
  | zero => exact absurd h (Nat.not_lt_zero _)
  | succ n ih =>
      cases span with
      | nil => exact yields_pure ⟨Progress.kept_finish, .nil⟩
      | cons t rest =>
          simp only [readElements]
          refine (readToken_nested (fun topLevel span h => ?_) words).bind ?_
          · refine ih.bind fun elements inner => yields_except fun root collapsed => ?_
            exact inner.2.mono fun e => Element.collapse_kept collapsed
          · rintro ⟨p', after⟩ ⟨kept, front, split, first⟩
            refine fun names elements names' run => ?_
            obtain ⟨keeps, others⟩ := ih names elements names' run
            refine ⟨kept.trans keeps, ?_⟩
            rw [split]
            exact (first.mono fun e => keeps.among).append others

end Expr

namespace Parsed

open Calculator.Expr Calculator.Expr.Reading Calculator.Token

variable {words : Vocabulary} {imply : Bool} {line : List Token}

theorem read_nested : (read words imply line).Yields fun parsed => Nested (OccursIn parsed.root) line := by
  refine readElements_nested.bind fun elements inner => ?_
  simp only
  have kept : Element.Kept elements
      (if imply && continues elements then .node (.globalVar answer) :: elements else elements) := by
    split
    · exact .of_subset fun _ mem => .tail _ mem
    · exact .of_subset fun _ mem => mem
  refine (yields_except fun result collapsed => collapsed).bind fun root collapsed => ?_
  exact yields_pure (inner.2.mono fun e among => Element.collapse_kept collapsed (kept.among among))

/-- A line that is read is nested: its brackets match, and its commas separate the parameters of the
calls, macro uses and lambdas of the expression. A line whose brackets do not match is refused. -/
theorem ofTokens_nested (words : Vocabulary) (imply : Bool) (line : List Token) :
    (∀ parsed, ofTokens words imply line = .ok parsed →
      Nested (OccursIn parsed.root) line ∧ bracketsMatch [] line = true) ∧
    (bracketsMatch [] line = false → ∃ fault, ofTokens words imply line = .error fault) := by
  have accepted : ∀ parsed, ofTokens words imply line = .ok parsed →
      Nested (OccursIn parsed.root) line := fun parsed accepted =>
    read_nested .empty parsed _ (Prod.ext accepted rfl)
  refine ⟨fun parsed ok => ⟨accepted parsed ok, (accepted parsed ok).bracketsMatch⟩, fun unmatched => ?_⟩
  cases parses : ofTokens words imply line with
  | error fault => exact ⟨fault, rfl⟩
  | ok parsed =>
      rw [(accepted parsed parses).bracketsMatch] at unmatched
      cases unmatched

/-- `max([x], y)` is read, and `max([x, y)]` is refused. -/
theorem ofTokens_nested_max :
    let words : Vocabulary := ⟨fun name => name = "max", fun _ => false⟩
    let comma : Token := ⟨.comma, ","⟩
    let opening : Token := ⟨.openParen, "["⟩
    let close : Token := ⟨.closeParen, "]"⟩
    let line := [⟨.name, "max"⟩, openRound, opening, ⟨.name, "x"⟩, close, comma, ⟨.name, "y"⟩, closeRound]
    let crossed := [⟨.name, "max"⟩, openRound, opening, ⟨.name, "x"⟩, comma, ⟨.name, "y"⟩, closeRound, close]
    (∃ parsed, ofTokens words true line = .ok parsed ∧ Nested (OccursIn parsed.root) line) ∧
      ∃ fault, ofTokens words true crossed = .error fault := by
  intro words comma opening close line crossed
  have reads : (ofTokens words true line).isOk = true := by decide +kernel
  refine ⟨?_, (ofTokens_nested words true crossed).2 (by decide)⟩
  cases parses : ofTokens words true line with
  | error fault =>
      rw [parses] at reads
      cases reads
  | ok parsed => exact ⟨parsed, rfl, ((ofTokens_nested words true line).1 parsed parses).1⟩

end Parsed

end Calculator
