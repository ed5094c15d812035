import Calculator.Proofs.Expr.Prefixes
import Calculator.Proofs.Expr.Spelling

/-! The tokens of a written expression are read as that expression. -/

namespace Calculator

namespace Expr

open Token Reading

def prefixes : Expr → List String
  | .pointer _ => ["$"]
  | .localPointer _ => ["#"]
  | .unary op operand => op.symbol :: operand.prefixes
  | _ => []

def base : Expr → Expr
  | .pointer address | .localPointer address => address
  | .unary _ operand => operand.base
  | e => e

def elements (e : Expr) : List Element := Element.prefixRun e.prefixes e.base

theorem nested_prefixes (e : Expr) : Element.nested e.prefixes e.base = e := by
  fun_induction prefixes e with
  | case1 address => rfl
  | case2 address => rfl
  | case3 op operand ih =>
      change Element.applied op.symbol (Element.nested operand.prefixes operand.base) = _
      rw [ih]
      cases op with
      | not => rfl
      | complement => rfl
  | case4 e notPointer notLocal notUnary =>
      unfold base
      split
      · exact absurd rfl (notPointer _)
      · exact absurd rfl (notLocal _)
      · exact absurd rfl (notUnary _ _)
      · rfl

theorem prefixes_unary (e : Expr) :
    (∀ p ∈ e.prefixes, Operator.isUnary p = true) ∧ "-" ∉ e.prefixes := by
  fun_induction prefixes e with
  | case1 address => decide
  | case2 address => decide
  | case3 op operand ih =>
      have symbol : Operator.isUnary op.symbol = true ∧ "-" ≠ op.symbol := by
        cases op with
        | not => decide
        | complement => decide
      exact ⟨List.forall_mem_cons.mpr ⟨symbol.1, ih.1⟩,
        List.not_mem_cons_of_ne_of_not_mem symbol.2 ih.2⟩
  | case4 => exact ⟨List.forall_mem_nil _, List.not_mem_nil⟩

theorem collapse_elements (e : Expr) : Element.collapse e.elements = .ok (some e) := by
  obtain ⟨unary, none⟩ := prefixes_unary e
  rw [elements, Element.collapse_eq_product unary, Chain.ofPrefixes_of_no_minus unary _ none,
    nested_prefixes]
  rfl

theorem collapse_build {symbol : String} {tier : Nat} {role : Operator.Role}
    (info : Operator.info? symbol = some (tier, role)) (left right : Expr) :
    Element.collapse (left.elements ++ .op symbol :: right.elements) =
        .ok (some (left.build role right)) ∧
      Element.collapse (left.elements ++ [.op symbol, .node right]) =
        .ok (some (left.build role right)) := by
  obtain ⟨unary, none⟩ := prefixes_unary left
  obtain ⟨unary', none'⟩ := prefixes_unary right
  have both := Element.collapse_operands unary unary' none none' info left.base right.base
  have defined := Element.collapse_operands unary (List.forall_mem_nil _) none List.not_mem_nil info
    left.base right
  rw [nested_prefixes, nested_prefixes] at both
  rw [nested_prefixes] at defined
  exact ⟨both, defined⟩

theorem finish_elements (e : Expr) (before : List Element) (kind : TokenKind) :
    Progress.finish ⟨e.elements.reverse ++ before, some kind⟩ = before.reverse ++ e.elements := by
  simp [Progress.finish, elements, Element.prefixRun]

variable {words : Vocabulary}

/-- A written expression is read into its elements. -/
def Reread (words : Vocabulary) (e : Expr) : Prop :=
  ∃ kind, ∀ topLevel p rest, p.value = none → Name.opensCall rest = false →
    (elementsOf words topLevel p (e.spelled ++ rest)).GoesOn
      (elementsOf words topLevel ⟨e.elements.reverse ++ p.elements, some kind⟩ rest)

theorem Reread.of_node {e : Expr} (kind : TokenKind) (alone : e.elements = [.node e])
    (reads : ∀ topLevel p rest, p.value = none → Name.opensCall rest = false →
      (elementsOf words topLevel p (e.spelled ++ rest)).GoesOn
        (elementsOf words topLevel (p.pushNode e kind) rest)) : Reread words e := by
  refine ⟨kind, fun topLevel p rest free plain => ?_⟩
  rw [alone]
  exact reads topLevel p rest free plain

theorem Reread.expressionOf {e : Expr} (reread : Reread words e) (topLevel : Bool) :
    (expressionOf words topLevel e.spelled).Gives (some e) := by
  obtain ⟨kind, reads⟩ := reread
  have read := reads topLevel .start [] rfl rfl
  rw [List.append_nil, elementsOf_nil, finish_elements] at read
  refine (Gives.bind read _).trans ?_
  change GoesOn (liftM (Element.collapse ([] ++ e.elements))) _
  rw [List.nil_append, collapse_elements]
  exact .refl _

section Names

variable {name : String} {rest : List Token}

theorem bare_dollar (name : String) : Name.bare ("$" ++ name) = name := by
  simp [Name.bare, String.toList_append]

theorem bare_hash (name : String) : Name.bare ("#" ++ name) = name := by
  simp [Name.bare, String.toList_append]

theorem bare_at (name : String) : Name.bare ("@" ++ name) = name := by
  simp [Name.bare, String.toList_append]

theorem classify_dollar (words : Vocabulary) (names : NameStack) (topLevel : Bool) (name : String)
    (rest : List Token) :
    Name.classify words names topLevel ("$" ++ name) rest = .globalVar := by
  simp [Name.classify, String.toList_append]

theorem classify_hash (words : Vocabulary) (names : NameStack) (topLevel : Bool) (name : String)
    (rest : List Token) :
    Name.classify words names topLevel ("#" ++ name) rest = .localVar := by
  simp [Name.classify, String.toList_append]

theorem classify_at (words : Vocabulary) (names : NameStack) (topLevel : Bool) (name : String)
    (rest : List Token) :
    Name.classify words names topLevel ("@" ++ name) rest = .macroName := by
  simp [Name.classify, String.toList_append]

theorem classify_plain (identifier : Identifier name.toList) (names : NameStack) (topLevel : Bool) :
    Name.classify words names topLevel name rest =
      if Name.opensCall rest && words.isFunction name then .function
      else if Name.opensCall rest && (words.isMacro name || names.has name .macroName ||
          Name.isAssignmentTarget rest) then .macroName
      else if topLevel then .globalVar
      else if Name.isAssignmentTarget rest || names.has name .localVar then .localVar
      else .globalVar := by
  obtain ⟨_, first, more, text, letter⟩ := identifier
  obtain ⟨notDollar, notHash, notAt⟩ := Name.not_sigil letter
  unfold Name.classify
  rw [text, List.head?_cons]
  split
  · rename_i same
    exact absurd (Option.some.inj same) notAt
  · rename_i same
    exact absurd (Option.some.inj same) notDollar
  · rename_i same
    exact absurd (Option.some.inj same) notHash
  · rfl

theorem classify_alias (identifier : Identifier name.toList) (names : NameStack) :
    Name.classify words names false name [] = .localVar ∨
      Name.classify words names false name [] = .globalVar := by
  rw [classify_plain identifier]
  cases names.has name .localVar with
  | true => exact .inl rfl
  | false => exact .inr rfl

theorem classify_call (identifier : Identifier name.toList) (known : words.isFunction name = true)
    (opens : Name.opensCall rest = true) (names : NameStack) (topLevel : Bool) :
    Name.classify words names topLevel name rest = .function := by
  rw [classify_plain identifier, opens, known]
  rfl

end Names

theorem isEmpty_named {name : String} (named : Named name) : name.isEmpty = false := by
  simpa using named.1

section Leaves

theorem reread_constant {value : Number} (notMinus : value.NotMinusZero)
    (plain : (constant value).Plain) : Reread words (constant value) := by
  have read : Number.ofText? value.render.toList = some value := by
    obtain ⟨_, _, _, _, _, _, read⟩ :=
      Number.toText_eq (finite_of_plain plain) (notMinus.unsigned plain.1 plain.2.2)
    rwa [Number.render, String.toList_ofList]
  have literal : Token.literal? ⟨.number, value.render⟩ = some (.ok (constant value)) := by
    simp only [literal?, readDecimal, read]
    rfl
  exact .of_node _ rfl fun topLevel p rest _ _ => .of_eq (elementsOf_literal literal)

theorem reread_quote (text : String) : Reread words (quote text) := by
  have read : Text.unescapeString? (String.ofList (text.toList.flatMap Text.quoteChar)) = some text := by
    rw [Text.unescapeString?, String.toList_ofList, Text.unescape?_flatMap, Option.map_some,
      String.ofList_toList]
  have literal : Token.literal? ⟨.quote, String.ofList (text.toList.flatMap Text.quoteChar)⟩ =
      some (.ok (quote text)) := by
    simp only [literal?, readQuote, read]
    rfl
  exact .of_node _ rfl fun topLevel p rest _ _ => .of_eq (elementsOf_literal literal)

theorem reread_globalVar {name : String} (identifier : Identifier name.toList) :
    Reread words (globalVar name) := by
  refine .of_node .name rfl fun topLevel p rest free _ => ?_
  have bare := bare_dollar name
  have read := elementsOf_globalVar (p := p) (fun names => classify_dollar words names topLevel name rest)
    (by rw [bare, isEmpty_named (named_of_identifier identifier)])
  rwa [pushProduct_free free, bare] at read

theorem reread_localVar {name : String} (named : Named name) : Reread words (localVar name) := by
  refine .of_node .name rfl fun topLevel p rest free _ => ?_
  have bare := bare_hash name
  have read := elementsOf_localVar (p := p) (fun names => classify_hash words names topLevel name rest)
    (by rw [bare, isEmpty_named named])
  rwa [pushProduct_free free, bare] at read

end Leaves

section Brackets

variable {inside rest : List Token}

theorem elementsOf_inBrackets {outside : Token → Prop} {topLevel : Bool} {p : Progress} {e : Expr}
    (balanced : Balanced outside inside) (free : p.value = none)
    (gives : (expressionOf words topLevel inside).Gives (some e)) :
    (elementsOf words topLevel p (inBrackets inside ++ rest)).GoesOn
      (elementsOf words topLevel (p.pushNode e .closeParen) rest) := by
  intro names
  obtain ⟨after, same⟩ := gives names
  refine ⟨after, ?_⟩
  rw [inBrackets_append, elementsOf_group rfl (closes_inBrackets balanced rest) rfl, same,
    pushProduct_free free]
  rfl

theorem Reread.parameterOf {e : Expr} (reread : Reread words e) :
    (parameterOf words e.spelled).Gives e :=
  ((reread.expressionOf false).bind _).trans (.refl _)

section Arguments

variable {args : List Expr} (rereads : ∀ arg ∈ args, Reread words arg)
  (orderly : ∀ arg ∈ args, Orderly arg.spelled)
include orderly

theorem balanced_arguments : Balanced (fun _ => True) (commaSeparated (args.map spelled)) :=
  .commaSeparated (List.forall_mem_map.mpr fun arg mem => (orderly arg mem).balanced)

include rereads

theorem readArguments_spelled {n : Nat}
    (h : (inBrackets (commaSeparated (args.map spelled)) ++ rest).length < n) :
    ∃ after : Span (inBrackets (commaSeparated (args.map spelled)) ++ rest), after.val = rest ∧
      (readArguments (reader words n) (inBrackets (commaSeparated (args.map spelled)) ++ rest) h).Gives
        (args, after) := by
  have parameters : parameters (commaSeparated (args.map spelled)) = args.map spelled := by
    refine parameters_commaSeparated (List.forall_mem_map.mpr fun arg mem => ?_) fun span last => ?_
    · exact (orderly arg mem).balanced.mono fun _ both => both.1
    · obtain ⟨arg, mem, rfl⟩ := List.mem_map.mp (List.mem_of_getLast? last)
      exact (orderly arg mem).nonempty
  have gives : List.Forall₂ (fun span e => (parameterOf words span).Gives e)
      (Token.parameters (commaSeparated (args.map spelled))) args := by
    rw [parameters, List.forall₂_map_left_iff, List.forall₂_same]
    exact fun arg mem => (rereads arg mem).parameterOf
  have split := inBrackets_append (commaSeparated (args.map spelled)) rest
  generalize inBrackets (commaSeparated (args.map spelled)) ++ rest = line at h split
  subst split
  exact readArguments_gives rfl (closes_inBrackets (balanced_arguments orderly) rest) rfl gives

theorem reread_call {name : String} (identifier : Identifier name.toList)
    (known : words.isFunction name = true) : Reread words (call name args) := by
  refine .of_node .closeParen rfl fun topLevel p rest free _ => ?_
  rw [spelled, spelledAll_eq, List.cons_append]
  obtain ⟨after, left, arguments⟩ :=
    @readArguments_spelled _ rest _ rereads orderly _ (Nat.lt_succ_self _)
  have read := elementsOf_call (fun names => classify_call identifier known rfl names topLevel) free
    arguments
  rwa [left] at read

theorem reread_macroRef {name : String} {definable : Bool} (named : Named name)
    (same : definable = args.all (·.alias?.isSome)) : Reread words (macroRef name args definable) := by
  subst same
  refine .of_node .name rfl fun topLevel p rest free plain => ?_
  have bare := bare_at name
  cases args with
  | nil =>
      have arguments : (readArguments (reader words (rest.length + 1)) rest (Nat.lt_succ_self _)).Gives
          ([], ⟨rest, Nat.le_refl _⟩) := .of_eq (readArguments_none plain)
      have read := elementsOf_macroRef (p := p) (fun names => classify_at words names topLevel name rest)
        (by rw [bare, isEmpty_named named]) arguments
      rwa [pushProduct_free free, bare] at read
  | cons arg args =>
      obtain ⟨after, left, arguments⟩ :=
        @readArguments_spelled _ rest _ rereads orderly _ (Nat.lt_succ_self _)
      have read := elementsOf_macroRef (p := p) (fun names => classify_at words names topLevel name _)
        (by rw [bare, isEmpty_named named]) arguments
      rw [pushProduct_free free, bare, left] at read
      rw [spelled, ← spelledAll, spelledAll_eq, List.cons_append]
      exact read

end Arguments

theorem readsAlias_ofAlias {name : String} (formed : name = "_" ∨ Identifier name.toList) :
    ReadsAlias words (ofAlias name) name := by
  intro names
  by_cases unused : name = "_"
  · subst unused
    exact ⟨none, names, rfl, rfl⟩
  have identifier := formed.resolve_left unused
  have bare : Name.bare name = name := Name.bare_identifier identifier
  have named := isEmpty_named (named_of_identifier identifier)
  rw [ofAlias, if_neg unused]
  rcases @classify_alias words name identifier names with kind | kind
  · refine ⟨some (localVar name), names.declare name .localVar, ?_, rfl⟩
    rw [expressionOf, elementsOf_name, readName, bind_assoc, bind_assoc, run_get]
    simp only [kind, bare, named, reduceCtorEq, if_false, Bool.false_eq_true]
    rfl
  · refine ⟨some (globalVar name), names, ?_, rfl⟩
    rw [expressionOf, elementsOf_name, readName, bind_assoc, bind_assoc, run_get]
    simp only [kind, bare, named, reduceCtorEq, if_false, Bool.false_eq_true]
    rfl

theorem reread_lambda {aliases : List String} {body : Expr}
    (names : ∀ name ∈ aliases, name = "_" ∨ Identifier name.toList) (reread : Reread words body)
    (orderly : Orderly body.spelled) : Reread words (lambda aliases body) := by
  refine .of_node .closeParen rfl fun topLevel p rest free _ => ?_
  have aliasSpan (name : String) : Balanced NoComma (ofAlias name) := by
    unfold ofAlias
    split
    · exact .nil
    · exact .cons ⟨nofun, nofun⟩ nofun .nil
  have balanced : ∀ span ∈ aliases.map ofAlias ++ [body.spelled], Balanced NoComma span :=
    List.forall_mem_append.mpr ⟨List.forall_mem_map.mpr fun name _ => aliasSpan name,
      List.forall_mem_singleton.mpr (orderly.balanced.mono fun _ both => both.1)⟩
  have split : parameters (commaSeparated (aliases.map ofAlias ++ [body.spelled])) =
      aliases.map ofAlias ++ [body.spelled] := by
    refine parameters_commaSeparated balanced fun span last => ?_
    rw [List.getLast?_concat] at last
    cases last
    exact orderly.nonempty
  have front : List.Forall₂ (ReadsAlias words) (aliases.map ofAlias) aliases := by
    rw [List.forall₂_map_left_iff, List.forall₂_same]
    exact fun name mem => readsAlias_ofAlias (names name mem)
  have closes := closes_inBrackets (.commaSeparated balanced) rest
  rw [spelled, List.cons_append, inBrackets_append]
  have kind : openRound.kind = .openParen := rfl
  have matching : closingFor openRound.bracket = closeRound.bracket := rfl
  obtain ⟨after, left, gives⟩ :=
    readLambdaGroup_gives front (reread.expressionOf false) kind closes matching split
  have read := elementsOf_lambda (p := p) (fun names => classify_at words names topLevel "" _)
    (by decide) gives
  rwa [pushProduct_free free, left] at read

theorem reread_pointer {address : Expr} (reread : Reread words address)
    (orderly : Orderly address.spelled) : Reread words (pointer address) := by
  refine ⟨.closeParen, fun topLevel p rest free _ => ?_⟩
  rw [spelled, List.cons_append]
  have read := elementsOf_pointer (p := p)
    (fun names => classify_dollar words names topLevel "" (inBrackets address.spelled ++ rest))
    (by decide)
  rw [pushProduct_free free] at read
  exact read.trans (elementsOf_inBrackets orderly.balanced rfl (reread.expressionOf topLevel))

theorem reread_localPointer {address : Expr} (reread : Reread words address)
    (orderly : Orderly address.spelled) : Reread words (localPointer address) := by
  refine ⟨.closeParen, fun topLevel p rest free _ => ?_⟩
  rw [spelled, List.cons_append]
  have read := elementsOf_localPointer (p := p)
    (fun names => classify_hash words names topLevel "" (inBrackets address.spelled ++ rest))
    (by decide)
  rw [pushProduct_free free] at read
  exact read.trans (elementsOf_inBrackets orderly.balanced rfl (reread.expressionOf topLevel))

theorem reread_unary {op : UnaryOp} {operand : Expr} (reread : Reread words operand) :
    Reread words (unary op operand) := by
  obtain ⟨kind, reads⟩ := reread
  refine ⟨kind, fun topLevel p rest free plain => ?_⟩
  have noAssignment : Operator.tier? op.symbol ≠ some Operator.assignmentTier := by
    cases op with
    | not => decide
    | complement => decide
  have noDefinition : p.definition? op.symbol = none := by
    unfold Progress.definition?
    split
    · exact if_neg noAssignment
    · rfl
  have read := reads topLevel (p.pushOp op.symbol) rest rfl plain
  have reversed : (unary op operand).elements.reverse ++ p.elements =
      operand.elements.reverse ++ (p.pushOp op.symbol).elements := by
    simp [elements, Element.prefixRun, prefixes, base, Progress.pushOp]
  rw [spelled, List.cons_append, elementsOf_operator rfl noDefinition, reversed]
  exact read

/-- Where the operator defines a macro, the operand behind it is read as the body. -/
theorem expressionOf_operands {symbol : String} {tier : Nat} {role : Operator.Role}
    (info : Operator.info? symbol = some (tier, role)) {left right : Expr} (lefts : Reread words left)
    (rights : Reread words right) (orderly : Orderly right.spelled) (topLevel : Bool) :
    (expressionOf words topLevel (left.spelled ++ ⟨.operator, symbol⟩ :: right.spelled)).Gives
      (some (left.build role right)) := by
  obtain ⟨collapseBoth, collapseDefined⟩ := collapse_build info left right
  obtain ⟨leftKind, readsLeft⟩ := lefts
  have readLeft := readsLeft topLevel .start (⟨.operator, symbol⟩ :: right.spelled) rfl rfl
  generalize start : (⟨left.elements.reverse ++ Progress.start.elements, some leftKind⟩ : Progress) = p
    at readLeft
  have done : p.elements.reverse = left.elements := by
    rw [← start]
    simp [Progress.start]
  refine (readLeft.bind _).trans ?_
  cases defines : p.definition? symbol with
  | none =>
      obtain ⟨rightKind, readsRight⟩ := rights
      have readRight := readsRight topLevel (p.pushOp symbol) [] rfl rfl
      have elements : (p.pushOp symbol).elements.reverse ++ right.elements =
          left.elements ++ .op symbol :: right.elements := by
        simp [Progress.pushOp, done]
      rw [List.append_nil, elementsOf_nil, finish_elements, elements] at readRight
      rw [elementsOf_operator rfl defines]
      refine (Gives.bind readRight _).trans ?_
      rw [collapseBoth]
      exact .refl _
  | some defined =>
      obtain ⟨name, args⟩ := defined
      have split : splitBody 0 right.spelled = (right.spelled, []) := by
        have all := splitBody_balanced orderly.balanced (Int.le_refl 0) (.inr fun _ both => both.2) []
        rwa [splitBody, List.append_nil] at all
      have body : (expressionOf words false (splitBody 0 right.spelled).1).Gives (some right) := by
        rw [split]
        exact rights.expressionOf false
      have read := @elementsOf_definition words topLevel p ⟨.operator, symbol⟩ right.spelled name args
        right rfl defines body
      have elements : ((p.pushOp symbol).pushNode right .name).finish =
          left.elements ++ [.op symbol, .node right] := by
        simp [Progress.finish, Progress.pushNode, Progress.pushOp, done]
      rw [split, elementsOf_nil, elements] at read
      refine (Gives.bind read _).trans ?_
      rw [collapseDefined]
      exact .refl _

end Brackets

theorem info?_symbol (op : BinaryOp) : ∃ tier, Operator.info? op.symbol = some (tier, .binary op) := by
  cases op with
  | value op => cases op <;> exact ⟨_, rfl⟩
  | and => exact ⟨_, rfl⟩
  | xor => exact ⟨_, rfl⟩
  | or => exact ⟨_, rfl⟩
  | sequence => exact ⟨_, rfl⟩

theorem reread_operands {e left right : Expr} {symbol : String} {tier : Nat} {role : Operator.Role}
    (info : Operator.info? symbol = some (tier, role)) (built : left.build role right = e)
    (alone : e.elements = [.node e])
    (text : e.spelled = inBrackets (left.spelled ++ ⟨.operator, symbol⟩ :: right.spelled))
    (lefts : Reread words left) (rights : Reread words right) (orderlyLeft : Orderly left.spelled)
    (orderlyRight : Orderly right.spelled) : Reread words e := by
  refine .of_node .closeParen alone fun topLevel p rest free _ => ?_
  have inside : Balanced (fun _ => True) (left.spelled ++ ⟨.operator, symbol⟩ :: right.spelled) :=
    (orderlyLeft.balanced.mono fun _ _ => trivial).append
      (.cons ⟨nofun, nofun⟩ trivial (orderlyRight.balanced.mono fun _ _ => trivial))
  have gives := expressionOf_operands info lefts rights orderlyRight topLevel
  rw [built] at gives
  rw [text]
  exact elementsOf_inBrackets inside free gives

theorem Writable.reread {e : Expr} (writable : Writable words e) : Reread words e := by
  induction writable with
  | @intro e here parts ih =>
      obtain ⟨formed, plain⟩ := here
      have orderly : ∀ part ∈ e.parts, Orderly part.spelled := fun part mem => (parts part mem).orderly
      cases e with
      | constant value => exact reread_constant formed plain
      | globalVar name => exact reread_globalVar formed
      | localVar name => exact reread_localVar (formed.resolve_left plain)
      | macroRef name args definable => exact reread_macroRef ih orderly formed.1 formed.2
      | lambda aliases body =>
          have names : ∀ name ∈ aliases, name = "_" ∨ Identifier name.toList :=
            fun name mem => (formed name mem).imp_right fun named =>
              identifier_of_named named (plain name mem)
          exact reread_lambda names (ih body (.head _)) (orderly body (.head _))
      | pointer address => exact reread_pointer (ih address (.head _)) (orderly address (.head _))
      | localPointer address =>
          exact reread_localPointer (ih address (.head _)) (orderly address (.head _))
      | assign target value =>
          have info : Operator.info? "=" = some (13, .assign none) := by decide
          exact reread_operands info rfl rfl rfl (ih target (.head _)) (ih value (.tail _ (.head _)))
            (orderly target (.head _)) (orderly value (.tail _ (.head _)))
      | binary op left right =>
          obtain ⟨tier, info⟩ := info?_symbol op
          exact reread_operands info rfl rfl rfl (ih left (.head _)) (ih right (.tail _ (.head _)))
            (orderly left (.head _)) (orderly right (.tail _ (.head _)))
      | unary op operand => exact reread_unary (ih operand (.head _))
      | call name args => exact reread_call ih orderly formed.1 formed.2
      | quote text => exact reread_quote text

theorem continues_elements (e : Expr) : Parsed.continues e.elements = false := by
  have short : ∀ p ∈ e.prefixes, p.length < 2 := by
    have symbols : ∀ p ∈ Operator.unarySymbols, p.length < 2 := by decide
    exact fun p mem => symbols p (Element.mem_unarySymbols ((prefixes_unary e).1 p mem))
  unfold elements Element.prefixRun
  cases run : e.prefixes with
  | nil => rfl
  | cons p run =>
      have single := short p (run ▸ List.mem_cons_self)
      simpa [Parsed.continues] using single

end Expr

namespace Parsed

open Calculator.Expr

/-- What is read of a text is read again of the text it is written as, if it is plain. -/
theorem ofText_render {words : Vocabulary} {imply imply' implied : Bool} {text : String} {e : Expr}
    (reads : ofText words imply text = .ok ⟨some e, implied⟩) (plain : e.Every Plain) :
    ofText words imply' e.render = .ok ⟨some e, false⟩ := by
  have writable : Writable words e := (ofText_formed reads).and plain
  have orderly := writable.orderly
  have tokenized := Token.tokenize_eq writable.written.splits.tokens_eq orderly.calm.checkSigns
  rw [orderly.calm.groupNegativeExponents] at tokenized
  refine ofText_eq tokenized ?_
  obtain ⟨kind, rereads⟩ := writable.reread
  obtain ⟨names, read⟩ := rereads true .start [] rfl rfl .empty
  have line : Progress.start.elements.reverse ++ e.elements = e.elements := List.nil_append _
  rw [List.append_nil, elementsOf_nil, finish_elements, line] at read
  refine ofTokens_eq read ?_ (collapse_elements e)
  rw [continues_elements, Bool.and_false]

theorem ofText_render_definition :
    let words : Vocabulary := ⟨fun _ => false, fun _ => false⟩
    let e : Expr := .assign (.macroRef "f" [.globalVar "x"] true) (.unary .not (.localVar "x"))
    ofText words false "@f(x) = !x" = .ok ⟨some e, false⟩ ∧ e.Every Plain ∧
      ofText words true e.render = .ok ⟨some e, false⟩ := by
  intro words e
  have split : Token.tokens "@f(x) = !x".toList = .ok [⟨.name, "@f"⟩, Token.openRound, ⟨.name, "x"⟩,
      Token.closeRound, ⟨.operator, "="⟩, ⟨.operator, "!"⟩, ⟨.name, "x"⟩] :=
    Token.tokens_step rfl <| Token.tokens_step rfl <| Token.tokens_step rfl <|
    Token.tokens_step rfl <| (Token.tokens_skip rfl).trans <| Token.tokens_step rfl <|
    (Token.tokens_skip rfl).trans <| Token.tokens_step rfl <| Token.tokens_step rfl Token.tokens_nil
  have reads : ofText words false "@f(x) = !x" = .ok ⟨some e, false⟩ :=
    ofText_eq (Token.tokenize_eq split rfl) rfl
  have target : (Expr.macroRef "f" [.globalVar "x"] true).Every Plain :=
    .one trivial rfl (.leaf trivial rfl)
  have value : (Expr.unary .not (.localVar "x")).Every Plain :=
    .one trivial rfl (.leaf (by decide : "x" ≠ "_") rfl)
  have plain : e.Every Plain := .two trivial rfl target value
  exact ⟨reads, plain, ofText_render reads plain⟩

end Parsed

end Calculator
