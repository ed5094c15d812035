import Calculator.Engine
import Calculator.Expr.Printer
import Calculator.Proofs.Expr.Joining
import Calculator.Proofs.Expr.Reading
import Calculator.Proofs.Token.Lexing
import Calculator.Proofs.Token.Signs

/-! A minus after a power takes the one token behind it as its operand. -/

namespace Calculator

namespace Element

theorem collapse_op (symbol : String) (e : Expr) : collapse [.op symbol] ≠ .ok (some e) := by
  intro collapsed
  change (joinTiers [.op symbol] >>= _) = _ at collapsed
  unfold joinTiers at collapsed
  split at collapsed
  · cases collapsed
  · cases joined : Operator.tiers.foldlM joinTier [.op symbol] with
    | error fault =>
        rw [joined] at collapsed
        cases collapsed
    | ok elements =>
        rw [joined] at collapsed
        have same := (foldTiers_reduces joined).1.alternates_iff
        match elements with
        | [] => cases collapsed
        | [.op _] => cases collapsed
        | [.node _] => exact (same.mp trivial).elim
        | .node _ :: _ :: _ => cases collapsed
        | .op _ :: _ :: _ => cases collapsed

theorem collapse_power (base exponent : Expr) :
    collapse [.node base, .op "**", .node exponent] =
      .ok (some (.binary (.value .power) base exponent)) := rfl

end Element

namespace Expr

open Reading

theorem classify_topLevel {words : Vocabulary} {names : NameStack} {name : String} {rest : List Token}
    (plain : Name.opensCall rest = false) :
    Name.classify words names true name rest = Name.classify words .empty true name [] := by
  unfold Name.classify
  rw [plain]
  rfl

theorem classify_ne_function (words : Vocabulary) (name : String) :
    Name.classify words .empty true name [] ≠ .function := by
  unfold Name.classify Name.opensCall
  split
  · exact nofun
  · exact nofun
  · exact nofun
  · simp

/-- A token that is an expression of its own at the top level. -/
structure Single (words : Vocabulary) (t : Token) (e : Expr) : Prop where
  kind : t.kind ≠ .operator
  flat : t.Flat
  reads : ∃ kind, ∀ p rest, p.value = none → Name.opensCall rest = false →
    GoesOn (elementsOf words true p (t :: rest)) (elementsOf words true (p.pushNode e kind) rest)

section Single

variable {words : Vocabulary} {t : Token} {e : Expr} {names : NameStack} {elements : List Element}
  (reads : (elementsOf words true .start [t]).run .empty = (.ok elements, names))
  (collapsed : Element.collapse elements = .ok (some e))
include reads collapsed

theorem eq_of_pushes {other : Expr} {kind : TokenKind}
    (pushes : GoesOn (elementsOf words true .start [t])
      (elementsOf words true (Progress.start.pushNode other kind) [])) : other = e := by
  obtain ⟨after, same⟩ := pushes .empty
  rw [reads] at same
  cases same
  exact Option.some.inj (Except.ok.inj collapsed)

theorem not_pushes_op (symbol : String) :
    ¬GoesOn (elementsOf words true .start [t])
      (elementsOf words true (Progress.start.pushOp symbol) []) := by
  intro pushes
  obtain ⟨after, same⟩ := pushes .empty
  rw [reads, elementsOf_nil] at same
  by_cases last : symbol = ";"
  · subst last
    cases same
    cases collapsed
  · have finish : (Progress.start.pushOp symbol).finish = [.op symbol] := by
      simp [Progress.finish, Progress.pushOp, Progress.start, last]
    rw [finish] at same
    cases same
    exact Element.collapse_op symbol e collapsed

theorem single_of_pushes {name : String} {other : Expr} (token : t = ⟨.name, name⟩)
    (pushes : ∀ p rest, Name.opensCall rest = false →
      GoesOn (elementsOf words true p (⟨.name, name⟩ :: rest))
        (elementsOf words true (p.pushProduct.pushNode other .name) rest)) : Single words t e := by
  subst token
  obtain rfl := eq_of_pushes reads collapsed (pushes .start [] rfl)
  refine ⟨nofun, ⟨nofun, nofun⟩, .name, fun p rest free plain => ?_⟩
  have goesOn := pushes p rest plain
  rwa [pushProduct_free free] at goesOn

end Single

theorem run_bareMacro {words : Vocabulary} {name : String} (bare : (Name.bare name).isEmpty = true)
    (kind : Name.classify words .empty true name [] = .macroName) :
    (elementsOf words true .start [⟨.name, name⟩]).run .empty = (.error .bareLambdaSigil, .empty) := by
  rw [elementsOf_name, readName, bind_assoc, run_get]
  simp only [kind, bare, reduceCtorEq, if_false, if_true]
  rfl

theorem single_name {words : Vocabulary} {name : String} {e : Expr} {names : NameStack}
    {elements : List Element}
    (reads : (elementsOf words true .start [⟨.name, name⟩]).run .empty = (.ok elements, names))
    (collapsed : Element.collapse elements = .ok (some e)) : Single words ⟨.name, name⟩ e := by
  have kindOf : ∀ rest, Name.opensCall rest = false → ∀ names,
      Name.classify words names true name rest = Name.classify words .empty true name [] :=
    fun rest plain names => classify_topLevel plain
  have none : Name.opensCall [] = false := rfl
  cases kind : Name.classify words .empty true name [] with
  | function => exact absurd kind (classify_ne_function words name)
  | globalVar =>
      rw [kind] at kindOf
      cases bare : (Name.bare name).isEmpty with
      | true => exact absurd (elementsOf_pointer (kindOf [] none) bare) (not_pushes_op reads collapsed _)
      | false =>
          exact single_of_pushes reads collapsed rfl fun _ rest plain =>
            elementsOf_globalVar (kindOf rest plain) bare
  | localVar =>
      rw [kind] at kindOf
      cases bare : (Name.bare name).isEmpty with
      | true => exact absurd (elementsOf_localPointer (kindOf [] none) bare) (not_pushes_op reads collapsed _)
      | false =>
          exact single_of_pushes reads collapsed rfl fun _ rest plain =>
            elementsOf_localVar (kindOf rest plain) bare
  | macroName =>
      rw [kind] at kindOf
      cases bare : (Name.bare name).isEmpty with
      | true =>
          rw [run_bareMacro bare kind] at reads
          cases reads
      | false =>
          exact single_of_pushes reads collapsed rfl fun _ rest plain =>
            elementsOf_macroRef (kindOf rest plain) bare (GoesOn.of_eq (readArguments_none plain))

theorem single_of_ofTokens {words : Vocabulary} {imply : Bool} {t : Token} {e : Expr}
    (parsed : Parsed.ofTokens words imply [t] = .ok ⟨some e, false⟩) : Single words t e := by
  obtain ⟨elements, names, reads, collapsed⟩ := Parsed.of_ofTokens parsed
  cases literal : t.literal? with
  | some result =>
      cases result with
      | error fault =>
          rw [elementsOf_cons, readToken, literal] at reads
          cases reads
      | ok other =>
          have operand : t.literal? ≠ none := by simp [literal]
          refine ⟨fun kind => operand (literal?_eq_none t (.inl kind)),
            ⟨fun kind => operand (literal?_eq_none t (.inr (.inr (.inl kind)))),
              fun kind => operand (literal?_eq_none t (.inr (.inr (.inr kind))))⟩,
            t.kind, fun p rest _ _ => ?_⟩
          obtain rfl := eq_of_pushes reads collapsed (.of_eq (elementsOf_literal literal))
          exact .of_eq (elementsOf_literal literal)
  | none =>
      obtain ⟨kind, text⟩ := t
      cases kind with
      | name => exact single_name reads collapsed
      | operator =>
          exact absurd (.of_eq (elementsOf_operator rfl rfl)) (not_pushes_op reads collapsed text)
      | openParen =>
          rw [elementsOf_cons, readToken, literal] at reads
          cases reads
      | closeParen =>
          rw [elementsOf_cons, readToken, literal] at reads
          cases reads
      | comma =>
          rw [elementsOf_cons, readToken, literal] at reads
          cases reads
      | number => cases literal
      | hex => cases literal
      | binary => cases literal
      | octal => cases literal
      | roman => cases literal
      | char => cases literal
      | quote => cases literal

/-- A literal or a name, or one bracket group. -/
inductive IsBase : List Token → Prop
  | single (t : Token) : IsBase [t]
  | group {opening close : Token} {line inside : List Token} (opens : opening.kind = .openParen)
      (closes : Token.Closes 0 line inside close []) : IsBase (opening :: line)

section Base

variable {words : Vocabulary} {imply : Bool} {raw : List Token} {base : Expr}

theorem base_getLast (isBase : IsBase raw)
    (parsed : Parsed.ofTokens words imply (Token.groupNegativeExponents raw) = .ok ⟨some base, false⟩) :
    ∀ final ∈ raw.getLast?, final.isOperator "-" = false := by
  intro final last
  have other : final.kind ≠ .operator := by
    cases isBase with
    | single t =>
        cases last
        exact (single_of_ofTokens parsed).kind
    | group opens closes =>
        obtain ⟨ends, kind⟩ := closes.getLast?
        rw [List.getLast?_cons, ends] at last
        cases last
        simp [kind]
  simp [Token.isOperator, other]

theorem base_reads (isBase : IsBase raw)
    (parsed : Parsed.ofTokens words imply (Token.groupNegativeExponents raw) = .ok ⟨some base, false⟩)
    {rest : List Token} (plain : Name.opensCall rest = false) :
    ∃ kind names, (elementsOf words true .start (Token.groupNegativeExponents raw ++ rest)).run .empty =
      (elementsOf words true (Progress.start.pushNode base kind) rest).run names := by
  cases isBase with
  | single t =>
      obtain ⟨kind, goesOn⟩ := (single_of_ofTokens parsed).reads
      obtain ⟨names, same⟩ := goesOn .start rest rfl plain .empty
      exact ⟨kind, names, same⟩
  | @group opening close line inside opens closes =>
      have plainOpening : opening.isOperator "**" = false := by simp [Token.isOperator, opens]
      rw [Token.groupNegativeExponents_cons plainOpening] at parsed ⊢
      obtain ⟨inside, close, closes⟩ := Token.closes_groupNegativeExponents ⟨inside, close, closes⟩
      obtain ⟨elements, names, reads, collapsed⟩ := Parsed.of_ofTokens parsed
      by_cases matching : Token.closingFor opening.bracket = close.bracket
      · rw [elementsOf_group opens closes matching] at reads
        refine ⟨.closeParen, names, ?_⟩
        rw [List.cons_append, elementsOf_group opens (closes.append rest) matching]
        cases inner : (expressionOf words true inside).run .empty with
        | mk outcome after =>
            cases outcome with
            | error fault =>
                rw [inner] at reads
                cases reads
            | ok read =>
                cases read with
                | none =>
                    rw [inner] at reads
                    cases reads
                | some e =>
                    rw [inner] at reads
                    cases reads
                    cases collapsed
                    rfl
      · rw [elementsOf_ungrouped opens (Token.group_mismatched closes matching)] at reads
        cases reads

end Base

section Negated

variable {words : Vocabulary} {u : Token} {e : Expr} (single : Single words u e)
include single

theorem expressionOf_minus :
    (expressionOf words true [Token.minusSign, u]).Gives
      (some (.binary (.value .multiply) (.constant .negativeOne) e)) := by
  obtain ⟨kind, goesOn⟩ := single.reads
  have elements : (elementsOf words true .start [Token.minusSign, u]).Gives [.op "-", .node e] := by
    rw [elementsOf_operator rfl rfl]
    exact goesOn _ [] rfl rfl
  exact elements.bind _

theorem elementsOf_negated (p : Progress) :
    (elementsOf words true p
      [Token.powerSign, Token.openRound, Token.minusSign, u, Token.closeRound]).Gives
        (p.elements.reverse ++ [.op "**",
          .node (.binary (.value .multiply) (.constant .negativeOne) e)]) := by
  have plain : p.definition? Token.powerSign.text = none := by
    unfold Progress.definition?
    split
    · exact if_neg (by decide)
    · rfl
  have closes : Token.Closes 0 [Token.minusSign, u, Token.closeRound] [Token.minusSign, u]
      Token.closeRound [] :=
    .flat ⟨nofun, nofun⟩ (.flat single.flat (.here rfl []))
  intro names
  obtain ⟨after, inner⟩ := expressionOf_minus single names
  rw [elementsOf_operator rfl plain, elementsOf_group rfl closes rfl, inner]
  refine ⟨after, ?_⟩
  change (elementsOf words true ((p.pushOp "**").pushNode _ .closeParen) []).run after = _
  rw [elementsOf_nil]
  simp [Progress.finish, Progress.pushNode, Progress.pushOp]

end Negated

theorem ofTokens_negated {words : Vocabulary} {imply : Bool} {raw : List Token} {u : Token}
    {b e : Expr} (isBase : IsBase raw)
    (readsBase : Parsed.ofTokens words imply (Token.groupNegativeExponents raw) = .ok ⟨some b, false⟩)
    (single : Single words u e) :
    Parsed.ofTokens words imply (Token.groupNegativeExponents raw ++
        [Token.powerSign, Token.openRound, Token.minusSign, u, Token.closeRound]) =
      .ok ⟨some (.binary (.value .power) b
        (.binary (.value .multiply) (.constant .negativeOne) e)), false⟩ := by
  have plain : Name.opensCall
      [Token.powerSign, Token.openRound, Token.minusSign, u, Token.closeRound] = false := rfl
  obtain ⟨kind, names, goesOn⟩ := base_reads isBase readsBase plain
  obtain ⟨after, gives⟩ := elementsOf_negated single (Progress.start.pushNode b kind) names
  exact Parsed.ofTokens_eq (goesOn.trans gives) (Bool.and_false imply)
    (Element.collapse_power b _)

/-- Behind a power, a minus and one token are the negated operand, be there brackets around them or
not. -/
theorem negative_exponent {words : Vocabulary} {imply : Bool} {base operand text bracketed : String}
    {raw : List Token} {u : Token} {b e : Expr} (baseTokens : Token.tokens base.toList = .ok raw)
    (isBase : IsBase raw) (readsBase : Parsed.ofText words imply base = .ok ⟨some b, false⟩)
    (operandToken : Token.tokens operand.toList = .ok [u])
    (readsOperand : Parsed.ofText words imply operand = .ok ⟨some e, false⟩)
    (textTokens : Token.tokens text.toList = .ok (raw ++ [Token.powerSign, Token.minusSign, u]))
    (bracketedTokens : Token.tokens bracketed.toList =
      .ok (raw ++ [Token.powerSign, Token.openRound, Token.minusSign, u, Token.closeRound])) :
    let negated := Expr.binary (.value .power) b (.binary (.value .multiply) (.constant .negativeOne) e)
    Parsed.ofText words imply text = .ok ⟨some negated, false⟩ ∧
      Parsed.ofText words imply bracketed = .ok ⟨some negated, false⟩ := by
  obtain ⟨line, tokenized, readsBase⟩ := Parsed.of_ofText readsBase
  obtain ⟨_, split, checked, rfl⟩ := Token.of_tokenize tokenized
  cases baseTokens.symm.trans split
  obtain ⟨line, tokenized, readsOperand⟩ := Parsed.of_ofText readsOperand
  obtain ⟨_, split, _, rfl⟩ := Token.of_tokenize tokenized
  cases operandToken.symm.trans split
  have single := single_of_ofTokens readsOperand
  have noSign : u.isSign = false := by simp [Token.isSign, Token.isOperator, single.kind]
  have last := base_getLast isBase readsBase
  have negated := ofTokens_negated isBase readsBase single
  constructor
  · refine Parsed.ofText_eq (Token.tokenize_eq textTokens
      (Token.checkSignsFrom_append checked rfl (Token.checkSigns_minus noSign))) ?_
    rw [Token.groupNegativeExponents_append last rfl, Token.groupNegativeExponents_grouped single.flat.1]
    exact negated
  · refine Parsed.ofText_eq (Token.tokenize_eq bracketedTokens
      (Token.checkSignsFrom_append checked rfl (Token.checkSigns_bracketed noSign))) ?_
    rw [Token.groupNegativeExponents_append last rfl, Token.groupNegativeExponents_bracketed]
    exact negated

theorem negative_exponent_of_name :
    let words : Vocabulary := ⟨fun _ => false, fun _ => false⟩
    let negated := Expr.binary (.value .power) (.globalVar "a")
      (.binary (.value .multiply) (.constant .negativeOne) (.globalVar "x"))
    Parsed.ofText words false "a" = .ok ⟨some (.globalVar "a"), false⟩ ∧
      Parsed.ofText words false "x" = .ok ⟨some (.globalVar "x"), false⟩ ∧
      Parsed.ofText words false "a**-x" = .ok ⟨some negated, false⟩ ∧
      Parsed.ofText words false "a**(-x)" = .ok ⟨some negated, false⟩ := by
  intro words negated
  have baseTokens : Token.tokens "a".toList = .ok [⟨.name, "a"⟩] :=
    Token.tokens_step rfl Token.tokens_nil
  have operandToken : Token.tokens "x".toList = .ok [⟨.name, "x"⟩] :=
    Token.tokens_step rfl Token.tokens_nil
  have textTokens : Token.tokens "a**-x".toList =
      .ok ([⟨.name, "a"⟩] ++ [Token.powerSign, Token.minusSign, ⟨.name, "x"⟩]) :=
    Token.tokens_step rfl <| Token.tokens_step rfl <| Token.tokens_step rfl <|
    Token.tokens_step rfl Token.tokens_nil
  have bracketedTokens : Token.tokens "a**(-x)".toList =
      .ok ([⟨.name, "a"⟩] ++
        [Token.powerSign, Token.openRound, Token.minusSign, ⟨.name, "x"⟩, Token.closeRound]) :=
    Token.tokens_step rfl <| Token.tokens_step rfl <| Token.tokens_step rfl <|
    Token.tokens_step rfl <| Token.tokens_step rfl <| Token.tokens_step rfl Token.tokens_nil
  have readsBase : Parsed.ofText words false "a" = .ok ⟨some (.globalVar "a"), false⟩ :=
    Parsed.ofText_eq (Token.tokenize_eq baseTokens rfl) rfl
  have readsOperand : Parsed.ofText words false "x" = .ok ⟨some (.globalVar "x"), false⟩ :=
    Parsed.ofText_eq (Token.tokenize_eq operandToken rfl) rfl
  exact ⟨readsBase, readsOperand, negative_exponent baseTokens (.single _) readsBase operandToken
    readsOperand textTokens bracketedTokens⟩

/-- Of a call only the name is negated: its brackets are left out. -/
theorem negative_call_split :
    let words := (Engine.new .standard (.withInput .buffer [])).vocabulary
    let tree (text : String) := (Parsed.ofText words true text).map fun parsed => parsed.root.map render
    tree "2 ** -sqrt(4)" = .ok (some "((2 ** (-1 * $sqrt)) * 4)") ∧
      tree "2 ** (-sqrt(4))" = .ok (some "(2 ** (-1 * sqrt(4)))") ∧
      Parsed.ofText words true "2 ** -sqrt(4)" ≠ Parsed.ofText words true "2 ** (-sqrt(4))" := by
  intro words tree
  have split : tree "2 ** -sqrt(4)" = .ok (some "((2 ** (-1 * $sqrt)) * 4)") := by decide +kernel
  have whole : tree "2 ** (-sqrt(4))" = .ok (some "(2 ** (-1 * sqrt(4)))") := by decide +kernel
  refine ⟨split, whole, fun same => ?_⟩
  have trees : tree "2 ** -sqrt(4)" = tree "2 ** (-sqrt(4))" :=
    congrArg (Except.map fun parsed => parsed.root.map render) same
  rw [split, whole] at trees
  revert trees
  decide

end Expr

end Calculator
