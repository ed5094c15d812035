import Calculator.Proofs.Expr.Joining
import Calculator.Proofs.Expr.Parts
import Calculator.Proofs.Expr.Reading
import Calculator.Proofs.Number.Sign
import Calculator.Proofs.Token.Shape

/-! What every expression that is read looks like: its names are words, and its constants are not minus
zero. -/

namespace Calculator

namespace Expr

def Named (name : String) : Prop := name ≠ "" ∧ Token.Word name.toList

/-- What is read of an expression without regard to what it is made of. -/
def Formed (words : Vocabulary) : Expr → Prop
  | .constant value => value.NotMinusZero
  | .globalVar name => Token.Identifier name.toList
  | .localVar name => name = "_" ∨ Named name
  | .macroRef name args definable => Named name ∧ definable = args.all (·.alias?.isSome)
  | .lambda aliases _ => ∀ name ∈ aliases, name = "_" ∨ Named name
  | .call name _ => Token.Identifier name.toList ∧ words.isFunction name = true
  | _ => True

variable {words : Vocabulary}

abbrev WellFormed (words : Vocabulary) : Expr → Prop := Every (Formed words)

theorem WellFormed.callsOnly {e : Expr} (formed : WellFormed words e) :
    e.CallsOnly words.isFunction := by
  refine formed.mono fun e here name args call => ?_
  subst call
  exact here.2

theorem WellFormed.build {left right : Expr} (role : Operator.Role) (lefts : WellFormed words left)
    (rights : WellFormed words right) : WellFormed words (left.build role right) := by
  cases role with
  | binary op => exact .two trivial rfl lefts rights
  | assign compound =>
      cases compound with
      | none => exact .two trivial rfl lefts rights
      | some op => exact .two trivial rfl lefts (.two trivial rfl lefts rights)

theorem named_of_identifier {name : String} (identifier : Token.Identifier name.toList) : Named name := by
  obtain ⟨word, first, rest, text, _⟩ := identifier
  refine ⟨fun empty => ?_, word⟩
  rw [empty] at text
  cases text

theorem alias?_formed {e : Expr} {name : String} (formed : e.Formed words)
    (named : e.alias? = some name) : name = "_" ∨ Named name := by
  unfold alias? at named
  split at named
  · cases named
    exact .inr (named_of_identifier formed)
  · cases named
    exact formed
  · cases named
    exact .inr formed.1
  · cases named

end Expr

namespace Element

open Calculator.Expr

variable {words : Vocabulary}

def AllFormed (words : Vocabulary) (elements : List Element) : Prop :=
  ∀ e, .node e ∈ elements → WellFormed words e

theorem allFormed_nil : AllFormed words [] := by
  intro e mem
  cases mem

theorem allFormed_cons {element : Element} {elements : List Element} :
    AllFormed words (element :: elements) ↔
      (∀ e, element = .node e → WellFormed words e) ∧ AllFormed words elements := by
  unfold AllFormed
  grind

theorem prefixed?_formed {symbol : String} {operand e : Expr} (formed : WellFormed words operand)
    (applies : prefixed? symbol operand = some e) : WellFormed words e := by
  unfold prefixed? at applies
  split at applies
  · cases applies
    exact formed
  · cases applies
    exact .one trivial rfl formed
  · cases applies
    exact .one trivial rfl formed
  · cases applies
    exact .one trivial rfl formed
  · cases applies
    exact .one trivial rfl formed
  · cases applies

theorem foldPrefixes_formed {before after elements : List Element} {current : Element}
    (formedBefore : AllFormed words before) (formedCurrent : AllFormed words (current :: after))
    (folded : foldPrefixes before current after = .ok elements) : AllFormed words elements := by
  have factor : WellFormed words (.constant .negativeOne) := .leaf (fun _ => by decide) rfl
  fun_induction foldPrefixes before current after with
  | case1 current after =>
      cases folded
      exact formedCurrent
  | case2 => grind [allFormed_cons]
  | case3 => cases folded
  | case4 symbol before operand after _ _ e applies ih =>
      have operandFormed := (allFormed_cons.mp formedCurrent).1 operand rfl
      have applied := prefixed?_formed operandFormed applies
      refine ih (allFormed_cons.mp formedBefore).2 (allFormed_cons.mpr ⟨?_, ?_⟩) folded
      · rintro _ ⟨⟩
        exact applied
      · exact (allFormed_cons.mp formedCurrent).2
  | case5 symbol before operand after _ _ _ ih =>
      refine ih (allFormed_cons.mp formedBefore).2 (allFormed_cons.mpr ⟨?_, ?_⟩) folded
      · rintro _ ⟨⟩
        exact factor
      · exact allFormed_cons.mpr ⟨nofun, formedCurrent⟩
  | case6 => grind [allFormed_cons]

theorem applyPrefixes_formed {elements applied : List Element} (formed : AllFormed words elements)
    (ok : applyPrefixes elements = .ok applied) : AllFormed words applied := by
  have reversed : AllFormed words elements.reverse := fun e mem => formed e (List.mem_reverse.mp mem)
  unfold applyPrefixes at ok
  split at ok
  · cases ok
    exact allFormed_nil
  · rename_i last before split
    rw [split] at reversed
    obtain ⟨formedLast, formedBefore⟩ := allFormed_cons.mp reversed
    exact foldPrefixes_formed formedBefore (allFormed_cons.mpr ⟨formedLast, allFormed_nil⟩) ok

theorem Reduces.formed {xs ys : List Element} (reduces : Reduces xs ys) (formed : AllFormed words xs) :
    AllFormed words ys := by
  induction reduces with
  | refl => exact formed
  | tail _ step ih =>
      obtain ⟨tier, joined⟩ := step
      cases joined with
      | @join _ role before after left right found =>
          intro e mem
          have lefts := ih left (by simp)
          have rights := ih right (by simp)
          rcases List.mem_append.mp mem with early | late
          · exact ih e (List.mem_append_left _ early)
          rcases List.mem_cons.mp late with here | late
          · cases here
            exact .build role lefts rights
          · exact ih e (by simp [late])

theorem collapse_formed {elements : List Element} {e : Expr} (formed : AllFormed words elements)
    (collapsed : collapse elements = .ok (some e)) : WellFormed words e := by
  obtain ⟨_, none⟩ | ⟨operands, joined, applied, reduces, ⟨_, rfl, same⟩ | ⟨_, none⟩⟩ :=
    collapse_ok collapsed
  · cases none
  · cases same
    exact reduces.formed (applyPrefixes_formed formed applied) e (.head _)
  · cases none

end Element

namespace Token

variable {words : Vocabulary}

theorem readDecimal_unsigned {text : String} {x : Number} (noMinus : text.toList.head? ≠ some '-')
    (read : readDecimal text = .ok x) : x.negative = false := by
  unfold readDecimal at read
  split at read
  · rename_i value found
    cases read
    exact Number.ofText?_unsigned noMinus found
  · cases read

theorem readRadix_notMinusZero {kind : LiteralKind} {base : Nat} {text : String} {x : Number}
    (read : readRadix kind base text = .ok x) : x.NotMinusZero := by
  unfold readRadix at read
  split at read
  · cases read
  split at read
  · split at read
    · cases read
      exact Number.ofInt_notMinusZero _
    · cases read
  · cases read

theorem readRoman_notMinusZero {text : String} {x : Number} (read : readRoman text = .ok x) :
    x.NotMinusZero := by
  unfold readRoman at read
  split at read
  · cases read
  split at read
  · rename_i value found
    cases read
    exact Roman.value?_notMinusZero found
  · cases read

theorem readChar_unsigned {raw : String} {x : Number} (read : readChar raw = .ok x) :
    x.negative = false := by
  unfold readChar at read
  cases quote : readQuote raw with
  | error fault =>
      rw [quote] at read
      cases read
  | ok text =>
      rw [quote] at read
      simp only [bind, Except.bind] at read
      split at read
      · cases read
        rfl
      · cases read

theorem literal?_formed {t : Token} {e : Expr} (shaped : t.Shaped) (literal : t.literal? = some (.ok e)) :
    e.WellFormed words := by
  obtain ⟨kind, text⟩ := t
  have constant {read : Except ParseError Number} (formed : ∀ x, read = .ok x → x.NotMinusZero)
      (same : some (Expr.constant <$> read) = some (.ok e)) : e.WellFormed words := by
    cases read with
    | error fault => cases same
    | ok x =>
        cases same
        exact .leaf (formed x rfl) rfl
  cases kind with
  | number =>
      exact constant (fun x read => .of_unsigned (readDecimal_unsigned (shaped.number rfl) read)) literal
  | hex => exact constant (fun x read => readRadix_notMinusZero read) literal
  | binary => exact constant (fun x read => readRadix_notMinusZero read) literal
  | octal => exact constant (fun x read => readRadix_notMinusZero read) literal
  | roman => exact constant (fun x read => readRoman_notMinusZero read) literal
  | char => exact constant (fun x read => .of_unsigned (readChar_unsigned read)) literal
  | quote =>
      change some (Expr.quote <$> readQuote text) = some (.ok e) at literal
      cases read : readQuote text with
      | error fault =>
          rw [read] at literal
          cases literal
      | ok content =>
          rw [read] at literal
          cases literal
          exact .leaf trivial rfl
  | operator => cases literal
  | name => cases literal
  | openParen => cases literal
  | closeParen => cases literal
  | comma => cases literal

end Token

namespace Name

open Token

variable {words : Vocabulary} {names : NameStack} {topLevel : Bool} {name : String} {rest : List Token}

theorem not_sigil {c : Char} (letter : Text.isLetter c = true) : c ≠ '$' ∧ c ≠ '#' ∧ c ≠ '@' := by
  refine ⟨?_, ?_, ?_⟩
  · rintro rfl
    revert letter
    decide
  · rintro rfl
    revert letter
    decide
  · rintro rfl
    revert letter
    decide

theorem bare_identifier (identifier : Identifier name.toList) : bare name = name := by
  obtain ⟨_, first, rest, text, letter⟩ := identifier
  obtain ⟨notDollar, notHash, notAt⟩ := not_sigil letter
  unfold bare
  rw [text]
  split
  · rename_i same
    exact absurd (List.cons.inj same).1 notDollar
  · rename_i same
    exact absurd (List.cons.inj same).1 notHash
  · rename_i same
    exact absurd (List.cons.inj same).1 notAt
  · rfl

theorem classify_function (classified : classify words names topLevel name rest = .function) :
    words.isFunction name = true := by
  unfold classify at classified
  split at classified
  · cases classified
  · cases classified
  · cases classified
  split at classified
  · rename_i both
    exact (Bool.and_eq_true_iff.mp both).2
  · grind

theorem classify_shaped (shaped : NameText name.toList) :
    match classify words names topLevel name rest with
    | .function => Identifier name.toList ∧ words.isFunction name = true
    | .globalVar => (bare name).isEmpty = false → Identifier (bare name).toList
    | .localVar | .macroName => Word (bare name).toList := by
  generalize text : name.toList = chars at shaped
  cases shaped with
  | bare identifier =>
      rw [bare_identifier (text ▸ identifier), text]
      split
      · rename_i classified
        exact ⟨identifier, classify_function classified⟩
      · exact fun _ => identifier
      · exact identifier.1
      · exact identifier.1
  | dollar =>
      have bareText : bare name = String.ofList [] := by simp [bare, text]
      have classified : classify words names topLevel name rest = .globalVar := by simp [classify, text]
      rw [classified, bareText]
      exact nofun
  | @dollarName chars identifier =>
      have bareText : bare name = String.ofList chars := by simp [bare, text]
      have classified : classify words names topLevel name rest = .globalVar := by simp [classify, text]
      rw [classified, bareText, String.toList_ofList]
      exact fun _ => identifier
  | @hash chars word =>
      have bareText : bare name = String.ofList chars := by simp [bare, text]
      have classified : classify words names topLevel name rest = .localVar := by simp [classify, text]
      rw [classified, bareText, String.toList_ofList]
      exact word
  | @atSign chars word =>
      have bareText : bare name = String.ofList chars := by simp [bare, text]
      have classified : classify words names topLevel name rest = .macroName := by simp [classify, text]
      rw [classified, bareText, String.toList_ofList]
      exact word

end Name

namespace Expr

open Reading Token

variable {words : Vocabulary} {n : Nat}

def Progress.Formed (words : Vocabulary) (p : Progress) : Prop := Element.AllFormed words p.elements

namespace Progress

variable {p : Progress}

theorem formed_start : start.Formed words := Element.allFormed_nil

theorem Formed.pushNode (formed : p.Formed words) {e : Expr} (node : WellFormed words e)
    (last : TokenKind) : (p.pushNode e last).Formed words := by
  refine Element.allFormed_cons.mpr ⟨?_, formed⟩
  rintro _ ⟨⟩
  exact node

theorem Formed.pushOp (formed : p.Formed words) (symbol : String) : (p.pushOp symbol).Formed words :=
  Element.allFormed_cons.mpr ⟨nofun, formed⟩

theorem Formed.pushProduct (formed : p.Formed words) : p.pushProduct.Formed words := by
  unfold Progress.pushProduct
  split
  · exact formed.pushOp _
  · exact formed

theorem Formed.finish (formed : p.Formed words) : Element.AllFormed words p.finish := by
  have reversed : Element.AllFormed words p.elements.reverse :=
    fun e mem => formed e (List.mem_reverse.mp mem)
  unfold Progress.finish
  split
  · rename_i symbol before split
    split
    · refine fun e mem => formed e ?_
      rw [split]
      exact .tail _ (List.mem_reverse.mp mem)
    · exact reversed
  · exact reversed

end Progress

def Going {line : List Token} (words : Vocabulary) (step : Progress × Span line) : Prop :=
  step.1.Formed words ∧ ∀ t ∈ step.2.val, t.Shaped

section Steps

variable {read : SpanReader n}
  (reads : ∀ topLevel span (h : span.length < n), (∀ t ∈ span, t.Shaped) →
    (read topLevel span h).Yields fun result => ∀ e ∈ result, WellFormed words e)
include reads

theorem readParameters_yields {inside : List Token} {h : inside.length < n}
    (shaped : ∀ t ∈ inside, t.Shaped) :
    (readParameters read inside h).Yields fun args => ∀ e ∈ args, WellFormed words e := by
  refine Yields.mapM fun span mem => ?_
  have shapedSpan : ∀ t ∈ span.val, t.Shaped := by
    refine parameters_all shaped span.val ?_
    rw [← spans_val]
    exact List.mem_map_of_mem mem
  refine (reads false span.val _ shapedSpan).bind fun result formed => ?_
  cases result with
  | none => exact yields_error _
  | some e => exact yields_pure (formed e rfl)

theorem readLambdaSpans_yields {inside : List Token} {h : inside.length < n}
    {spans : List (Span inside)} (shaped : ∀ span ∈ spans, ∀ t ∈ span.val, t.Shaped) :
    (readLambdaSpans read inside h spans).Yields fun result => ∀ lambda ∈ result,
      (∀ name ∈ lambda.1, name = "_" ∨ Named name) ∧ WellFormed words lambda.2 := by
  induction spans with
  | nil => exact yields_pure nofun
  | cons span spans ih =>
      obtain ⟨here, others⟩ := List.forall_mem_cons.mp shaped
      unfold readLambdaSpans
      refine (reads false span.val _ here).bind fun result formed => ?_
      have parameter : WellFormed words (result.getD (.localVar "_")) := by
        cases result with
        | none => exact .leaf (.inl rfl) rfl
        | some e => exact formed e rfl
      simp only
      split
      · refine yields_pure ?_
        rintro _ ⟨⟩
        exact ⟨List.forall_mem_nil _, parameter⟩
      split
      · exact yields_error _
      · rename_i name named
        refine (yields_any _).bind fun _ _ => (ih others).bind fun result all => yields_pure ?_
        rintro _ mem
        obtain ⟨inner, found, rfl⟩ := Option.map_eq_some_iff.mp mem
        obtain ⟨aliases, body⟩ := all inner found
        exact ⟨List.forall_mem_cons.mpr ⟨alias?_formed parameter.here named, aliases⟩, body⟩

theorem readLambda_yields {opening : Token} {inside : List Token} {h : inside.length < n}
    (shaped : ∀ t ∈ inside, t.Shaped) : (readLambda read opening inside h).Yields (WellFormed words) := by
  have spans : ∀ span ∈ parameterSpans inside, ∀ t ∈ span.val, t.Shaped := by
    intro span mem
    refine parameters_all shaped span.val ?_
    rw [← spans_val]
    exact List.mem_map_of_mem mem
  refine (readLambdaSpans_yields reads spans).inFrame.bind fun result formed => ?_
  cases result with
  | none => exact yields_error _
  | some lambda =>
      obtain ⟨aliases, body⟩ := formed lambda rfl
      exact yields_pure (.one aliases rfl body)

theorem readMacroBody_yields {name symbol : String} {args : List Expr} {body : List Token}
    {h : body.length < n} (shaped : ∀ t ∈ body, t.Shaped) :
    (readMacroBody read name args symbol body h).Yields (WellFormed words) := by
  refine (yields_any _).bind fun _ _ => ?_
  have inner := (yields_any (forIn (args.filterMap alias?) PUnit.unit fun name _ => do
    declare name .localVar
    pure (.yield PUnit.unit))).bind fun _ _ => reads false body h shaped
  refine inner.inFrame.bind fun result formed => ?_
  cases result with
  | none => exact yields_error _
  | some e => exact yields_pure (formed e rfl)

theorem readArguments_yields {rest : List Token} {h : rest.length < n}
    (shaped : ∀ t ∈ rest, t.Shaped) :
    (readArguments read rest h).Yields fun result =>
      (∀ e ∈ result.1, WellFormed words e) ∧ ∀ t ∈ result.2.val, t.Shaped := by
  cases rest with
  | nil => exact yields_pure ⟨List.forall_mem_nil _, List.forall_mem_nil _⟩
  | cons opening inner =>
      rw [readArguments]
      split
      · refine (yields_except fun g grouped => grouped).bind fun g grouped => ?_
        have split := group_append grouped
        have inside : ∀ t ∈ g.inside, t.Shaped := fun t mem => shaped t (by simp [split, mem])
        have after : ∀ t ∈ g.after, t.Shaped := fun t mem => shaped t (by simp [split, mem])
        exact (readParameters_yields reads inside).bind fun args formed => yields_pure ⟨formed, after⟩
      · exact yields_pure ⟨List.forall_mem_nil _, shaped⟩

theorem readLambdaGroup_yields {rest : List Token} {h : rest.length < n}
    (shaped : ∀ t ∈ rest, t.Shaped) :
    (readLambdaGroup read rest h).Yields fun result =>
      WellFormed words result.1 ∧ ∀ t ∈ result.2.val, t.Shaped := by
  cases rest with
  | nil => exact yields_error _
  | cons opening inner =>
      rw [readLambdaGroup]
      split
      · refine (yields_except fun g grouped => grouped).bind fun g grouped => ?_
        have split := group_append grouped
        have inside : ∀ t ∈ g.inside, t.Shaped := fun t mem => shaped t (by simp [split, mem])
        have after : ∀ t ∈ g.after, t.Shaped := fun t mem => shaped t (by simp [split, mem])
        exact (readLambda_yields reads inside).bind fun e formed => yields_pure ⟨formed, after⟩
      · exact yields_error _

section Step

variable {topLevel : Bool} {p : Progress} {rest : List Token} {h : rest.length < n}
  (formed : p.Formed words) (shaped : ∀ t ∈ rest, t.Shaped)
include formed shaped

theorem readGroup_yields (opening : Token) :
    (readGroup read topLevel p opening rest h).Yields (Going words) := by
  refine (yields_except fun g grouped => grouped).bind fun g grouped => ?_
  have split := group_append grouped
  have inside : ∀ t ∈ g.inside, t.Shaped := fun t mem => shaped t (by simp [split, mem])
  have after : ∀ t ∈ g.after, t.Shaped := fun t mem => shaped t (by simp [split, mem])
  refine (reads topLevel g.inside _ inside).bind fun result inner => ?_
  cases result with
  | none => exact yields_error _
  | some e => exact yields_pure ⟨formed.pushProduct.pushNode (inner e rfl) _, after⟩

theorem readOperator_yields (symbol : String) :
    (readOperator read p symbol rest h).Yields (Going words) := by
  have split := splitBody_append 0 rest
  have body : ∀ t ∈ (splitBody 0 rest).1, t.Shaped :=
    fun t mem => shaped t (split ▸ List.mem_append_left _ mem)
  have after : ∀ t ∈ (splitBody 0 rest).2, t.Shaped :=
    fun t mem => shaped t (split ▸ List.mem_append_right _ mem)
  unfold readOperator
  split
  · exact yields_pure ⟨formed.pushOp symbol, shaped⟩
  · exact (readMacroBody_yields reads body).bind fun e inner =>
      yields_pure ⟨(formed.pushOp symbol).pushNode inner _, after⟩

theorem readName_yields {name : String} (text : NameText name.toList) :
    (readName words read topLevel p name rest h).Yields (Going words) := by
  unfold readName
  refine (yields_any _).bind fun names _ => ?_
  have denotes := @Name.classify_shaped words names topLevel name rest text
  cases kind : Name.classify words names topLevel name rest with
  | function =>
      rw [kind] at denotes
      simp only [if_true]
      split
      · exact yields_error _
      · refine (readArguments_yields reads shaped).bind ?_
        rintro ⟨args, after⟩ ⟨inner, left⟩
        have node : WellFormed words (.call name args) := .intro denotes inner
        exact yields_pure ⟨formed.pushProduct.pushNode node _, left⟩
  | globalVar =>
      rw [kind] at denotes
      simp only [reduceCtorEq, if_false]
      split
      · exact yields_pure ⟨formed.pushProduct.pushOp _, shaped⟩
      · rename_i named
        have node : WellFormed words (.globalVar (Name.bare name)) :=
          .leaf (denotes (by simpa using named)) rfl
        exact yields_pure ⟨formed.pushProduct.pushNode node _, shaped⟩
  | localVar =>
      rw [kind] at denotes
      simp only [reduceCtorEq, if_false]
      split
      · exact yields_pure ⟨formed.pushProduct.pushOp _, shaped⟩
      · rename_i named
        refine (yields_any _).bind fun _ _ => ?_
        have node : WellFormed words (.localVar (Name.bare name)) :=
          .leaf (.inr ⟨by simpa using named, denotes⟩) rfl
        exact yields_pure ⟨formed.pushProduct.pushNode node _, shaped⟩
  | macroName =>
      rw [kind] at denotes
      simp only [reduceCtorEq, if_false]
      split
      · refine (readLambdaGroup_yields reads shaped).bind ?_
        rintro ⟨e, after⟩ ⟨inner, left⟩
        exact yields_pure ⟨formed.pushProduct.pushNode inner _, left⟩
      · rename_i named
        refine (readArguments_yields reads shaped).bind ?_
        rintro ⟨args, after⟩ ⟨inner, left⟩
        have word : Named (Name.bare name) := ⟨by simpa using named, denotes⟩
        have node : WellFormed words
            (.macroRef (Name.bare name) args (args.all (·.alias?.isSome))) := .intro ⟨word, rfl⟩ inner
        exact yields_pure ⟨formed.pushProduct.pushNode node _, left⟩

theorem readToken_yields {t : Token} (shapedToken : t.Shaped) :
    (readToken words read topLevel p t rest h).Yields (Going words) := by
  unfold readToken
  split
  · rename_i result literal
    refine (yields_except fun e same => ?_).bind fun e node =>
      yields_pure ⟨formed.pushNode node _, shaped⟩
    exact literal?_formed shapedToken (literal.trans (congrArg some same))
  · split
    · exact readOperator_yields reads formed shaped _
    · rename_i kind
      exact readName_yields reads formed shaped (shapedToken.name kind)
    · exact readGroup_yields reads formed shaped _
    · exact yields_error _

end Step

end Steps

theorem readElements_yields {topLevel : Bool} {p : Progress} {span : List Token} {h : span.length < n}
    (formed : p.Formed words) (shaped : ∀ t ∈ span, t.Shaped) :
    (readElements words n topLevel p span h).Yields (Element.AllFormed words) := by
  -- The induction is on the bound: every span inside of the line is shorter.
  induction n generalizing topLevel p span with
  | zero => exact absurd h (Nat.not_lt_zero _)
  | succ n ih =>
      cases span with
      | nil => exact yields_pure formed.finish
      | cons t rest =>
          obtain ⟨here, others⟩ := List.forall_mem_cons.mp shaped
          simp only [readElements]
          refine (readToken_yields (fun topLevel span h shaped => ?_) formed others here).bind ?_
          · refine (ih Progress.formed_start shaped).bind fun elements inner => ?_
            exact yields_except fun result collapsed e some_ =>
              Element.collapse_formed inner (some_ ▸ collapsed)
          · rintro ⟨p, after⟩ ⟨formed, shaped⟩
            exact ih formed shaped

end Expr

namespace Parsed

open Calculator.Expr Calculator.Expr.Reading

variable {words : Vocabulary} {imply : Bool}

theorem read_yields {line : List Token} (shaped : ∀ t ∈ line, t.Shaped) :
    (read words imply line).Yields fun parsed => ∀ e ∈ parsed.root, WellFormed words e := by
  have word : Token.Word answer.toList := List.all_eq_true.mp (by decide)
  have named : Token.Identifier answer.toList := ⟨word, 'A', ['N', 'S'], by decide, by decide⟩
  refine (readElements_yields Progress.formed_start shaped).bind fun elements formed => ?_
  simp only
  have continued : Element.AllFormed words
      (if imply && continues elements then .node (.globalVar answer) :: elements else elements) := by
    split
    · refine Element.allFormed_cons.mpr ⟨?_, formed⟩
      rintro _ ⟨⟩
      exact .leaf named rfl
    · exact formed
  refine (yields_except fun result collapsed => collapsed).bind fun result collapsed => ?_
  exact yields_pure fun e root => Element.collapse_formed continued (root ▸ collapsed)

theorem ofText_formed {text : String} {e : Expr} {implied : Bool}
    (reads : ofText words imply text = .ok ⟨some e, implied⟩) : WellFormed words e := by
  obtain ⟨line, tokenized, parsed⟩ := of_ofText reads
  have yields := @read_yields words imply line (Token.tokenize_shaped tokenized)
  exact yields .empty _ _ (Prod.ext parsed rfl) e rfl

end Parsed

end Calculator
