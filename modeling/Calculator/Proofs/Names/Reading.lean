import Calculator.Proofs.Expr.Lockstep
import Calculator.Proofs.Expr.Relating
import Calculator.Proofs.Names.Evaluation
import Calculator.Proofs.Names.Tokens

/-! Reading lines that differ in the spelling of names. Names are declared in lower case, so both
readings know the same names at every point. -/

namespace Calculator

namespace Expr

open Token

open Reading

theorem respelled_compatible : Compatible Expr.Respelled where
  refl := .refl
  pointer exprs := .of_layer (.pointer exprs)
  localPointer exprs := .of_layer (.localPointer exprs)
  unary op _ _ exprs := .of_layer (.unary op exprs)
  binary op _ _ _ _ lefts rights := .of_layer (.binary op lefts rights)
  assign lefts rights := .of_layer (.assign lefts rights)

def respellingLockstep : Lockstep where
  toCongruence := alikeCongruence ParseError.Respelled.refl
  line := AllRespelled
  span := AllRespelled
  level := Eq
  name := SameName
  expr := Expr.Respelled
  going := Progress.Related Expr.Respelled
  declare names tag := fun stack => ⟨.value trivial, NameStack.declare_eq names tag stack⟩
  below := rfl
  expr_refl := .refl
  layer := .of_layer
  alias_rel := Correspondence.alias_rel (C := respellingCorrespondence)
  invalidAlias exprs := alike_throw (.invalidAlias exprs)
  spans lines := lines.parameterSpans
  opensCall lines := lines.opensCall
  groups lines opens := by
    obtain ⟨first, others⟩ := List.forall₂_cons.mp lines
    obtain rfl := first.eq_of_kind (by simp [opens])
    exact ⟨rfl, Congruence.except (AllRespelled.group others _)⟩
  value_eq goes := goes.value
  pushNode goes _ _ exprs last := goes.pushNode exprs last
  pushSign goes symbol _ := goes.pushOp symbol

section Step

variable {n : Nat} {read read' : SpanReader n}
  (alike : ∀ topLevel topLevel' span span' h h', topLevel = topLevel' → AllRespelled span span' →
    Alike ParseError.Respelled (Option.Rel Expr.Respelled) (read topLevel span h)
      (read' topLevel' span' h'))
  {topLevel : Bool} {p p' : Progress} (going : p.Related Expr.Respelled p') {rest rest' : List Token}
  (same : AllRespelled rest rest') (h : rest.length < n) (h' : rest'.length < n)
include alike going same

theorem readToken_alike {words : Vocabulary} (ignores : words.IgnoresCase) {t t' : Token}
    (first : t.Respelled t') :
    Alike ParseError.Respelled respellingLockstep.Ongoing (readToken words read topLevel p t rest h)
      (readToken words read' topLevel p' t' rest' h') := by
  cases first with
  | @name n n' sigils names =>
      have bares := Name.sameName_bare sigils names
      refine Lockstep.readName (C := respellingLockstep) alike going h h' names bares
        (Name.isEmpty_eq bares) ?_ same
      rintro stack _ rfl
      exact same.classify ignores stack topLevel sigils names
  | refl =>
      by_cases kind : t.kind = .operator
      · rw [readToken_operator kind, readToken_operator kind]
        obtain ⟨body, after⟩ := same.splitBody 0
        exact Lockstep.readOperator (C := respellingLockstep) alike h h' (going.pushOp _)
          (going.definition? (fun _ _ exprs => exprs.layer.definable?) _) same body after
      · refine Lockstep.readToken (C := respellingLockstep) alike rfl going h h' kind
          (fun _ => ⟨.refl _, .refl _⟩) ?_ (.cons (.refl t) same) fun _ => same
        rintro - stack _ rfl
        exact same.classify ignores stack topLevel rfl (.refl _)

end Step

theorem readElements_alike {words : Vocabulary} (ignores : words.IgnoresCase) {n : Nat}
    {topLevel : Bool} {p p' : Progress} (going : p.Related Expr.Respelled p') {span span' : List Token}
    (same : AllRespelled span span') (h : span.length < n) (h' : span'.length < n) :
    Alike ParseError.Respelled (Element.AllRelated Expr.Respelled) (readElements words n topLevel p span h)
      (readElements words n topLevel p' span' h') := by
  -- The induction is on the bound: every span inside of a line is shorter.
  induction n generalizing topLevel p p' span span' with
  | zero => exact absurd h (Nat.not_lt_zero _)
  | succ n ih =>
      cases same with
      | nil => exact alike_pure going.finish
      | cons first others =>
          simp only [readElements]
          refine (readToken_alike (fun topLevel _ span span' h h' levels same => ?_) going others _ _ ignores
            first).bind ?_
          · subst levels
            apply (ih ⟨.nil, rfl⟩ same h h').bind
            intro elements elements' same
            exact Congruence.except (C := respellingLockstep.toCongruence)
              (Element.collapse_related respelled_compatible same)
          · rintro ⟨p, after⟩ ⟨p', after'⟩ ⟨going, left⟩
            exact ih going left _ _

end Expr

namespace Parsed

open Calculator.Expr Calculator.Expr.Reading

/-- Two lines that are both read to nothing, or to expressions that differ in spelling. -/
structure Respelled (parsed parsed' : Parsed) : Prop where
  root : Option.Rel Expr.Respelled parsed.root parsed'.root
  implied : parsed.implied = parsed'.implied

theorem ofTokens_respelled {words : Vocabulary} (ignores : words.IgnoresCase) (imply : Bool)
    {line line' : List Token} (same : Token.AllRespelled line line') :
    Results ParseError.Respelled Respelled (ofTokens words imply line)
      (ofTokens words imply line') := by
  have bound : line'.length < line.length + 1 := same.length_eq ▸ Nat.lt_succ_self _
  have reads : Alike ParseError.Respelled (Element.AllRelated Expr.Respelled)
      (elementsOf words true .start line) (elementsOf words true .start line') := by
    unfold elementsOf
    rw [readElements_bound words true .start line' _ bound]
    exact readElements_alike ignores ⟨.nil, rfl⟩ same _ bound
  rw [ofTokens_run, ofTokens_run]
  apply (reads .empty).1.bind
  intro elements elements' same
  have parsed := ofElements_related respelled_compatible imply same
  generalize ofElements imply elements = x at parsed ⊢
  generalize ofElements imply elements' = y at parsed ⊢
  cases parsed with
  | value related => exact .value ⟨related.root, related.implied⟩
  | fault same => exact .fault (same ▸ .refl _)

end Parsed

theorem Engine.vocabulary_ignoresCase (engine : Engine) : engine.vocabulary.IgnoresCase where
  isFunction names := congrArg engine.registry.contains names
  isMacro names := congrArg engine.session.macros.contains names

/-- Names may be written in any case, from the tokens of a line to what its evaluation leaves. Lines that
differ in the spelling of names are read alike; and on engines that differ so, evaluating what was read
comes to the same value, or fails for the same cause, and leaves engines that differ so, with the same
variables and output. -/
theorem names_in_any_case :
    (∀ (engine : Engine) (imply : Bool) (line line' : List Token), Token.AllRespelled line line' →
      Results ParseError.Respelled Parsed.Respelled (Parsed.ofTokens engine.vocabulary imply line)
        (Parsed.ofTokens engine.vocabulary imply line')) ∧
    ∀ engine engine' : Engine, engine.Respelled engine' → engine.registry = .standard →
      ∀ root root' : Expr, root.Respelled root' → ∀ fuel,
        Option.Rel (fun p q => Results RuntimeError.Respelled Eq p.1 q.1 ∧ p.2.Respelled q.2)
          (engine.evaluate fuel root) (engine'.evaluate fuel root') :=
  ⟨fun engine imply _ _ same => Parsed.ofTokens_respelled engine.vocabulary_ignoresCase imply same,
    fun _ _ same standard _ _ roots fuel => same.evaluate standard roots fuel⟩

/-- A macro that is defined in one spelling and called in another one. -/
theorem names_in_any_case_macro :
    let engine := Engine.new .standard (.withInput .buffer [])
    let upper := engine.mapSession (·.defineMacro "F" ⟨.globalVar "X", []⟩)
    let lower := engine.mapSession (·.defineMacro "f" ⟨.globalVar "x", []⟩)
    Token.AllRespelled [⟨.name, "@F"⟩] [⟨.name, "@f"⟩] ∧
      Results ParseError.Respelled Parsed.Respelled
        (Parsed.ofTokens upper.vocabulary true [⟨.name, "@F"⟩])
        (Parsed.ofTokens upper.vocabulary true [⟨.name, "@f"⟩]) ∧
      upper.Respelled lower ∧
      Option.Rel (fun p q => Results RuntimeError.Respelled Eq p.1 q.1 ∧ p.2.Respelled q.2)
        (upper.evaluate 9 (.macroRef "F" [] true)) (lower.evaluate 9 (.macroRef "f" [] true)) := by
  intro engine upper lower
  have called : SameName "@F" "@f" := by
    unfold SameName
    decide +kernel
  have macros : SameName "F" "f" := by
    unfold SameName
    decide +kernel
  have globals : SameName "X" "x" := by
    unfold SameName
    decide +kernel
  have line : Token.AllRespelled [⟨.name, "@F"⟩] [⟨.name, "@f"⟩] :=
    .cons (.name (by decide +kernel) called) .nil
  have engines : upper.Respelled lower :=
    ⟨rfl, rfl, engine.session.respelled_refl.defineMacro macros
      ⟨.of_layer (.globalVar globals), .nil⟩⟩
  obtain ⟨reading, evaluating⟩ := names_in_any_case
  exact ⟨line, reading upper true _ _ line, engines,
    evaluating upper lower engines rfl _ _ (.of_layer (.macroRef true macros .nil)) 9⟩

end Calculator
