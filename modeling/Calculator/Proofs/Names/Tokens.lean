import Calculator.Proofs.Expr.Reading
import Calculator.Proofs.Limit
import Calculator.Proofs.Names.Respelling
import Calculator.Proofs.Text.Fold

/-! Lines that differ in the spelling of names. They are split into the same groups and parameters, and
their names denote the same kinds of things. -/

namespace Calculator

namespace Name

/-- The sigil that leads a name. -/
def sigil? (name : String) : Option Char := name.toList.head?.filter (· ∈ Text.sigils)

variable {name n n' : String}

theorem of_sigil? {c : Char} (sigil : sigil? name = some c) :
    c ∈ Text.sigils ∧ ∃ rest, name = String.ofList (c :: rest) ∧ bare name = String.ofList rest := by
  obtain ⟨first, among⟩ := Option.filter_eq_some_iff.mp sigil
  have among : c ∈ Text.sigils := of_decide_eq_true among
  obtain ⟨rest, list⟩ := List.head?_eq_some_iff.mp first
  refine ⟨among, rest, by rw [← list, String.ofList_toList], ?_⟩
  unfold bare
  rw [list]
  simp only [Text.sigils, List.mem_cons, List.not_mem_nil, or_false] at among
  rcases among with rfl | rfl | rfl <;> rfl

theorem bare_of_sigil?_none (none : sigil? name = none) : bare name = name := by
  unfold bare
  split
  all_goals first
    | rfl
    | rename_i list
      rw [sigil?, list] at none
      cases none

theorem sameName_bare (sigils : sigil? n = sigil? n') (names : SameName n n') :
    SameName (bare n) (bare n') := by
  cases sigil : sigil? n' with
  | none => rwa [bare_of_sigil?_none (sigils.trans sigil), bare_of_sigil?_none sigil]
  | some c =>
      obtain ⟨among, rest, rfl, plain⟩ := of_sigil? (sigils.trans sigil)
      obtain ⟨_, rest', rfl, plain'⟩ := of_sigil? sigil
      have folded := congrArg String.toList names
      rw [Text.fold_sigil among, Text.fold_sigil among] at folded
      rw [plain, plain']
      exact String.toList_injective (List.cons.inj folded).2

theorem classify_of_sigil?_none (none : sigil? name = none) (words : Vocabulary)
    (stack : NameStack) (topLevel : Bool) (rest : List Token) :
    classify words stack topLevel name rest =
      if opensCall rest && words.isFunction name then .function
      else if opensCall rest &&
          (words.isMacro name || stack.has name .macroName || isAssignmentTarget rest) then .macroName
      else if topLevel then .globalVar
      else if isAssignmentTarget rest || stack.has name .localVar then .localVar
      else .globalVar := by
  unfold classify
  split
  all_goals first
    | rfl
    | rename_i first
      rw [sigil?, first] at none
      cases none

theorem classify_of_sigil? {c : Char} (sigil : sigil? n = some c) (sigil' : sigil? n' = some c)
    {words words' : Vocabulary} {stack stack' : NameStack} {topLevel topLevel' : Bool}
    {rest rest' : List Token} :
    classify words stack topLevel n rest = classify words' stack' topLevel' n' rest' := by
  obtain ⟨among, more, rfl, _⟩ := of_sigil? sigil
  obtain ⟨_, more', rfl, _⟩ := of_sigil? sigil'
  unfold classify
  simp only [Text.sigils, List.mem_cons, List.not_mem_nil, or_false] at among
  rcases among with rfl | rfl | rfl <;> simp only [String.toList_ofList, List.head?_cons]

theorem isEmpty_eq (names : SameName n n') : n.isEmpty = n'.isEmpty := by
  rw [← Text.isEmpty_fold, names, Text.isEmpty_fold]

end Name

theorem NameStack.declare_eq {n n' : String} (names : SameName n n') (tag : NameTag)
    (stack : NameStack) : stack.declare n tag = stack.declare n' tag := by
  unfold NameStack.declare
  rw [names]

theorem NameStack.has_eq {n n' : String} (names : SameName n n') (tag : NameTag)
    (stack : NameStack) : stack.has n tag = stack.has n' tag := by
  unfold NameStack.has
  rw [names]

/-- A vocabulary that knows a name in all spellings or in none. -/
structure Vocabulary.IgnoresCase (words : Vocabulary) : Prop where
  isFunction {n n' : String} : SameName n n' → words.isFunction n = words.isFunction n'
  isMacro {n n' : String} : SameName n n' → words.isMacro n = words.isMacro n'

namespace Token

/-- Two tokens that are the same, or names with one sigil that differ in spelling. -/
inductive Respelled : Token → Token → Prop
  | refl (t : Token) : Respelled t t
  | name {n n' : String} (sigils : Name.sigil? n = Name.sigil? n') (names : SameName n n') :
      Respelled ⟨.name, n⟩ ⟨.name, n'⟩

namespace Respelled

variable {t t' : Token}

theorem kind (same : t.Respelled t') : t.kind = t'.kind := by
  cases same <;> rfl

theorem eq_of_kind (same : t.Respelled t') (other : t.kind ≠ .name) : t = t' := by
  cases same with
  | refl => rfl
  | name => exact absurd rfl other

end Respelled

abbrev AllRespelled : List Token → List Token → Prop := List.Forall₂ Respelled

variable {line line' : List Token}

theorem AllRespelled.assignmentAhead (same : AllRespelled line line') (depth : Int) :
    Name.assignmentAhead depth line = Name.assignmentAhead depth line' := by
  induction same generalizing depth with
  | nil => rfl
  | cons first _ ih =>
      unfold Name.assignmentAhead
      cases first with
      | refl => simp only [ih]
      | name => exact ih depth

theorem AllRespelled.opensCall (same : AllRespelled line line') :
    Name.opensCall line = Name.opensCall line' := by
  cases same with
  | nil => rfl
  | cons first _ =>
      unfold Name.opensCall
      simp only [List.head?_cons, Option.any_some, first.kind]

theorem AllRespelled.classify (same : AllRespelled line line') {words : Vocabulary}
    (ignores : words.IgnoresCase) (stack : NameStack) (topLevel : Bool) {n n' : String}
    (sigils : Name.sigil? n = Name.sigil? n') (names : SameName n n') :
    Name.classify words stack topLevel n line = Name.classify words stack topLevel n' line' := by
  cases sigil : Name.sigil? n' with
  | none =>
      rw [Name.classify_of_sigil?_none (sigils.trans sigil), Name.classify_of_sigil?_none sigil,
        same.opensCall, Name.isAssignmentTarget, same.assignmentAhead, ← Name.isAssignmentTarget,
        ignores.isFunction names, ignores.isMacro names, NameStack.has_eq names,
        NameStack.has_eq names]
  | some c => exact Name.classify_of_sigil? (sigils.trans sigil) sigil

theorem AllRespelled.closeGroup? (same : AllRespelled line line') (depth : Nat) :
    Option.Rel (GroupsAlike AllRespelled AllRespelled) (Token.closeGroup? depth line) (Token.closeGroup? depth line') := by
  induction same generalizing depth with
  | nil => exact .none
  | @cons t t' rest rest' first others ih =>
      have further : ∀ depth, Option.Rel (GroupsAlike AllRespelled AllRespelled)
          ((Token.closeGroup? depth rest).map (·.cons t))
          ((Token.closeGroup? depth rest').map (·.cons t')) := by
        intro depth
        have groups := ih depth
        generalize Token.closeGroup? depth rest = g at groups ⊢
        generalize Token.closeGroup? depth rest' = g' at groups ⊢
        cases groups with
        | none => exact .none
        | some groups => exact .some ⟨.cons first groups.inside, groups.close, groups.after⟩
      cases first with
      | name => exact further depth
      | refl =>
          unfold Token.closeGroup?
          split
          · exact .some ⟨.nil, rfl, others⟩
          · exact further _
          · exact further _
          · exact further _

theorem AllRespelled.group (same : AllRespelled line line') (opening : Token) :
    Results Eq (GroupsAlike AllRespelled AllRespelled) (Token.group opening line) (Token.group opening line') := by
  have groups := same.closeGroup? 0
  unfold Token.group
  generalize Token.closeGroup? 0 line = g at groups ⊢
  generalize Token.closeGroup? 0 line' = g' at groups ⊢
  cases groups with
  | none => exact .fault rfl
  | some groups =>
      dsimp only
      rw [groups.close]
      split
      · exact .value groups
      · exact .fault rfl

theorem forall₂_consFirst {t t' : Token} {spans spans' : List (List Token)} (first : t.Respelled t')
    (others : List.Forall₂ AllRespelled spans spans') :
    List.Forall₂ AllRespelled (consFirst t spans) (consFirst t' spans') := by
  cases others with
  | nil => exact .cons (.cons first .nil) .nil
  | cons span spans => exact .cons (.cons first span) spans

theorem AllRespelled.splitCommas (same : AllRespelled line line') (depth : Nat) :
    List.Forall₂ AllRespelled (Token.splitCommas depth line) (Token.splitCommas depth line') := by
  induction same generalizing depth with
  | nil => exact .cons .nil .nil
  | @cons t t' rest rest' first others ih =>
      cases first with
      | name sigils names => exact forall₂_consFirst (.name sigils names) (ih depth)
      | refl =>
          unfold Token.splitCommas
          split
          · split
            · exact forall₂_consFirst (.refl t) (ih depth)
            · have ends : rest.isEmpty = rest'.isEmpty := by cases others <;> rfl
              rw [ends]
              split
              · exact .cons .nil .nil
              · exact .cons .nil (ih 0)
          · exact forall₂_consFirst (.refl t) (ih _)
          · exact forall₂_consFirst (.refl t) (ih _)
          · exact forall₂_consFirst (.refl t) (ih depth)

theorem AllRespelled.parameters (same : AllRespelled line line') :
    List.Forall₂ AllRespelled (Token.parameters line) (Token.parameters line') := by
  cases same with
  | nil => exact .nil
  | cons first others => exact AllRespelled.splitCommas (.cons first others) 0

theorem AllRespelled.parameterSpans (same : AllRespelled line line') :
    List.Forall₂ (fun span span' => AllRespelled span.val span'.val) (Token.parameterSpans line)
      (Token.parameterSpans line') := by
  have spans := same.parameters
  rwa [← Expr.spans_val, ← Expr.spans_val, List.forall₂_map_left_iff,
    List.forall₂_map_right_iff] at spans

theorem AllRespelled.splitBody (same : AllRespelled line line') (depth : Int) :
    AllRespelled (Token.splitBody depth line).1 (Token.splitBody depth line').1 ∧
      AllRespelled (Token.splitBody depth line).2 (Token.splitBody depth line').2 := by
  induction same generalizing depth with
  | nil => exact ⟨.nil, .nil⟩
  | @cons t t' rest rest' first others ih =>
      cases first with
      | name sigils names =>
          obtain ⟨body, after⟩ := ih depth
          exact ⟨.cons (.name sigils names) body, after⟩
      | refl =>
          unfold Token.splitBody
          split
          · exact ⟨.nil, .cons (.refl t) others⟩
          · obtain ⟨body, after⟩ := ih _
            exact ⟨.cons (.refl t) body, after⟩

end Token

end Calculator
