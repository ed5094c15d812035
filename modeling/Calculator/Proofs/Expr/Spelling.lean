import Calculator.Expr.Printer
import Calculator.Proofs.Expr.Formed
import Calculator.Proofs.Token.Splitting

/-! The tokens that an expression is written with. -/

namespace Calculator

namespace Token

def ofAlias (name : String) : List Token := if name = "_" then [] else [⟨.name, name⟩]

end Token

namespace Expr

open Token

mutual

def spelled : Expr → List Token
  | .constant value => [⟨.number, value.render⟩]
  | .globalVar name => [⟨.name, "$" ++ name⟩]
  | .localVar name => [⟨.name, "#" ++ name⟩]
  | .macroRef name [] _ => [⟨.name, "@" ++ name⟩]
  | .macroRef name (arg :: args) _ =>
    ⟨.name, "@" ++ name⟩ :: inBrackets (commaSeparated (arg.spelled :: spelledAll args))
  | .lambda aliases body =>
    ⟨.name, "@"⟩ :: inBrackets (commaSeparated (aliases.map ofAlias ++ [body.spelled]))
  | .pointer address => ⟨.name, "$"⟩ :: inBrackets address.spelled
  | .localPointer address => ⟨.name, "#"⟩ :: inBrackets address.spelled
  | .assign target value => inBrackets (target.spelled ++ ⟨.operator, "="⟩ :: value.spelled)
  | .binary op left right => inBrackets (left.spelled ++ ⟨.operator, op.symbol⟩ :: right.spelled)
  | .unary op operand => ⟨.operator, op.symbol⟩ :: operand.spelled
  | .call name args => ⟨.name, name⟩ :: inBrackets (commaSeparated (spelledAll args))
  | .quote text => [⟨.quote, String.ofList (text.toList.flatMap Text.quoteChar)⟩]

def spelledAll : List Expr → List (List Token)
  | [] => []
  | arg :: args => arg.spelled :: spelledAll args

end

theorem spelledAll_eq (args : List Expr) : spelledAll args = args.map spelled := by
  induction args with
  | nil => rfl
  | cons arg args ih => rw [spelledAll, ih, List.map_cons]

/-- What can be read back as it is written: a constant is finite and not negative, and there are no
comment marks in quotes, no uses of the unused name, and no digits at the front of aliases. -/
def Plain : Expr → Prop
  | .constant value => value.isNaN = false ∧ value.isInfinite = false ∧ value.less .zero = false
  | .localVar name => name ≠ "_"
  | .lambda aliases _ => ∀ name ∈ aliases, ∀ c ∈ name.toList.head?, c.isDigit = false
  | .quote text => '`' ∉ text.toList
  | _ => True

/-- An expression that can be read and that is plain. -/
abbrev Writable (words : Vocabulary) : Expr → Prop := Every fun e => e.Formed words ∧ e.Plain

variable {words : Vocabulary}

def renderAll : List Expr → String
  | [] => ""
  | arg :: args => arg.render ++ renderFurther args

theorem render_call (name : String) (args : List Expr) :
    (Expr.call name args).render = name ++ "(" ++ renderAll args ++ ")" := by
  cases args with
  | nil => simp [render, renderAll, String.append_assoc]
  | cons arg args => simp [render, renderAll, String.append_assoc]

theorem splits_renderAll {args : List Expr}
    (each : ∀ arg ∈ args, Splits arg.render.toList arg.spelled) :
    Splits (renderAll args).toList (commaSeparated (args.map spelled)) := by
  induction args with
  | nil => exact .nil
  | cons arg args ih =>
      obtain ⟨here, others⟩ := List.forall_mem_cons.mp each
      cases args with
      | nil => simpa [renderAll, renderFurther, commaSeparated] using here
      | cons next args =>
          have text : (renderAll (arg :: next :: args)).toList =
              arg.render.toList ++ ',' :: ' ' :: (renderAll (next :: args)).toList := by
            simp [renderAll, renderFurther, String.toList_append]
          rw [text]
          exact here.comma (ih others)

theorem splits_aliases {aliases : List String} {body : Expr}
    (names : ∀ name ∈ aliases, name = "_" ∨ Identifier name.toList)
    (inner : Splits body.render.toList body.spelled) :
    Splits (String.join (aliases.map (· ++ ", ")) ++ body.render).toList
      (commaSeparated (aliases.map ofAlias ++ [body.spelled])) := by
  induction aliases with
  | nil => simpa [commaSeparated] using inner
  | cons name aliases ih =>
      obtain ⟨here, others⟩ := List.forall_mem_cons.mp names
      have first : Splits name.toList (ofAlias name) := by
        unfold ofAlias
        split
        · rename_i unused
          subst unused
          exact .skip (fun _ => rfl) .nil
        · rename_i used
          have named := Splits.name (.identifier (here.resolve_left used))
          rwa [String.ofList_toList] at named
      have text : (String.join ((name :: aliases).map (· ++ ", ")) ++ body.render).toList =
          name.toList ++ ',' :: ' ' ::
            (String.join (aliases.map (· ++ ", ")) ++ body.render).toList := by
        simp [String.join_cons, String.toList_append]
      have more : (aliases.map ofAlias ++ [body.spelled]) ≠ [] := by simp
      rw [text, List.map_cons, List.cons_append]
      obtain ⟨next, rest, split⟩ := List.exists_cons_of_ne_nil more
      rw [split] at ih ⊢
      exact first.comma (ih others)

theorem ofList_cons (c : Char) (name : String) :
    String.ofList (c :: name.toList) = String.ofList [c] ++ name := by
  rw [← String.toList_inj]
  simp

theorem identifier_of_named {name : String} (named : Named name)
    (noDigit : ∀ c ∈ name.toList.head?, c.isDigit = false) : Identifier name.toList := by
  obtain ⟨nonempty, word⟩ := named
  refine ⟨word, ?_⟩
  cases text : name.toList with
  | nil => exact absurd (String.toList_eq_nil_iff.mp text) nonempty
  | cons first rest =>
      have wordChar := word first (text ▸ List.mem_cons_self)
      rw [isWordChar, noDigit first (text ▸ rfl), Bool.false_or] at wordChar
      exact ⟨first, rest, rfl, wordChar⟩

/-- An expression is written as its tokens, and so that no operator before it goes on with it. -/
structure Written (e : Expr) : Prop where
  splits : Splits e.render.toList e.spelled
  starts : ∃ c rest, e.render.toList = c :: rest ∧ isOperatorChar c = false

theorem Written.of_text {e : Expr} {c : Char} {rest : List Char} (text : e.render.toList = c :: rest)
    (plain : isOperatorChar c = false) (splits : Splits (c :: rest) e.spelled) : Written e :=
  ⟨text ▸ splits, c, rest, text, plain⟩

theorem finite_of_plain {value : Number} (plain : (constant value).Plain) :
    value.pattern < Number.infinityPattern := by
  obtain ⟨notNaN, notInfinite, _⟩ := plain
  simp only [Number.isNaN, Number.isInfinite, decide_eq_false_iff_not, beq_eq_false_iff_ne] at *
  omega

theorem written_constant {value : Number} (notMinus : value.NotMinusZero)
    (plain : (constant value).Plain) : Written (constant value) := by
  obtain ⟨whole, fraction, text, nonempty, wholeDigits, fractionDigits, _⟩ :=
    Number.toText_eq (finite_of_plain plain) (notMinus.unsigned plain.1 plain.2.2)
  have splits := splits_number wholeDigits fractionDigits nonempty
  have rendered : (constant value).render.toList = Number.pointed whole fraction :=
    String.toList_ofList.trans text
  rw [← text] at splits
  obtain ⟨first, more, rfl⟩ := List.exists_cons_of_ne_nil nonempty
  have digit := wholeDigits first (.head _)
  exact ⟨by rw [rendered, ← text]; exact splits, first, _, rendered,
    isOperatorChar_word (by rw [isWordChar, digit, Bool.true_or])⟩

theorem written_macroRef {name : String} {args : List Expr} {definable : Bool}
    (word : ∀ c ∈ name.toList, isWordChar c = true) (each : ∀ arg ∈ args, Written arg) :
    Written (macroRef name args definable) := by
  cases args with
  | nil =>
      have splits := Splits.name (.atSign word)
      rw [ofList_cons] at splits
      exact .of_text (by simp [render, String.toList_append]) (by decide) splits
  | cons arg args =>
      have splits := Splits.applied (.atSign word) (splits_renderAll fun arg mem => (each arg mem).splits)
      rw [ofList_cons, List.map_cons, ← spelledAll_eq] at splits
      exact .of_text (by simp [render, renderAll, String.toList_append]) (by decide) splits

theorem written_lambda {aliases : List String} {body : Expr}
    (names : ∀ name ∈ aliases, name = "_" ∨ Identifier name.toList) (inner : Written body) :
    Written (lambda aliases body) := by
  have splits := Splits.applied (.atSign (List.forall_mem_nil _)) (splits_aliases names inner.splits)
  exact .of_text (by simp [render, String.toList_append]) (by decide) splits

theorem written_unary {op : UnaryOp} {operand : Expr} (inner : Written operand) :
    Written (unary op operand) := by
  obtain ⟨splits, c, rest, text, noOperator⟩ := inner
  have symbol : ∃ first, op.symbol.toList = [first] ∧ isOperatorChar first = false := by
    cases op with
    | not => exact ⟨'!', rfl, by decide⟩
    | complement => exact ⟨'~', rfl, by decide⟩
  obtain ⟨first, single, plain⟩ := symbol
  rw [text] at splits
  have behind := Splits.unary op noOperator splits
  rw [single] at behind
  exact .of_text (by simp [render, String.toList_append, single, text]) plain behind

theorem written_call {name : String} {args : List Expr} (named : Identifier name.toList)
    (each : ∀ arg ∈ args, Written arg) : Written (call name args) := by
  have splits := Splits.applied (.identifier named) (splits_renderAll fun arg mem => (each arg mem).splits)
  obtain ⟨word, first, more, text, _⟩ := named
  rw [String.ofList_toList, ← spelledAll_eq, text] at splits
  have plain := isOperatorChar_word (word first (text ▸ List.mem_cons_self))
  exact .of_text (by simp [render_call, String.toList_append, text]) plain splits

theorem Writable.written {e : Expr} (writable : Writable words e) : Written e := by
  induction writable with
  | @intro e here _ ih =>
      obtain ⟨formed, plain⟩ := here
      cases e with
      | constant value => exact written_constant formed plain
      | globalVar name =>
          have splits := Splits.name (.dollarName formed)
          rw [ofList_cons] at splits
          exact .of_text (by simp [render, String.toList_append]) (by decide) splits
      | localVar name =>
          have splits := Splits.name (.hash (formed.resolve_left plain).2)
          rw [ofList_cons] at splits
          exact .of_text (by simp [render, String.toList_append]) (by decide) splits
      | macroRef name args definable => exact written_macroRef formed.1.2 ih
      | lambda aliases body =>
          have names : ∀ name ∈ aliases, name = "_" ∨ Identifier name.toList :=
            fun name mem => (formed name mem).imp_right fun named =>
              identifier_of_named named (plain name mem)
          exact written_lambda names (ih body (.head _))
      | pointer address =>
          have splits := Splits.applied .dollar (ih address (.head _)).splits
          exact .of_text (by simp [render, String.toList_append]) (by decide) splits
      | localPointer address =>
          have splits := Splits.applied (.hash (List.forall_mem_nil _)) (ih address (.head _)).splits
          exact .of_text (by simp [render, String.toList_append]) (by decide) splits
      | assign target value =>
          have spaced (rest : List Char) : ∃ first more, "=".toList = first :: more ∧
              scan first (more ++ ' ' :: rest) = .ok (some ⟨.operator, "="⟩, ' ' :: rest) :=
            ⟨_, _, rfl, rfl⟩
          have splits := Splits.operator spaced (ih target (.head _)).splits
            (ih value (.tail _ (.head _))).splits
          exact .of_text (by simp [render, String.toList_append]) (by decide) splits.bracketed
      | binary op left right =>
          have splits := Splits.operator (scan_binary op) (ih left (.head _)).splits
            (ih right (.tail _ (.head _))).splits
          exact .of_text (by simp [render, String.toList_append]) (by decide) splits.bracketed
      | unary op operand => exact written_unary (ih operand (.head _))
      | call name args => exact written_call formed.1 ih
      | quote text =>
          exact .of_text (by simp [render, Text.quote]) (by decide) (.quote plain)

/-- Outside of brackets no comma stands and nothing that ends a definition, and signs stand between
operands only. -/
structure Orderly (line : List Token) : Prop where
  balanced : Balanced (fun t => t.NoComma ∧ t.Binds) line
  calm : Calm line
  nonempty : line ≠ []

namespace Orderly

variable {t : Token} {line more : List Token}

theorem binds (notOperator : t.kind ≠ .operator) : t.Binds := fun operator => absurd operator notOperator

theorem single (flat : t.Flat) (noComma : t.NoComma) (notOperator : t.kind ≠ .operator) :
    Orderly [t] :=
  ⟨.cons flat ⟨noComma, binds notOperator⟩ .nil, .consFlat notOperator .nil, List.cons_ne_nil _ _⟩

theorem applied {outside : Token → Prop} (name : String) (balanced : Balanced outside line)
    (calm : Calm line) : Orderly (⟨.name, name⟩ :: inBrackets line) :=
  ⟨.cons ⟨nofun, nofun⟩ ⟨nofun, binds nofun⟩ balanced.inBrackets, .consFlat nofun calm.inBrackets,
    List.cons_ne_nil _ _⟩

theorem operator (symbol : String) (left : Orderly line) (right : Orderly more) :
    Orderly (inBrackets (line ++ ⟨.operator, symbol⟩ :: more)) := by
  have balanced : Balanced (fun _ => True) (line ++ ⟨.operator, symbol⟩ :: more) :=
    (left.balanced.mono fun _ _ => trivial).append
      (.cons ⟨nofun, nofun⟩ trivial (right.balanced.mono fun _ _ => trivial))
  exact ⟨balanced.inBrackets, (left.calm.operator left.nonempty right.calm right.nonempty).inBrackets,
    List.cons_ne_nil _ _⟩

theorem unary (op : UnaryOp) (operand : Orderly line) :
    Orderly (⟨.operator, op.symbol⟩ :: line) := by
  have binds : Token.Binds ⟨.operator, op.symbol⟩ := by
    intro _
    cases op with
    | not => decide
    | complement => decide
  have notSign : Token.isSign ⟨.operator, op.symbol⟩ = false := by
    cases op with
    | not => decide
    | complement => decide
  exact ⟨.cons ⟨nofun, nofun⟩ ⟨nofun, binds⟩ operand.balanced,
    .cons notSign operand.calm fun _ => operand.nonempty, List.cons_ne_nil _ _⟩

end Orderly

theorem Every.orderly {P : Expr → Prop} {e : Expr} (every : Every P e) : Orderly e.spelled := by
  induction every with
  | @intro e _ _ ih =>
      have all {args : List Expr} (each : ∀ arg ∈ args, Orderly arg.spelled) :
          ∀ span ∈ spelledAll args, Orderly span := by
        rw [spelledAll_eq]
        exact List.forall_mem_map.mpr each
      cases e with
      | constant value => exact .single ⟨nofun, nofun⟩ nofun nofun
      | globalVar name => exact .single ⟨nofun, nofun⟩ nofun nofun
      | localVar name => exact .single ⟨nofun, nofun⟩ nofun nofun
      | macroRef name args definable =>
          cases args with
          | nil => exact .single ⟨nofun, nofun⟩ nofun nofun
          | cons arg args =>
              exact .applied _ (.commaSeparated fun span mem => (all ih span mem).balanced)
                (.commaSeparated fun span mem => (all ih span mem).calm)
      | lambda aliases body =>
          have each : ∀ span ∈ aliases.map ofAlias ++ [body.spelled],
              Balanced (fun _ => True) span ∧ Calm span := by
            intro span mem
            rcases List.mem_append.mp mem with early | last
            · obtain ⟨name, _, rfl⟩ := List.mem_map.mp early
              unfold ofAlias
              split
              · exact ⟨.nil, .nil⟩
              · exact ⟨.cons ⟨nofun, nofun⟩ trivial .nil, .consFlat nofun .nil⟩
            · rw [List.mem_singleton.mp last]
              have inner := ih body (.head _)
              exact ⟨inner.balanced.mono fun _ _ => trivial, inner.calm⟩
          exact .applied _ (.commaSeparated fun span mem => (each span mem).1)
            (.commaSeparated fun span mem => (each span mem).2)
      | pointer address =>
          have inner := ih address (.head _)
          exact .applied _ inner.balanced inner.calm
      | localPointer address =>
          have inner := ih address (.head _)
          exact .applied _ inner.balanced inner.calm
      | assign target value => exact (ih target (.head _)).operator _ (ih value (.tail _ (.head _)))
      | binary op left right => exact (ih left (.head _)).operator _ (ih right (.tail _ (.head _)))
      | unary op operand => exact (ih operand (.head _)).unary op
      | call name args =>
          exact .applied _ (.commaSeparated fun span mem => (all ih span mem).balanced)
            (.commaSeparated fun span mem => (all ih span mem).calm)
      | quote text => exact .single ⟨nofun, nofun⟩ nofun nofun

end Expr

end Calculator
