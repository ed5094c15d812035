import Calculator.Proofs.Token.Brackets
import Calculator.Token.Signs
import Mathlib.Data.List.Chain

/-! Rules on signs: how they split over a line, and what they leave alone. -/

namespace Calculator

namespace Token

def powerSign : Token := ⟨.operator, "**"⟩

def minusSign : Token := ⟨.operator, "-"⟩

theorem groupNegativeExponents_cons {t : Token} {line : List Token}
    (other : t.isOperator "**" = false) :
    groupNegativeExponents (t :: line) = t :: groupNegativeExponents line := by
  match line with
  | [] => rfl
  | [_] => rfl
  | _ :: _ :: _ => simp [groupNegativeExponents, other]

theorem groupNegativeExponents_append {front : List Token} {t : Token} {line : List Token}
    (last : ∀ final ∈ front.getLast?, final.isOperator "-" = false) (notMinus : t.isOperator "-" = false) :
    groupNegativeExponents (front ++ t :: line) =
      groupNegativeExponents front ++ groupNegativeExponents (t :: line) := by
  fun_induction groupNegativeExponents front with
  | case1 power minus operand rest here ih =>
      have lastRest : ∀ final ∈ rest.getLast?, final.isOperator "-" = false := by
        intro final mem
        refine last final ?_
        cases rest with
        | nil => cases mem
        | cons next rest => rwa [List.getLast?_cons_cons, List.getLast?_cons_cons, List.getLast?_cons_cons]
      simp only [List.cons_append]
      rw [groupNegativeExponents, if_pos here, ih lastRest]
  | case2 power minus operand rest other ih =>
      rw [List.getLast?_cons_cons] at last
      simp only [List.cons_append] at ih ⊢
      rw [groupNegativeExponents, if_neg other, ih last]
  | case3 front short =>
      match front with
      | [] => rfl
      | [a] =>
          cases line with
          | nil => rfl
          | cons next line => simp [groupNegativeExponents, notMinus]
      | [a, b] =>
          have notMinus' : b.isOperator "-" = false := last b rfl
          cases line with
          | nil => simp [groupNegativeExponents, notMinus']
          | cons next line => simp [groupNegativeExponents, notMinus, notMinus']
      | a :: b :: c :: rest => exact absurd rfl (short a b c rest)

theorem groupNegativeExponents_grouped {u : Token} (single : u.kind ≠ .openParen) :
    groupNegativeExponents [powerSign, minusSign, u] =
      [powerSign, openRound, minusSign, u, closeRound] := by
  simp [groupNegativeExponents, powerSign, minusSign, isOperator, single]

theorem groupNegativeExponents_bracketed (u : Token) :
    groupNegativeExponents [powerSign, openRound, minusSign, u, closeRound] =
      [powerSign, openRound, minusSign, u, closeRound] := by
  simp [groupNegativeExponents, powerSign, openRound, minusSign, isOperator]

theorem groupNegativeExponents_skip {u : Token} (notMinus : u.isOperator "-" = false) (t : Token)
    (line : List Token) :
    groupNegativeExponents (t :: u :: line) = t :: groupNegativeExponents (u :: line) := by
  cases line with
  | nil => rfl
  | cons v line => simp [groupNegativeExponents, notMinus]

theorem groupNegativeExponents_head (t : Token) (line : List Token) :
    ∃ rest, groupNegativeExponents (t :: line) = t :: rest := by
  match line with
  | [] => exact ⟨_, rfl⟩
  | [_] => exact ⟨_, rfl⟩
  | u :: v :: line =>
      rw [groupNegativeExponents]
      split
      · exact ⟨_, rfl⟩
      · exact ⟨_, rfl⟩

theorem isOperator_other {t : Token} {symbol other : String} (operator : t.isOperator symbol = true)
    (different : symbol ≠ other) : t.isOperator other = false := by
  simp only [isOperator, Bool.and_eq_true, beq_iff_eq] at operator
  rw [isOperator, operator.2, beq_false_of_ne different, Bool.and_false]

theorem isOperator_opening {t : Token} (kind : t.kind = .openParen) (symbol : String) :
    t.isOperator symbol = false := by
  simp [isOperator, kind]

theorem groupNegativeExponents_all {P : Token → Prop} {line : List Token} (opening : P openRound)
    (closing : P closeRound) (all : ∀ t ∈ line, P t) : ∀ t ∈ groupNegativeExponents line, P t := by
  fun_induction groupNegativeExponents line with
  | case1 power minus operand rest _ ih =>
      simp only [List.forall_mem_cons] at all ⊢
      obtain ⟨ofPower, ofMinus, ofOperand, others⟩ := all
      exact ⟨ofPower, opening, ofMinus, ofOperand, closing, ih others⟩
  | case2 power minus operand rest _ ih =>
      obtain ⟨ofPower, others⟩ := List.forall_mem_cons.mp all
      exact List.forall_mem_cons.mpr ⟨ofPower, ih others⟩
  | case3 => exact all

/-- Brackets are put once. -/
theorem groupNegativeExponents_again (line : List Token) :
    groupNegativeExponents (groupNegativeExponents line) = groupNegativeExponents line := by
  fun_induction groupNegativeExponents line with
  | case1 power minus operand rest here ih =>
      simp only [Bool.and_eq_true] at here
      have minusOnly : minus.isOperator "**" = false := isOperator_other here.1.2 (by decide)
      rw [groupNegativeExponents_skip rfl, groupNegativeExponents_cons rfl,
        groupNegativeExponents_cons minusOnly, groupNegativeExponents_skip rfl,
        groupNegativeExponents_cons rfl, ih]
  | case2 power minus operand rest other ih =>
      cases isPower : power.isOperator "**" with
      | false => rw [groupNegativeExponents_cons isPower, ih]
      | true =>
        cases isMinus : minus.isOperator "-" with
        | false =>
          obtain ⟨more, head⟩ := groupNegativeExponents_head minus (operand :: rest)
          rw [head] at ih ⊢
          rw [groupNegativeExponents_skip isMinus, ih]
        | true =>
          have opens : operand.kind = .openParen := by simpa [isPower, isMinus] using other
          have grouped : groupNegativeExponents (minus :: operand :: rest) =
              minus :: operand :: groupNegativeExponents rest := by
            rw [groupNegativeExponents_cons (isOperator_other isMinus (by decide)),
              groupNegativeExponents_cons (isOperator_opening opens "**")]
          rw [grouped] at ih ⊢
          rw [groupNegativeExponents, if_neg (by simp [opens]), ih]
  | case3 line short =>
      match line with
      | [] => rfl
      | [_] => rfl
      | [_, _] => rfl
      | t :: u :: v :: line => exact absurd rfl (short t u v line)

theorem flat_of_isOperator {t : Token} {symbol : String} (operator : t.isOperator symbol = true) :
    t.Flat := by
  have kind : t.kind = .operator := by
    simp only [isOperator, Bool.and_eq_true, beq_iff_eq] at operator
    exact operator.1
  exact flat_of_operator kind

theorem closes_groupNegativeExponents {line : List Token} {depth : Nat}
    (closes : ∃ inside close, Closes depth line inside close []) :
    ∃ inside close, Closes depth (groupNegativeExponents line) inside close [] := by
  obtain ⟨inside, close, closes⟩ := closes
  fun_induction groupNegativeExponents line generalizing depth inside with
  | case1 power minus operand rest here ih =>
      simp only [Bool.and_eq_true, bne_iff_ne] at here
      obtain ⟨⟨isPower, isMinus⟩, single⟩ := here
      have powerFlat := flat_of_isOperator isPower
      have minusFlat := flat_of_isOperator isMinus
      cases closes with
      | opening kind => exact absurd kind powerFlat.1
      | closing kind => exact absurd kind powerFlat.2
      | flat _ closes =>
        cases closes with
        | opening kind => exact absurd kind minusFlat.1
        | closing kind => exact absurd kind minusFlat.2
        | flat _ closes =>
          cases closes with
          | here kind =>
            exact ⟨_, _, .flat powerFlat (.opening rfl (.flat minusFlat (.closing kind (.here rfl []))))⟩
          | opening kind => exact absurd kind single
          | closing kind closes =>
            obtain ⟨_, _, closes⟩ := ih _ closes
            exact ⟨_, _, .flat powerFlat
              (.opening rfl (.flat minusFlat (.closing kind (.closing rfl closes))))⟩
          | flat operandFlat closes =>
            obtain ⟨_, _, closes⟩ := ih _ closes
            exact ⟨_, _, .flat powerFlat
              (.opening rfl (.flat minusFlat (.flat operandFlat (.closing rfl closes))))⟩
  | case2 power minus operand rest other ih =>
      cases closes with
      | flat isFlat closes =>
          obtain ⟨_, _, closes⟩ := ih _ closes
          exact ⟨_, _, .flat isFlat closes⟩
      | opening kind closes =>
          obtain ⟨_, _, closes⟩ := ih _ closes
          exact ⟨_, _, .opening kind closes⟩
      | closing kind closes =>
          obtain ⟨_, _, closes⟩ := ih _ closes
          exact ⟨_, _, .closing kind closes⟩
  | case3 line short => exact ⟨inside, close, closes⟩

theorem checkSignsFrom_cons {index run : Nat} {previous : String} {t : Token} {line : List Token} :
    checkSignsFrom index run previous (t :: line) = .ok () ↔
      (t.isSign = true → run < 2 ∧ (run = 1 → previous = t.text → index ≠ 1 ∧ line ≠ [])) ∧
        checkSignsFrom (index + 1) (if t.isSign then run + 1 else 0) t.text line = .ok () := by
  rw [checkSignsFrom]
  cases sign : t.isSign with
  | false => simp
  | true =>
      simp only [Bool.not_true, Bool.false_eq_true, if_false, if_true, forall_const]
      split
      · simp [Nat.not_lt.mpr ‹run ≥ 2›]
      split
      · simp_all
      split
      · simp_all
      · rename_i short start finish
        refine ⟨fun checked => ⟨⟨Nat.lt_of_not_le short, fun one same => ?_⟩, checked⟩, And.right⟩
        simpa [one, same] using And.intro start finish

theorem checkSignsFrom_fewer {index run index' run' : Nat} {previous previous' : String}
    {line : List Token} (checked : checkSignsFrom index run previous line = .ok ())
    (within : run ≤ index) (later : index ≤ index')
    (fewer : run' < run ∨ run' = run ∧ (0 < run → previous' = previous)) :
    checkSignsFrom index' run' previous' line = .ok () := by
  induction line generalizing index run index' run' previous previous' with
  | nil => rfl
  | cons t line ih =>
      rw [checkSignsFrom_cons] at checked ⊢
      obtain ⟨allowed, checked⟩ := checked
      constructor
      · intro sign
        obtain ⟨short, ends⟩ := allowed sign
        refine ⟨by omega, fun one same => ?_⟩
        obtain ⟨rfl, samePrevious⟩ : run = 1 ∧ previous' = previous := by
          rcases fewer with less | ⟨equal, samePrevious⟩
          · omega
          · exact ⟨by omega, samePrevious (by omega)⟩
        obtain ⟨notSecond, more⟩ := ends rfl (samePrevious ▸ same)
        exact ⟨by omega, more⟩
      · cases sign : t.isSign with
        | false =>
            simp only [sign, Bool.false_eq_true, if_false] at checked ⊢
            exact ih checked (Nat.zero_le _) (by omega) (.inr ⟨rfl, fun _ => rfl⟩)
        | true =>
            simp only [sign, if_true] at checked ⊢
            exact ih checked (by omega) (by omega)
              (fewer.imp (by omega) fun ⟨equal, _⟩ => ⟨by omega, fun _ => rfl⟩)

theorem checkSignsFrom_grouped {index run : Nat} {previous : String} {line : List Token}
    (checked : checkSignsFrom index run previous line = .ok ()) (within : run ≤ index) :
    checkSignsFrom index run previous (groupNegativeExponents line) = .ok () := by
  fun_induction groupNegativeExponents line generalizing index run previous with
  | case1 power minus operand rest here ih =>
      simp only [Bool.and_eq_true] at here
      have notSign : power.isSign = false := by
        rw [isSign, isOperator_other here.1.1 (by decide), isOperator_other here.1.1 (by decide)]
        rfl
      have sign : minus.isSign = true := by rw [isSign, here.1.2, Bool.or_true]
      have opening : openRound.isSign = false := rfl
      have closing : closeRound.isSign = false := rfl
      simp only [checkSignsFrom_cons, notSign, sign, opening, closing, Bool.false_eq_true, if_false, if_true]
        at checked ⊢
      obtain ⟨-, -, allowed, checked⟩ := checked
      have behind := ih checked (by split <;> omega)
      refine ⟨nofun, nofun, by simp, fun operandSign => ?_, nofun, ?_⟩
      · exact ⟨by omega, fun _ _ => ⟨by omega, List.cons_ne_nil _ _⟩⟩
      · refine checkSignsFrom_fewer behind (by split <;> omega) (by omega) ?_
        split
        · exact .inl (by omega)
        · exact .inr ⟨rfl, nofun⟩
  | case2 power minus operand rest other ih =>
      rw [checkSignsFrom_cons] at checked ⊢
      obtain ⟨allowed, checked⟩ := checked
      obtain ⟨more, head⟩ := groupNegativeExponents_head minus (operand :: rest)
      refine ⟨fun sign => ⟨(allowed sign).1, fun one same => ⟨((allowed sign).2 one same).1, ?_⟩⟩, ?_⟩
      · rw [head]
        exact List.cons_ne_nil _ _
      · exact ih checked (by split <;> omega)
  | case3 line short => exact checked

theorem checkSignsFrom_append {front line : List Token} {t : Token} {index run : Nat}
    {previous : String} (checked : checkSignsFrom index run previous front = .ok ())
    (noSign : t.isSign = false) (rest : ∀ index, checkSignsFrom index 0 t.text line = .ok ()) :
    checkSignsFrom index run previous (front ++ t :: line) = .ok () := by
  fun_induction checkSignsFrom index run previous front with
  | case1 index run previous => simp [checkSignsFrom, noSign, rest]
  | case2 index run previous first front plain ih =>
      rw [List.cons_append, checkSignsFrom, if_pos plain]
      exact ih checked
  | case3 => cases checked
  | case4 => cases checked
  | case5 => cases checked
  | case6 index run previous first front sign short start finish ih =>
      rw [List.cons_append, checkSignsFrom, if_neg sign, if_neg short, if_neg start, if_neg (by simp)]
      exact ih checked

theorem checkSigns_minus {u : Token} (noSign : u.isSign = false) (index : Nat) :
    checkSignsFrom index 0 "**" [minusSign, u] = .ok () := by
  have sign : minusSign.isSign = true := by decide
  simp [checkSignsFrom, sign, noSign]

theorem checkSigns_bracketed {u : Token} (noSign : u.isSign = false) (index : Nat) :
    checkSignsFrom index 0 "**" [openRound, minusSign, u, closeRound] = .ok () := by
  have opening : openRound.isSign = false := by decide
  have sign : minusSign.isSign = true := by decide
  have closing : closeRound.isSign = false := by decide
  simp [checkSignsFrom, opening, sign, closing, noSign]

/-- No sign stands at the front or behind an operator, and no operator at the end. -/
structure Calm (line : List Token) : Prop where
  first : ∀ t ∈ line.head?, t.isSign = false
  behind : line.IsChain fun t next => t.kind = .operator → next.isSign = false
  last : ∀ t ∈ line.getLast?, t.kind ≠ .operator

namespace Calm

variable {line more : List Token} {t : Token}

theorem isSign_operator (sign : t.isSign = true) : t.kind = .operator := by
  simp only [isSign, isOperator, Bool.or_eq_true, Bool.and_eq_true, beq_iff_eq] at sign
  rcases sign with plus | minus
  · exact plus.1
  · exact minus.1

theorem nil : Calm [] := ⟨nofun, .nil, nofun⟩

theorem cons (notSign : t.isSign = false) (calm : Calm line)
    (operand : t.kind = .operator → line ≠ []) : Calm (t :: line) := by
  refine ⟨?_, List.isChain_cons.mpr ⟨fun next mem _ => calm.first next mem, calm.behind⟩, ?_⟩
  · rintro _ ⟨⟩
    exact notSign
  · intro final mem
    cases line with
    | nil =>
        cases mem
        exact fun operator => operand operator rfl
    | cons next line => exact calm.last final (by rwa [List.getLast?_cons_cons] at mem)

theorem consFlat (notOperator : t.kind ≠ .operator) (calm : Calm line) : Calm (t :: line) := by
  refine cons ?_ calm fun operator => absurd operator notOperator
  rw [Bool.eq_false_iff]
  exact fun sign => notOperator (isSign_operator sign)

theorem append (calm : Calm line) (others : Calm more) : Calm (line ++ more) := by
  refine ⟨?_, calm.behind.append others.behind ?_, ?_⟩
  · intro t mem
    cases line with
    | nil => exact others.first t mem
    | cons next line => exact calm.first t mem
  · exact fun t last next _ operator => absurd operator (calm.last t last)
  · intro t mem
    cases more with
    | nil => exact calm.last t (by rwa [List.append_nil] at mem)
    | cons next more => exact others.last t (by rwa [List.getLast?_append_cons] at mem)

theorem operator (calm : Calm line) (nonempty : line ≠ []) (others : Calm more) (operand : more ≠ []) :
    Calm (line ++ t :: more) := by
  refine ⟨?_, calm.behind.append ?_ ?_, ?_⟩
  · intro first mem
    cases line with
    | nil => exact absurd rfl nonempty
    | cons next line => exact calm.first first mem
  · exact List.isChain_cons.mpr ⟨fun next mem _ => others.first next mem, others.behind⟩
  · exact fun final last _ _ operator => absurd operator (calm.last final last)
  · intro final mem
    cases more with
    | nil => exact absurd rfl operand
    | cons next more =>
        rw [List.getLast?_append_cons, List.getLast?_cons_cons] at mem
        exact others.last final mem

theorem inBrackets (calm : Calm line) : Calm (inBrackets line) :=
  .consFlat nofun (calm.append (.consFlat nofun .nil))

theorem commaSeparated {spans : List (List Token)} (calm : ∀ span ∈ spans, Calm span) :
    Calm (commaSeparated spans) := by
  induction spans with
  | nil => exact .nil
  | cons span spans ih =>
      obtain ⟨first, others⟩ := List.forall_mem_cons.mp calm
      cases spans with
      | nil => exact first
      | cons next spans => exact first.append (.consFlat nofun (ih others))

theorem checkSignsFrom_ok (behind : line.IsChain fun t next => t.kind = .operator → next.isSign = false)
    {index run : Nat} {previous : String} (alone : run = 0 ∨ ∀ t ∈ line.head?, t.isSign = false) :
    checkSignsFrom index run previous line = .ok () := by
  -- The induction goes along the line; where a sign stands before it, no sign follows.
  induction line generalizing index run previous with
  | nil => rfl
  | cons t line ih =>
      obtain ⟨next, behind⟩ := List.isChain_cons.mp behind
      rw [checkSignsFrom]
      cases sign : t.isSign with
      | false => exact ih behind (.inl rfl)
      | true =>
          obtain rfl : run = 0 := alone.resolve_right fun none => by
            rw [none t rfl] at sign
            cases sign
          exact ih behind (.inr fun follows mem => next follows mem (isSign_operator sign))

theorem checkSigns (calm : Calm line) : checkSigns line = .ok () :=
  checkSignsFrom_ok calm.behind (.inl rfl)

theorem groupNegativeExponents (calm : Calm line) : groupNegativeExponents line = line := by
  have behind := calm.behind
  clear calm
  fun_induction Token.groupNegativeExponents line with
  | case1 power minus operand rest here ih =>
      obtain ⟨next, -⟩ := List.isChain_cons_cons.mp behind
      simp only [Bool.and_eq_true, isOperator, beq_iff_eq] at here
      have noSign := next here.1.1.1
      simp [isSign, isOperator, here.1.2] at noSign
  | case2 power minus operand rest _ ih =>
      rw [ih (List.isChain_cons.mp behind).2]
  | case3 => rfl

end Calm

end Token

end Calculator
