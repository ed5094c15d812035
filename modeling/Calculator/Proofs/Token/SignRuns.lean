import Calculator.Token.Signs

/-!
Where signs may stand.

Main statement: `checkSigns` accepts the lines with no three signs in a row and with no sign doubled at an end,
and refuses every other one for the leftmost sign that is at fault.
-/

namespace Calculator

namespace Token

def SignAt (tokens : List Token) (i : Nat) (sign : String) : Prop :=
  ∃ t, tokens[i]? = some t ∧ t.isSign = true ∧ t.text = sign

/-- Which lines are in order. -/
structure SignsInOrder (tokens : List Token) : Prop where
  noThree : ¬∃ i first second third,
    SignAt tokens i first ∧ SignAt tokens (i + 1) second ∧ SignAt tokens (i + 2) third
  notDoubledFirst : ¬∃ sign, SignAt tokens 0 sign ∧ SignAt tokens 1 sign
  notDoubledLast : ¬∃ i sign, i + 2 = tokens.length ∧ SignAt tokens i sign ∧ SignAt tokens (i + 1) sign

/-- The sign at this place is at fault. At one place, a run goes before a doubled sign, and the start of the line
before its end. -/
inductive FaultAt (tokens : List Token) : Nat → TokenError → Prop
  | third {i : Nat} {first second third : String} (one : SignAt tokens i first) (two : SignAt tokens (i + 1) second)
      (three : SignAt tokens (i + 2) third) : FaultAt tokens (i + 2) (.signRun third)
  | doubledFirst {sign : String} (one : SignAt tokens 0 sign) (two : SignAt tokens 1 sign) :
      FaultAt tokens 1 (.doubledSign sign .start)
  | doubledLast {i : Nat} {sign : String} (last : i + 2 = tokens.length) (one : SignAt tokens i sign)
      (two : SignAt tokens (i + 1) sign) (notFirst : i ≠ 0)
      (alone : ¬∃ j other, i = j + 1 ∧ SignAt tokens j other) :
      FaultAt tokens (i + 1) (.doubledSign sign .finish)

section Line

variable {tokens rest : List Token} {t : Token} {index run : Nat} {previous : String}

theorem SignAt.unique {i : Nat} {sign other : String} (here : SignAt tokens i sign) (there : SignAt tokens i other) :
    sign = other := by
  obtain ⟨t, found, -, rfl⟩ := here
  obtain ⟨u, found', -, rfl⟩ := there
  rw [found] at found'
  cases found'
  rfl

theorem signAt_iff (found : tokens[index]? = some t) {sign : String} :
    SignAt tokens index sign ↔ t.isSign = true ∧ t.text = sign := by
  rw [SignAt, found]
  constructor
  · rintro ⟨_, ⟨⟩, sign⟩
    exact sign
  · exact fun sign => ⟨t, rfl, sign⟩

theorem FaultAt.unique {i : Nat} {fault other : TokenError} (here : FaultAt tokens i fault)
    (there : FaultAt tokens i other) : fault = other := by
  cases here with
  | third one two three =>
      cases there with
      | third _ _ three' => rw [three.unique three']
      | doubledLast _ _ _ _ alone => exact absurd ⟨_, _, rfl, one⟩ alone
  | doubledFirst one two =>
      cases there with
      | doubledFirst one' => rw [one.unique one']
      | doubledLast _ _ _ notFirst => exact absurd rfl notFirst
  | doubledLast last one two notFirst alone =>
      cases there with
      | third one' => exact absurd ⟨_, _, rfl, one'⟩ alone
      | doubledFirst => exact absurd rfl notFirst
      | doubledLast _ one' => rw [one.unique one']

theorem SignAt.lt_length {i : Nat} {sign : String} (here : SignAt tokens i sign) : i < tokens.length := by
  obtain ⟨t, found, -⟩ := here
  exact (List.getElem?_eq_some_iff.mp found).1

theorem FaultAt.lt_length {i : Nat} {fault : TokenError} (here : FaultAt tokens i fault) : i < tokens.length := by
  cases here with
  | third one two three => exact three.lt_length
  | doubledFirst one two => exact two.lt_length
  | doubledLast last one two => exact two.lt_length

theorem signsInOrder_iff : SignsInOrder tokens ↔ ∀ i fault, ¬FaultAt tokens i fault := by
  constructor
  · intro inOrder i fault here
    cases here with
    | third one two three => exact inOrder.noThree ⟨_, _, _, _, one, two, three⟩
    | doubledFirst one two => exact inOrder.notDoubledFirst ⟨_, one, two⟩
    | doubledLast last one two => exact inOrder.notDoubledLast ⟨_, _, last, one, two⟩
  · intro none
    refine ⟨?_, ?_, ?_⟩
    · rintro ⟨i, _, _, _, one, two, three⟩
      exact none _ _ (.third one two three)
    · rintro ⟨sign, one, two⟩
      exact none _ _ (.doubledFirst one two)
    · rintro ⟨i, sign, last, one, two⟩
      by_cases first : i = 0
      · subst first
        exact none _ _ (.doubledFirst one two)
      by_cases run : ∃ j other, i = j + 1 ∧ SignAt tokens j other
      · obtain ⟨j, other, rfl, before⟩ := run
        exact none _ _ (.third before one two)
      · exact none _ _ (.doubledLast last one two first run)

/-- What the check knows of the tokens before a place. -/
structure Behind (tokens : List Token) (index run : Nat) (previous : String) : Prop where
  one : run ≠ 0 ↔ ∃ i sign, index = i + 1 ∧ SignAt tokens i sign
  two : 2 ≤ run ↔ ∃ i first second, index = i + 2 ∧ SignAt tokens i first ∧ SignAt tokens (i + 1) second
  last : ∀ i sign, index = i + 1 → SignAt tokens i sign → previous = sign

theorem Behind.start : Behind tokens 0 0 "" := by
  refine ⟨?_, ?_, nofun⟩ <;> simp

theorem Behind.step (behind : Behind tokens index run previous) (found : tokens[index]? = some t) :
    Behind tokens (index + 1) (if t.isSign then run + 1 else 0) t.text := by
  have here {sign : String} : SignAt tokens index sign ↔ t.isSign = true ∧ t.text = sign := signAt_iff found
  have counted : (if t.isSign then run + 1 else 0) ≠ 0 ↔ t.isSign = true := by
    cases t.isSign <;> simp
  have twice : 2 ≤ (if t.isSign then run + 1 else 0) ↔ run ≠ 0 ∧ t.isSign = true := by
    cases t.isSign <;> simp [Nat.one_le_iff_ne_zero]
  refine ⟨counted.trans ⟨fun sign => ?_, ?_⟩, twice.trans ⟨?_, ?_⟩, ?_⟩
  · exact ⟨index, _, rfl, here.mpr ⟨sign, rfl⟩⟩
  · rintro ⟨i, sign, same, there⟩
    obtain rfl := Nat.succ.inj same
    exact (here.mp there).1
  · rintro ⟨some, sign⟩
    obtain ⟨i, first, rfl, before⟩ := behind.one.mp some
    exact ⟨i, first, _, rfl, before, here.mpr ⟨sign, rfl⟩⟩
  · rintro ⟨i, first, second, same, one, two⟩
    obtain rfl := Nat.succ.inj same
    exact ⟨behind.one.mpr ⟨i, first, rfl, one⟩, (here.mp two).1⟩
  · rintro i sign same there
    obtain rfl := Nat.succ.inj same
    exact (here.mp there).2

theorem Behind.of_faultAt (behind : Behind tokens index run previous) (found : tokens[index]? = some t)
    {fault : TokenError} (fails : FaultAt tokens index fault) :
    t.isSign = true ∧
      (2 ≤ run ∨ run ≠ 0 ∧ previous = t.text ∧ (index = 1 ∨ index + 1 = tokens.length)) := by
  have here {sign : String} : SignAt tokens index sign ↔ t.isSign = true ∧ t.text = sign := signAt_iff found
  cases fails with
  | third one two three => exact ⟨(here.mp three).1, .inl (behind.two.mpr ⟨_, _, _, rfl, one, two⟩)⟩
  | doubledFirst one two =>
      obtain ⟨sign, rfl⟩ := here.mp two
      exact ⟨sign, .inr ⟨behind.one.mpr ⟨_, _, rfl, one⟩, behind.last _ _ rfl one, .inl rfl⟩⟩
  | doubledLast last one two =>
      obtain ⟨sign, rfl⟩ := here.mp two
      exact ⟨sign, .inr ⟨behind.one.mpr ⟨_, _, rfl, one⟩, behind.last _ _ rfl one, .inr last⟩⟩

theorem Behind.doubled (behind : Behind tokens index run previous) (one : run = 1) :
    ∃ i, index = i + 1 ∧ SignAt tokens i previous ∧ ¬∃ j other, i = j + 1 ∧ SignAt tokens j other := by
  obtain ⟨i, sign, rfl, before⟩ := behind.one.mp (by omega)
  obtain rfl := behind.last i sign rfl before
  refine ⟨i, rfl, before, ?_⟩
  rintro ⟨j, other, rfl, early⟩
  have two := behind.two.mpr ⟨j, other, _, rfl, early, before⟩
  omega

theorem drop_cons (split : tokens.drop index = t :: rest) :
    tokens[index]? = some t ∧ tokens.drop (index + 1) = rest := by
  constructor
  · rw [← List.head?_drop, split]
    rfl
  · rw [← List.drop_drop, split, List.drop_one, List.tail_cons]

theorem check_step (behind : Behind tokens index run previous) (split : tokens.drop index = t :: rest) :
    (∃ fault, FaultAt tokens index fault ∧ checkSignsFrom index run previous (t :: rest) = .error fault) ∨
      (∀ fault, ¬FaultAt tokens index fault) ∧
        checkSignsFrom index run previous (t :: rest) =
          checkSignsFrom (index + 1) (if t.isSign then run + 1 else 0) t.text rest := by
  have found := (drop_cons split).1
  have whole : tokens.length = index + 1 + rest.length := by
    have length := congrArg List.length split
    rw [List.length_drop, List.length_cons] at length
    omega
  rw [checkSignsFrom]
  cases isSign : t.isSign with
  | false =>
      refine .inr ⟨fun fault fails => ?_, rfl⟩
      have sign := (behind.of_faultAt found fails).1
      rw [isSign] at sign
      cases sign
  | true =>
      have now : SignAt tokens index t.text := (signAt_iff found).mpr ⟨isSign, rfl⟩
      simp only [Bool.not_true, Bool.false_eq_true, if_false, if_true]
      by_cases two : run ≥ 2
      · obtain ⟨i, first, second, rfl, before, last⟩ := behind.two.mp two
        exact .inl ⟨_, .third before last now, if_pos two⟩
      rw [if_neg two]
      by_cases doubled : run = 1 ∧ previous = t.text
      · obtain ⟨rfl, rfl⟩ := doubled
        obtain ⟨i, rfl, before, alone⟩ := behind.doubled rfl
        by_cases first : i = 0
        · subst first
          exact .inl ⟨_, .doubledFirst before now, by simp⟩
        by_cases last : rest = []
        · subst last
          exact .inl ⟨_, .doubledLast whole.symm before now first alone, by simp [first]⟩
        refine .inr ⟨fun fault fails => ?_, by simp [first, last]⟩
        obtain ⟨-, more | ⟨-, -, start | finish⟩⟩ := behind.of_faultAt found fails
        · exact two more
        · exact first (Nat.succ.inj start)
        · exact last (List.eq_nil_of_length_eq_zero (by omega))
      · refine .inr ⟨fun fault fails => ?_, by simp [doubled]⟩
        obtain ⟨-, more | ⟨some, same, -⟩⟩ := behind.of_faultAt found fails
        · exact two more
        · exact doubled ⟨by omega, same⟩

theorem check_run (behind : Behind tokens index run previous) (split : tokens.drop index = rest) :
    (checkSignsFrom index run previous rest = .ok () ∧ ∀ i fault, index ≤ i → ¬FaultAt tokens i fault) ∨
      ∃ i fault, checkSignsFrom index run previous rest = .error fault ∧ FaultAt tokens i fault ∧
        ∀ j other, index ≤ j → j < i → ¬FaultAt tokens j other := by
  induction rest generalizing index run previous with
  | nil =>
      refine .inl ⟨rfl, fun i fault le fails => ?_⟩
      have short := List.drop_eq_nil_iff.mp split
      have there := fails.lt_length
      omega
  | cons t rest ih =>
      rcases check_step behind split with ⟨fault, fails, stops⟩ | ⟨none, goesOn⟩
      · exact .inr ⟨index, fault, stops, fails, fun j other le less => by omega⟩
      obtain ⟨found, later⟩ := drop_cons split
      have beyond {j : Nat} {other : TokenError} (le : index ≤ j)
          (more : index + 1 ≤ j → ¬FaultAt tokens j other) : ¬FaultAt tokens j other := by
        rcases Nat.eq_or_lt_of_le le with rfl | less
        · exact none other
        · exact more less
      rw [goesOn]
      rcases ih (behind.step found) later with ⟨passes, clean⟩ | ⟨i, fault, stops, fails, first⟩
      · exact .inl ⟨passes, fun i fault le => beyond le (clean i fault)⟩
      · exact .inr ⟨i, fault, stops, fails, fun j other le less => beyond le fun more => first j other more less⟩

/-- The signs of a line are accepted if and only if no three of them stand in a row and the line neither begins nor
ends with the same sign twice. Otherwise the error is that of the leftmost sign that is at fault. -/
theorem signs_checked (tokens : List Token) :
    (checkSigns tokens = .ok () ↔ SignsInOrder tokens) ∧
      ∀ fault, checkSigns tokens = .error fault ↔
        ∃ i, FaultAt tokens i fault ∧ ∀ j other, j < i → ¬FaultAt tokens j other := by
  have whole : tokens.drop 0 = tokens := rfl
  rw [signsInOrder_iff, checkSigns]
  rcases check_run .start whole with ⟨passes, clean⟩ | ⟨i, fault, stops, fails, first⟩
  · rw [passes]
    refine ⟨⟨fun _ i fault => clean i fault (Nat.zero_le i), fun _ => rfl⟩, fun fault => ⟨nofun, ?_⟩⟩
    rintro ⟨i, fails, -⟩
    exact absurd fails (clean i fault (Nat.zero_le i))
  · rw [stops]
    refine ⟨⟨nofun, fun none => absurd fails (none i fault)⟩, fun other => ⟨?_, ?_⟩⟩
    · rintro ⟨⟩
      exact ⟨i, fails, fun j other less => first j other (Nat.zero_le j) less⟩
    · rintro ⟨j, here, leftmost⟩
      have same : j = i := by
        rcases Nat.lt_trichotomy j i with less | same | more
        · exact absurd here (first j other (Nat.zero_le j) less)
        · exact same
        · exact absurd fails (leftmost i fault more)
      subst same
      rw [here.unique fails]

end Line

end Token

end Calculator
