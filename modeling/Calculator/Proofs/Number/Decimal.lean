import Calculator.Number.Decimal
import Mathlib.Tactic.Ring

/-! A finite number that is written as a decimal is read back. -/

namespace Calculator

namespace Number

theorem divideToEven_mul_left {k : Nat} (positive : 0 < k) (num den : Nat) :
    divideToEven (k * num) (k * den) = divideToEven num den := by
  have twice : 2 * (k * (num % den)) = k * (2 * (num % den)) := Nat.mul_left_comm ..
  unfold divideToEven
  simp only [Nat.mul_div_mul_left num den positive, Nat.mul_mod_mul_left, twice,
    Nat.mul_lt_mul_left positive]

theorem nearestPattern_mul_left {k : Nat} (positive : 0 < k) (num den : Nat) :
    nearestPattern (k * num) (k * den) = nearestPattern num den := by
  have shifted (shift : Nat) : (k * den) <<< shift = k * den <<< shift := by
    rw [Nat.shiftLeft_eq, Nat.shiftLeft_eq, Nat.mul_assoc]
  unfold nearestPattern
  simp only [Nat.mul_div_mul_left num den positive, shifted, divideToEven_mul_left positive]

theorem nearestPattern_zero (den : Nat) : nearestPattern 0 den = 0 := by
  have zero : divideToEven 0 den = 0 := by simp [divideToEven]
  simp [nearestPattern, Nat.log2_zero, zero]

theorem divideToEven_exact {den : Nat} (positive : 0 < den) (quotient : Nat) :
    divideToEven (quotient * den) den = quotient := by
  have half : 2 * 0 < den := by omega
  unfold divideToEven
  simp only [Nat.mul_div_cancel quotient positive, Nat.mul_mod_left]
  exact if_pos half

theorem nearestPattern_exact {m shift : Nat} (fits : Nat.log2 (m * 2 ^ shift) - 52 = shift) :
    nearestPattern (m * 2 ^ shift) 1 = Nat.min (m + shift * binade) infinityPattern := by
  have scaled : (1 : Nat) <<< shift = 2 ^ shift := by rw [Nat.shiftLeft_eq, Nat.one_mul]
  unfold nearestPattern
  simp only [Nat.div_one, fits, scaled, divideToEven_exact (Nat.two_pow_pos shift)]

theorem log2_significant {m : Nat} (low : 2 ^ 52 ≤ m) (high : m < 2 ^ 53) (shift : Nat) :
    Nat.log2 (m * 2 ^ shift) = 52 + shift := by
  have positive : 0 < 2 ^ shift := Nat.two_pow_pos shift
  have nonzero : m * 2 ^ shift ≠ 0 := by
    have : 0 < m := by omega
    exact Nat.ne_of_gt (Nat.mul_pos this positive)
  rw [Nat.log2_eq_iff nonzero]
  constructor
  · rw [Nat.pow_add]
    exact Nat.mul_le_mul_right _ low
  · have next : 2 ^ (52 + shift + 1) = 2 ^ 53 * 2 ^ shift := by ring
    rw [next]
    exact Nat.mul_lt_mul_of_pos_right high positive

theorem nearestPattern_unitsOfPattern {p : Nat} (finite : p < infinityPattern) :
    nearestPattern (unitsOfPattern p) 1 = p := by
  have atMost : Nat.min p infinityPattern = p := Nat.min_eq_left (Nat.le_of_lt finite)
  have binade_eq : binade = 2 ^ 52 := rfl
  unfold unitsOfPattern mantissaOfPattern shiftOfPattern
  rw [Nat.shiftLeft_eq]
  by_cases small : p < binade
  · have shift : p / binade - 1 = 0 := by rw [Nat.div_eq_of_lt small]
    have fits : Nat.log2 (p * 2 ^ 0) - 52 = 0 := by
      rw [Nat.pow_zero, Nat.mul_one]
      by_cases zero : p = 0
      · rw [zero]
        rfl
      · have := (Nat.log2_lt zero).mpr (binade_eq ▸ small)
        omega
    rw [if_pos small, shift, nearestPattern_exact fits, Nat.zero_mul, Nat.add_zero, atMost]
  · have rest := Nat.mod_lt p (show 0 < binade by decide)
    have parts := Nat.div_add_mod p binade
    have above : 1 ≤ p / binade := (Nat.one_le_div_iff (by decide)).mpr (Nat.le_of_not_lt small)
    have fits := log2_significant (m := binade + p % binade) (by omega) (by omega) (p / binade - 1)
    have whole : binade + p % binade + (p / binade - 1) * binade = p := by
      obtain ⟨further, split⟩ := Nat.exists_eq_add_of_le above
      rw [split, Nat.add_sub_cancel_left]
      calc binade + p % binade + further * binade
          = binade * (1 + further) + p % binade := by ring
        _ = p := by rw [← split, parts]
    rw [if_neg small, nearestPattern_exact (by omega), whole, atMost]

theorem onGrid?_reads {pattern digits : Nat} {exponent : Int}
    (found : onGrid? pattern exponent = some digits) : patternOfScaled digits exponent = pattern :=
  by simpa using List.find?_some found

section Search

-- Without this the search would be evaluated while its equation is checked.
attribute [local irreducible] onGrid?

theorem searchGrid?_succ (pattern steps : Nat) (exponent : Int) :
    searchGrid? pattern (steps + 1) exponent =
      match onGrid? pattern exponent with
      | some digits => some (digits, exponent)
      | none => searchGrid? pattern steps (exponent - 1) := rfl

end Search

theorem searchGrid?_reads {pattern digits steps : Nat} {start exponent : Int}
    (found : searchGrid? pattern steps start = some (digits, exponent)) :
    patternOfScaled digits exponent = pattern := by
  induction steps generalizing start with
  | zero => exact nomatch found
  | succ steps ih =>
      rw [searchGrid?_succ] at found
      split at found
      · rename_i here
        cases found
        exact onGrid?_reads here
      · exact ih found

/-- Where one has `2 ^ places` units, a unit has `places` decimal places. -/
theorem exact_reads {places : Nat} (positive : 0 < places) (one : unitsInOne = Nat.pow 2 places)
    (count : Nat) :
    patternOfScaled (count * Nat.pow 5 places) (-(places : Int)) = nearestPattern count 1 := by
  have negative : ¬0 ≤ -(places : Int) := by omega
  have back : (-(-(places : Int))).toNat = places := by omega
  have tens : Nat.pow 10 places = Nat.pow 5 places * Nat.pow 2 places := Nat.mul_pow 5 2 places
  have ten_pos : 0 < Nat.pow 10 places := Nat.pow_pos (by decide)
  rw [patternOfScaled, if_neg negative, back, one, Nat.mul_assoc, ← tens,
    ← nearestPattern_mul_left ten_pos count 1, Nat.mul_one, Nat.mul_comm]

/-- What is written of a finite pattern reads back. -/
theorem shortest_reads {pattern : Nat} (finite : pattern < infinityPattern) :
    patternOfScaled (shortest pattern).1 (shortest pattern).2 = pattern := by
  unfold shortest
  cases found : searchGrid? pattern 20 (exponentAbove pattern) with
  | none =>
      exact (@exact_reads 1074 (Nat.succ_pos 1073) unitsInOne.eq_def _).trans
        (nearestPattern_unitsOfPattern finite)
  | some scaled => exact searchGrid?_reads found

theorem digitChar_isDigit {d : Nat} (below : d < 10) : (digitChar d).isDigit = true := by
  revert d
  decide

theorem digitChar_toNat {d : Nat} (below : d < 10) : (digitChar d).toNat - '0'.toNat = d := by
  revert d
  decide

theorem digitsValue_append_digit (digits : List Char) {d : Nat} (below : d < 10) :
    digitsValue (digits ++ [digitChar d]) = digitsValue digits * 10 + d := by
  rw [digitsValue, List.foldl_append]
  exact congrArg (digitsValue digits * 10 + ·) (digitChar_toNat below)

theorem digitsOf_ne_nil (n : Nat) : digitsOf n ≠ [] := by
  unfold digitsOf
  split
  · exact List.cons_ne_nil _ _
  · simp

theorem digitsOf_isDigit (n : Nat) : ∀ c ∈ digitsOf n, c.isDigit = true := by
  fun_induction digitsOf n with
  | case1 n small => simpa using digitChar_isDigit small
  | case2 n large ih =>
      intro c mem
      rcases List.mem_append.mp mem with front | last
      · exact ih c front
      · rw [List.mem_singleton.mp last]
        exact digitChar_isDigit (Nat.mod_lt n (by decide))

theorem digitsValue_digitsOf (n : Nat) : digitsValue (digitsOf n) = n := by
  fun_induction digitsOf n with
  | case1 n small => simpa [digitsValue] using digitsValue_append_digit [] small
  | case2 n large ih =>
      rw [digitsValue_append_digit _ (Nat.mod_lt n (by decide)), ih]
      omega

theorem lowDigits_isDigit (count n : Nat) : ∀ c ∈ lowDigits count n, c.isDigit = true := by
  induction count generalizing n with
  | zero => exact List.forall_mem_nil _
  | succ count ih =>
      intro c mem
      rcases List.mem_append.mp mem with front | last
      · exact ih _ c front
      · rw [List.mem_singleton.mp last]
        exact digitChar_isDigit (Nat.mod_lt n (by decide))

theorem length_lowDigits (count n : Nat) : (lowDigits count n).length = count := by
  induction count generalizing n with
  | zero => rfl
  | succ count ih => rw [lowDigits, List.length_append, ih]; rfl

theorem digitsValue_lowDigits (digits : List Char) (count n : Nat) :
    digitsValue (digits ++ lowDigits count n) =
      digitsValue digits * 10 ^ count + n % 10 ^ count := by
  induction count generalizing n with
  | zero => simp [lowDigits, Nat.mod_one]
  | succ count ih =>
      have split : n % 10 ^ (count + 1) = n / 10 % 10 ^ count * 10 + n % 10 := by
        rw [Nat.pow_succ', Nat.mod_mul]
        ring
      rw [lowDigits, ← List.append_assoc, digitsValue_append_digit _ (Nat.mod_lt n (by decide)), ih,
        split]
      ring

theorem exists_dropFinalZeros (digits : List Char) :
    ∃ zeros, digits = dropFinalZeros digits ++ List.replicate zeros '0' := by
  have ends : ∀ c ∈ digits.reverse.takeWhile (· == '0'), c = '0' := by
    intro c mem
    exact eq_of_beq (List.all_eq_true.mp List.all_takeWhile c mem)
  have split : digits.reverse.takeWhile (· == '0') ++ digits.reverse.dropWhile (· == '0') =
      digits.reverse := List.takeWhile_append_dropWhile
  rw [List.eq_replicate_iff.mpr ⟨rfl, ends⟩] at split
  refine ⟨(digits.reverse.takeWhile (· == '0')).length, ?_⟩
  rw [dropFinalZeros, ← List.reverse_replicate, ← List.reverse_append, split, List.reverse_reverse]

theorem digitsValue_append_zeros (digits : List Char) (zeros : Nat) :
    digitsValue (digits ++ List.replicate zeros '0') = digitsValue digits * 10 ^ zeros := by
  induction zeros with
  | zero => simp
  | succ zeros ih =>
      have zero : digitChar 0 = '0' := by decide
      rw [List.replicate_succ', ← List.append_assoc, ← zero, digitsValue_append_digit _ (by decide),
        zero, ih]
      ring

def pointed (whole fraction : List Char) : List Char :=
  whole ++ if fraction.isEmpty then [] else '.' :: fraction

theorem toLower_digit {c : Char} (digit : c.isDigit = true) : c.toLower = c := by
  simp only [Char.isDigit, Bool.and_eq_true, decide_eq_true_eq] at digit
  unfold Char.toLower
  split
  · rename_i upper
    exact absurd (UInt32.le_trans upper.1 digit.2) (by decide)
  · rfl

theorem takeWhile_run {p : Char → Bool} {run rest : List Char} (all : ∀ c ∈ run, p c = true)
    (none : ∀ c ∈ rest.head?, p c = false) :
    (run ++ rest).takeWhile p = run ∧ (run ++ rest).dropWhile p = rest := by
  rw [List.takeWhile_append_of_pos all, List.dropWhile_append_of_pos all]
  cases rest with
  | nil => simp
  | cons c rest => simp [none c rfl]

section Pointed

variable {whole fraction : List Char} (wholeDigits : ∀ c ∈ whole, c.isDigit = true)
  (fractionDigits : ∀ c ∈ fraction, c.isDigit = true) (nonempty : whole ≠ [])
include wholeDigits fractionDigits nonempty

theorem readMantissa?_pointed (negative : Bool) :
    readMantissa? negative (pointed whole fraction) =
      some (ofDecimal negative (whole ++ fraction) (-(fraction.length : Int))) := by
  have ended : ∀ c ∈ ([] : List Char).head?, c.isDigit = false := nofun
  cases fraction with
  | nil =>
      obtain ⟨taken, dropped⟩ := takeWhile_run wholeDigits ended
      have text : pointed whole [] = whole := List.append_nil whole
      rw [List.append_nil] at taken dropped
      simp [readMantissa?, text, taken, dropped, nonempty, readExponent?]
  | cons c fraction =>
      have point : ∀ d ∈ ('.' :: c :: fraction).head?, d.isDigit = false := by simp
      obtain ⟨taken, dropped⟩ := takeWhile_run wholeDigits point
      obtain ⟨taken', dropped'⟩ := takeWhile_run fractionDigits ended
      rw [List.append_nil] at taken' dropped'
      have text : pointed whole (c :: fraction) = whole ++ '.' :: c :: fraction := rfl
      simp [readMantissa?, text, taken, dropped, taken', dropped', readExponent?]

theorem ofText?_pointed :
    ofText? (pointed whole fraction) =
      some (ofDecimal false (whole ++ fraction) (-(fraction.length : Int))) := by
  obtain ⟨first, rest, rfl⟩ := List.exists_cons_of_ne_nil nonempty
  have digit := wholeDigits first (.head _)
  have text : pointed (first :: rest) fraction = first :: pointed rest fraction := rfl
  have unsigned : splitSign (first :: pointed rest fraction) = (false, first :: pointed rest fraction) := by
    unfold splitSign
    split
    · rename_i split
      cases split
      cases digit
    · rename_i split
      cases split
      cases digit
    · rfl
  have noWord (c : Char) (letters : List Char) (letter : c.isDigit = false) :
      String.ofList ((first :: pointed rest fraction).map Char.toLower) ≠
        String.ofList (c :: letters) := by
    intro same
    have heads := (List.cons.inj (String.ofList_injective same)).1
    rw [toLower_digit digit] at heads
    rw [heads, letter] at digit
    cases digit
  have mantissa := readMantissa?_pointed wholeDigits fractionDigits nonempty false
  rw [text] at mantissa ⊢
  have inf := noWord 'i' ['n', 'f'] rfl
  have infinity := noWord 'i' ['n', 'f', 'i', 'n', 'i', 't', 'y'] rfl
  have nan := noWord 'n' ['a', 'n'] rfl
  simp only [ofText?, unsigned, Bool.or_eq_true, decide_eq_true_eq]
  rw [if_neg (fun either => either.elim inf infinity), if_neg nan, mantissa]

end Pointed

attribute [local irreducible] unitsInOne nearestPattern shortest

theorem patternOfScaled_zero (exponent : Int) : patternOfScaled 0 exponent = 0 := by
  unfold patternOfScaled
  simp [nearestPattern_zero]

theorem patternOfDecimal_eq {digits : List Char} {exponent : Int}
    (low : -400 ≤ exponent + digits.length) (high : exponent ≤ 400) :
    patternOfDecimal digits exponent = patternOfScaled (digitsValue digits) exponent := by
  unfold patternOfDecimal
  split
  · rename_i zero
    rw [zero, patternOfScaled_zero]
  · rw [if_neg (by omega), if_neg (by omega)]

theorem patternOfScaled_places (digits places : Nat) :
    patternOfScaled digits (-(places : Int)) = nearestPattern (digits * unitsInOne) (10 ^ places) := by
  cases places with
  | zero =>
      rw [patternOfScaled, if_pos (by decide)]
      change nearestPattern (digits * 10 ^ 0 * unitsInOne) 1 = _
      rw [Nat.pow_zero, Nat.mul_one]
  | succ places =>
      have negative : ¬0 ≤ -((places + 1 : Nat) : Int) := by omega
      have back : (-(-((places + 1 : Nat) : Int))).toNat = places + 1 := by omega
      rw [patternOfScaled, if_neg negative, back]
      rfl

theorem patternOfScaled_zeros (digits zeros places : Nat) :
    patternOfScaled (digits * 10 ^ zeros) (-((places + zeros : Nat) : Int)) =
      patternOfScaled digits (-(places : Int)) := by
  have widened : digits * 10 ^ zeros * unitsInOne = 10 ^ zeros * (digits * unitsInOne) := by ring
  rw [patternOfScaled_places, patternOfScaled_places, widened, Nat.add_comm, Nat.pow_add]
  exact nearestPattern_mul_left (Nat.pow_pos (by decide)) _ _

theorem positional_eq (digits : Nat) (exponent : Int) :
    ∃ whole fraction, positional digits exponent = pointed whole fraction ∧ whole ≠ [] ∧
      (∀ c ∈ whole, c.isDigit = true) ∧ (∀ c ∈ fraction, c.isDigit = true) ∧
      patternOfScaled (digitsValue (whole ++ fraction)) (-(fraction.length : Int)) =
        patternOfScaled digits exponent := by
  by_cases sign : 0 ≤ exponent
  · refine ⟨digitsOf (digits * 10 ^ exponent.toNat), [], ?_, digitsOf_ne_nil _, digitsOf_isDigit _,
      List.forall_mem_nil _, ?_⟩
    · rw [positional, if_pos sign]
      exact (List.append_nil _).symm
    · rw [List.append_nil, digitsValue_digitsOf, List.length_nil, patternOfScaled_places,
        patternOfScaled, if_pos sign]
      rfl
  · obtain ⟨places, rfl⟩ : ∃ places : Nat, exponent = -(places : Int) := ⟨(-exponent).toNat, by omega⟩
    have back : (-(-(places : Int))).toNat = places := by omega
    obtain ⟨zeros, split⟩ := exists_dropFinalZeros (lowDigits places (digits % 10 ^ places))
    have total : (dropFinalZeros (lowDigits places (digits % 10 ^ places))).length + zeros = places := by
      have lengths := congrArg List.length split
      rw [length_lowDigits, List.length_append, List.length_replicate] at lengths
      exact lengths.symm
    have value : digitsValue (digitsOf (digits / 10 ^ places) ++
        dropFinalZeros (lowDigits places (digits % 10 ^ places))) * 10 ^ zeros = digits := by
      rw [← digitsValue_append_zeros, List.append_assoc, ← split, digitsValue_lowDigits,
        digitsValue_digitsOf, Nat.mod_mod, Nat.mul_comm, Nat.div_add_mod]
    refine ⟨digitsOf (digits / 10 ^ places), dropFinalZeros (lowDigits places (digits % 10 ^ places)),
      ?_, digitsOf_ne_nil _, digitsOf_isDigit _, ?_, ?_⟩
    · simp only [positional, if_neg sign, back]
      rfl
    · intro c mem
      exact lowDigits_isDigit _ _ c (by rw [split]; exact List.mem_append_left _ mem)
    · rw [← patternOfScaled_zeros _ zeros, value, total]

/-- A finite number without a sign is written as digits, perhaps with a point among them, that read
back. -/
theorem toText_eq {x : Number} (finite : x.pattern < infinityPattern) (unsigned : x.negative = false) :
    ∃ whole fraction, x.toText = pointed whole fraction ∧ whole ≠ [] ∧
      (∀ c ∈ whole, c.isDigit = true) ∧ (∀ c ∈ fraction, c.isDigit = true) ∧
      ofText? x.toText = some x := by
  obtain ⟨negative, pattern, bound⟩ := x
  obtain rfl : negative = false := unsigned
  have text : toText ⟨false, pattern, bound⟩ = textOfPattern pattern := by
    have number : isNaN ⟨false, pattern, bound⟩ = false := by
      simpa [isNaN] using Nat.le_of_lt finite
    rw [toText, number]
    rfl
  have written : ∃ whole fraction, textOfPattern pattern = pointed whole fraction ∧ whole ≠ [] ∧
      (∀ c ∈ whole, c.isDigit = true) ∧ (∀ c ∈ fraction, c.isDigit = true) ∧
      patternOfScaled (digitsValue (whole ++ fraction)) (-(fraction.length : Int)) = pattern := by
    rw [textOfPattern, if_neg (Nat.ne_of_lt finite)]
    split
    · rename_i zero
      refine ⟨['0'], [], rfl, nofun, by simp, nofun, ?_⟩
      exact (patternOfScaled_zero 0).trans zero.symm
    · obtain ⟨whole, fraction, same, nonempty, wholeDigits, fractionDigits, value⟩ :=
        positional_eq (shortest pattern).1 (shortest pattern).2
      exact ⟨whole, fraction, same, nonempty, wholeDigits, fractionDigits,
        value.trans (shortest_reads finite)⟩
  obtain ⟨whole, fraction, same, nonempty, wholeDigits, fractionDigits, value⟩ := written
  refine ⟨whole, fraction, text.trans same, nonempty, wholeDigits, fractionDigits, ?_⟩
  rw [text, same, ofText?_pointed wholeDigits fractionDigits nonempty]
  have read : patternOfDecimal (whole ++ fraction) (-(fraction.length : Int)) = pattern := by
    rw [patternOfDecimal_eq (by rw [List.length_append]; omega) (by omega), value]
  simp only [ofDecimal, read]

end Number

end Calculator
