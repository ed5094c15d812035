import Calculator.Number.Roman
import Calculator.Proofs.Number.Decimal

/-! Which results can be minus zero. -/

namespace Calculator

namespace Number

def NotMinusZero (x : Number) : Prop := x.negative = true → x.pattern ≠ 0

theorem NotMinusZero.of_unsigned {x : Number} (unsigned : x.negative = false) : x.NotMinusZero := by
  intro negative
  rw [unsigned] at negative
  cases negative

theorem NotMinusZero.unsigned {x : Number} (notMinus : x.NotMinusZero) (notNaN : x.isNaN = false)
    (notBelow : x.less .zero = false) : x.negative = false := by
  cases sign : x.negative with
  | false => rfl
  | true =>
      have below : x.position < zero.position := by
        have nonzero := notMinus sign
        rw [position, if_pos sign]
        change -(x.pattern : Int) < 0
        omega
      simp [less, notNaN, below, show zero.isNaN = false by decide] at notBelow

theorem le_divideToEven (num den : Nat) : num / den ≤ divideToEven num den := by
  unfold divideToEven
  simp only
  split
  · exact Nat.le_refl _
  split
  · exact Nat.le_succ _
  · exact Nat.le_add_right _ _

theorem unitsInOne_pos : 0 < unitsInOne := by decide +kernel

theorem nearestPattern_ne_zero {num den : Nat} (positive : 0 < den) (le : den ≤ num) :
    nearestPattern num den ≠ 0 := by
  have quotient : num / den ≠ 0 := Nat.ne_of_gt (Nat.div_pos le positive)
  have kept : 0 < num / (den <<< ((num / den).log2 - 52)) := by
    rw [Nat.shiftLeft_eq, ← Nat.div_div_eq_div_mul]
    refine Nat.div_pos ?_ (Nat.two_pow_pos _)
    calc 2 ^ ((num / den).log2 - 52)
        ≤ 2 ^ (num / den).log2 := Nat.pow_le_pow_right (by decide) (Nat.sub_le _ _)
      _ ≤ num / den := Nat.log2_self_le quotient
  have infinite : 0 < infinityPattern := by decide
  have rounded := Nat.lt_of_lt_of_le kept (le_divideToEven num _)
  exact Nat.ne_of_gt (Nat.lt_min.mpr ⟨Nat.add_pos_left rounded _, infinite⟩)

theorem unitsOfPattern_pos {p : Nat} (nonzero : p ≠ 0) : 0 < unitsOfPattern p := by
  have mantissa : 0 < mantissaOfPattern p := by
    have one : 0 < binade := by decide
    unfold mantissaOfPattern
    split
    · exact Nat.pos_of_ne_zero nonzero
    · exact Nat.add_pos_left one _
  rw [unitsOfPattern, Nat.shiftLeft_eq]
  exact Nat.mul_pos mantissa (Nat.two_pow_pos _)

theorem ofNat_ne_zero {n : Nat} (positive : 0 < n) : (ofNat n).pattern ≠ 0 :=
  nearestPattern_ne_zero Nat.one_pos
    (Nat.mul_pos positive unitsInOne_pos)

theorem ofInt_notMinusZero (i : Int) : (ofInt i).NotMinusZero := by
  intro negative
  have below : i < 0 := of_decide_eq_true negative
  exact nearestPattern_ne_zero Nat.one_pos
    (Nat.mul_pos (Int.natAbs_pos.mpr (Int.ne_of_lt below)) unitsInOne_pos)

theorem units_neg {x : Number} (notMinus : x.NotMinusZero) (negative : x.negative = true) :
    x.units < 0 := by
  have positive := unitsOfPattern_pos (notMinus negative)
  rw [units, if_pos negative]
  omega

theorem add_notMinusZero {x y : Number} (hx : x.NotMinusZero) (hy : y.NotMinusZero) :
    (x.add y).NotMinusZero := by
  unfold add
  split
  · exact hx
  split
  · exact hy
  split
  · split
    · exact fun _ => by decide
    · exact hx
  split
  · exact hy
  by_cases zeroSum : x.units + y.units = 0
  · have notBoth : (x.negative && y.negative) = false := by
      rw [Bool.eq_false_iff]
      intro both
      obtain ⟨negX, negY⟩ := Bool.and_eq_true_iff.mp both
      have below := units_neg hx negX
      have below' := units_neg hy negY
      omega
    simp only [zeroSum, notBoth, if_true, Bool.false_eq_true, if_false]
    exact .of_unsigned rfl
  · simp only [if_neg zeroSum]
    exact fun _ => nearestPattern_ne_zero Nat.one_pos (Int.natAbs_pos.mpr zeroSum)

theorem sub_notMinusZero {x y : Number} (hx : x.NotMinusZero) (hy : y.pattern ≠ 0) :
    (x.sub y).NotMinusZero := by
  unfold sub
  split
  · exact hx
  split
  · exact fun _ => hy
  · exact add_notMinusZero hx fun _ => hy

theorem mul_ofNat_ne_zero {x y : Number} (hx : x.pattern ≠ 0) (hy : unitsInOne ≤ y.unitsAbs) :
    (x.mul y).pattern ≠ 0 := by
  have one := unitsInOne_pos
  have nonzero : y.pattern ≠ 0 := by
    intro zero
    rw [unitsAbs, zero] at hy
    exact absurd (Nat.lt_of_lt_of_le one hy) (by decide)
  unfold mul
  split
  · exact hx
  split
  · exact nonzero
  simp only
  split
  · have notZero : (x.isZero || y.isZero) = false := by simp [isZero, hx, nonzero]
    rw [notZero]
    change infinityPattern ≠ 0
    decide
  · refine nearestPattern_ne_zero one ?_
    calc unitsInOne = 1 * unitsInOne := (Nat.one_mul _).symm
      _ ≤ x.unitsAbs * y.unitsAbs := Nat.mul_le_mul (unitsOfPattern_pos hx) hy

end Number

namespace Roman

open Number

theorem letter?_pos {c : Char} {n : Nat} (letter : letter? c = some n) : 0 < n := by
  unfold letter? at letter
  split at letter <;> cases letter <;> decide

theorem thousand_units : unitsInOne ≤ (Number.ofNat 1000).unitsAbs := by decide +kernel

theorem lettersAfter?_ne_zero {held : Number} {numeral : List Char} {letters : List Number}
    (nonzero : held.pattern ≠ 0) (read : lettersAfter? held numeral = some letters) :
    ∀ letter ∈ letters, letter.pattern ≠ 0 := by
  fun_induction lettersAfter? held numeral generalizing letters with
  | case1 held =>
      cases read
      simpa using nonzero
  | case2 held rest ih => exact ih (mul_ofNat_ne_zero nonzero thousand_units) read
  | case3 held c rest plain ih =>
      obtain ⟨next, letter, read⟩ := Option.bind_eq_some_iff.mp read
      obtain ⟨more, readMore, same⟩ := Option.bind_eq_some_iff.mp read
      cases same
      exact List.forall_mem_cons.mpr ⟨nonzero, ih next (ofNat_ne_zero (letter?_pos letter)) readMore⟩

theorem letters?_ne_zero {numeral : List Char} {letters : List Number}
    (read : letters? numeral = some letters) : ∀ letter ∈ letters, letter.pattern ≠ 0 := by
  cases numeral with
  | nil =>
      cases read
      exact List.forall_mem_nil _
  | cons c rest =>
      obtain ⟨first, letter, read⟩ := Option.bind_eq_some_iff.mp read
      exact lettersAfter?_ne_zero (ofNat_ne_zero (letter?_pos letter)) read

theorem addLetters_notMinusZero {sum : Number} {letters : List Number} (hsum : sum.NotMinusZero)
    (nonzero : ∀ letter ∈ letters, letter.pattern ≠ 0) : (addLetters sum letters).NotMinusZero := by
  fun_induction addLetters sum letters with
  | case1 sum => exact hsum
  | case2 sum last => exact add_notMinusZero hsum fun _ => nonzero last (.head _)
  | case3 sum first second rest ih =>
      obtain ⟨hfirst, others⟩ := List.forall_mem_cons.mp nonzero
      refine ih ?_ others
      split
      · exact sub_notMinusZero hsum hfirst
      · exact add_notMinusZero hsum fun _ => hfirst

theorem value?_notMinusZero {numeral : String} {value : Number}
    (read : value? numeral = some value) : value.NotMinusZero := by
  obtain ⟨letters, readLetters, rfl⟩ := Option.map_eq_some_iff.mp read
  exact addLetters_notMinusZero (.of_unsigned rfl) (letters?_ne_zero readLetters)

end Roman

namespace Number

theorem readMantissa?_negative {negative : Bool} {text : List Char} {value : Number}
    (read : readMantissa? negative text = some value) : value.negative = negative := by
  unfold readMantissa? at read
  grind [Option.map_eq_some_iff, ofDecimal]

theorem ofText?_unsigned {text : List Char} {value : Number} (noMinus : text.head? ≠ some '-')
    (read : ofText? text = some value) : value.negative = false := by
  have sign : (splitSign text).1 = false := by
    unfold splitSign
    split
    · exact absurd rfl noMinus
    · rfl
    · rfl
  simp only [ofText?, sign] at read
  split at read
  · cases read
    rfl
  split at read
  · cases read
    rfl
  · exact readMantissa?_negative read

end Number

end Calculator
