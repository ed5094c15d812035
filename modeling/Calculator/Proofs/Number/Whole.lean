import Calculator.Number.Arithmetic
import Calculator.Proofs.Number.Sign
import Mathlib.Order.Monotone.Basic

/-! Whole numbers. Those below `2 ^ 53` in magnitude are exact, and so are their sums and their order. -/

namespace Calculator

namespace Number

attribute [local irreducible] unitsInOne nearestPattern

theorem binade_pos : 0 < binade := by decide

theorem unitsOfPattern_least {p : Nat} (below : p < binade) : unitsOfPattern p = p := by
  rw [unitsOfPattern, mantissaOfPattern, if_pos below, shiftOfPattern, Nat.div_eq_of_lt below]
  rfl

theorem unitsOfPattern_binade {r : Nat} (below : r < binade) (shift : Nat) :
    unitsOfPattern ((shift + 1) * binade + r) = (binade + r) * 2 ^ shift := by
  have above : ¬(shift + 1) * binade + r < binade := by
    have := Nat.le_mul_of_pos_left binade (show 0 < shift + 1 by omega)
    omega
  have quotient : ((shift + 1) * binade + r) / binade = shift + 1 := by
    rw [Nat.mul_comm, Nat.mul_add_div binade_pos, Nat.div_eq_of_lt below, Nat.add_zero]
  have rest : ((shift + 1) * binade + r) % binade = r := by
    rw [Nat.mul_comm, Nat.mul_add_mod, Nat.mod_eq_of_lt below]
  rw [unitsOfPattern, mantissaOfPattern, if_neg above, shiftOfPattern, quotient, rest,
    Nat.shiftLeft_eq, Nat.add_sub_cancel]

theorem unitsOfPattern_strictMono : StrictMono unitsOfPattern := by
  refine strictMono_nat_of_lt_succ fun p => ?_
  have below := Nat.mod_lt p binade_pos
  obtain ⟨e, r, rfl, small⟩ : ∃ e r, p = e * binade + r ∧ r < binade :=
    ⟨p / binade, p % binade, (Nat.div_add_mod' p binade).symm, below⟩
  by_cases last : r + 1 < binade
  · cases e with
    | zero =>
        rw [Nat.zero_mul, Nat.zero_add, unitsOfPattern_least small, unitsOfPattern_least last]
        exact Nat.lt_succ_self r
    | succ shift =>
        rw [Nat.add_assoc, unitsOfPattern_binade small, unitsOfPattern_binade last]
        exact Nat.mul_lt_mul_of_pos_right (by omega) (Nat.two_pow_pos shift)
  · -- The next pattern begins a binade.
    obtain rfl : r = binade - 1 := by omega
    have next : e * binade + (binade - 1) + 1 = (e + 1) * binade + 0 := by
      have := binade_pos
      rw [Nat.add_mul]
      omega
    rw [next, unitsOfPattern_binade binade_pos]
    cases e with
    | zero =>
        rw [Nat.zero_mul, Nat.zero_add, unitsOfPattern_least small]
        omega
    | succ shift =>
        rw [unitsOfPattern_binade small, Nat.pow_succ', ← Nat.mul_assoc]
        exact Nat.mul_lt_mul_of_pos_right (by omega) (Nat.two_pow_pos shift)

theorem position_lt_iff (x y : Number) : x.position < y.position ↔ x.units < y.units := by
  have order (p q : Nat) : unitsOfPattern p < unitsOfPattern q ↔ p < q := unitsOfPattern_strictMono.lt_iff_lt
  have zero : unitsOfPattern 0 = 0 := rfl
  have xy := order x.pattern y.pattern
  have yx := order y.pattern x.pattern
  have hx := order 0 x.pattern
  have hy := order 0 y.pattern
  unfold position units
  split
  · split <;> omega
  · split <;> omega

theorem exists_pattern_whole {n : Nat} (small : n < 2 ^ 53) :
    ∃ p < infinityPattern, unitsOfPattern p = n * unitsInOne := by
  by_cases zero : n = 0
  · exact ⟨0, by decide, by rw [zero, Nat.zero_mul]; rfl⟩
  have bits : n.log2 < 53 := (Nat.log2_lt zero).mpr small
  have low := Nat.log2_self_le zero
  have high := Nat.lt_log2_self (n := n)
  -- The leading bit is moved to the place that a mantissa has it in.
  have moved : 2 ^ 52 ≤ n * 2 ^ (52 - n.log2) ∧ n * 2 ^ (52 - n.log2) < 2 ^ 53 := by
    have split : 2 ^ 52 = 2 ^ n.log2 * 2 ^ (52 - n.log2) := by rw [← Nat.pow_add]; congr 1; omega
    have positive := Nat.two_pow_pos (52 - n.log2)
    constructor
    · rw [split]
      exact Nat.mul_le_mul_right _ low
    · rw [Nat.pow_succ' (n := 52), split, ← Nat.mul_assoc, ← Nat.pow_succ']
      exact Nat.mul_lt_mul_of_pos_right high positive
  obtain ⟨places, power, total⟩ : ∃ places, unitsInOne = Nat.pow 2 places ∧ places = 1074 :=
    ⟨1074, unitsInOne.eq_def, rfl⟩
  change unitsInOne = 2 ^ places at power
  have one : unitsInOne = 2 ^ (52 - n.log2) * 2 ^ (1022 + n.log2) := by
    rw [power, ← Nat.pow_add, show places = 52 - n.log2 + (1022 + n.log2) by omega]
  refine ⟨(1022 + n.log2 + 1) * binade + (n * 2 ^ (52 - n.log2) - binade), ?_, ?_⟩
  · have bound : (1022 + n.log2 + 1) * binade ≤ 1075 * binade := Nat.mul_le_mul_right _ (by omega)
    have top : 1076 * binade < infinityPattern := by decide
    have size : binade = 2 ^ 52 := rfl
    omega
  · have size : binade = 2 ^ 52 := rfl
    rw [unitsOfPattern_binade (by omega), Nat.add_sub_cancel' (by omega), one, Nat.mul_assoc]

theorem unitsInOne_cast_pos : (0 : Int) < unitsInOne := Int.natCast_pos.mpr unitsInOne_pos

/-- The number is a whole one. Both zeros are zero. -/
structure IsInt (x : Number) (i : Int) : Prop where
  finite : x.pattern < infinityPattern
  units_eq : x.units = i * unitsInOne

namespace IsInt

variable {x y : Number} {i j : Int}

theorem magnitude (whole : x.IsInt i) : unitsOfPattern x.pattern = i.natAbs * unitsInOne := by
  have same := congrArg Int.natAbs whole.units_eq
  rw [Int.natAbs_mul, Int.natAbs_natCast] at same
  rw [← same, units]
  split <;> omega

theorem not_nan (whole : x.IsInt i) : x.isNaN = false :=
  decide_eq_false (Nat.lt_asymm whole.finite)

theorem not_infinite (whole : x.IsInt i) : x.isInfinite = false :=
  beq_false_of_ne (Nat.ne_of_lt whole.finite)

theorem nonneg_of_unsigned (whole : x.IsInt i) (unsigned : x.negative = false) : 0 ≤ i := by
  have same := whole.units_eq
  rw [units, if_neg (by simp [unsigned])] at same
  refine Int.le_of_mul_le_mul_right ?_ unitsInOne_cast_pos
  omega

theorem nonpos_of_negative (whole : x.IsInt i) (negative : x.negative = true) : i ≤ 0 := by
  have same := whole.units_eq
  rw [units, if_pos negative] at same
  refine Int.le_of_mul_le_mul_right ?_ unitsInOne_cast_pos
  omega

theorem pattern_eq (whole : x.IsInt i) (other : y.IsInt j) (same : i.natAbs = j.natAbs) :
    x.pattern = y.pattern :=
  unitsOfPattern_strictMono.injective (by rw [whole.magnitude, other.magnitude, same])

theorem isZero_iff (whole : x.IsInt i) : x.isZero = true ↔ i = 0 := by
  have one := unitsInOne_pos
  rw [isZero, beq_iff_eq]
  constructor
  · intro zero
    have magnitude := whole.magnitude
    rw [zero] at magnitude
    have none : i.natAbs * unitsInOne = 0 := magnitude.symm
    rw [Nat.mul_eq_zero] at none
    omega
  · rintro rfl
    refine unitsOfPattern_strictMono.injective ?_
    rw [whole.magnitude, Int.natAbs_zero, Nat.zero_mul]
    rfl

theorem eq (whole : x.IsInt i) (other : y.IsInt i) (nonzero : i ≠ 0) : x = y := by
  have pattern := whole.pattern_eq other rfl
  have negative : x.negative = y.negative := by
    cases hx : x.negative with
    | false =>
        have := whole.nonneg_of_unsigned hx
        cases hy : y.negative with
        | false => rfl
        | true =>
            have := other.nonpos_of_negative hy
            omega
    | true =>
        have := whole.nonpos_of_negative hx
        cases hy : y.negative with
        | true => rfl
        | false =>
            have := other.nonneg_of_unsigned hy
            omega
  obtain ⟨_, _, _⟩ := x
  obtain ⟨_, _, _⟩ := y
  cases pattern
  cases negative
  rfl

theorem key_eq (whole : x.IsInt i) (other : y.IsInt i) : x.key = y.key := by
  by_cases zero : i = 0
  · rw [key, key, if_pos (whole.isZero_iff.mpr zero), if_pos (other.isZero_iff.mpr zero)]
  · rw [whole.eq other zero]

end IsInt

/-- The integers below `2 ^ 53` in magnitude. -/
def Exact (i : Int) : Prop := -2 ^ 53 < i ∧ i < 2 ^ 53

instance (i : Int) : Decidable (Exact i) := inferInstanceAs (Decidable (-2 ^ 53 < i ∧ i < 2 ^ 53))

theorem Exact.natAbs_lt {i : Int} (exact : Exact i) : i.natAbs < 2 ^ 53 := by
  unfold Exact at exact
  omega

theorem isInt_zero : zero.IsInt 0 := ⟨by decide, (Int.zero_mul _).symm⟩

theorem isInt_negativeZero : negativeZero.IsInt 0 := ⟨by decide, (Int.zero_mul _).symm⟩

theorem isInt_ofUnitRatio {n : Nat} (small : n < 2 ^ 53) (negative : Bool) :
    (ofUnitRatio negative (n * unitsInOne) 1).IsInt (if negative then -(n : Int) else n) := by
  obtain ⟨p, finite, magnitude⟩ := exists_pattern_whole small
  have pattern : nearestPattern (n * unitsInOne) 1 = p := by
    rw [← magnitude, nearestPattern_unitsOfPattern finite]
  refine ⟨?_, ?_⟩
  · change nearestPattern (n * unitsInOne) 1 < infinityPattern
    rwa [pattern]
  · have units : unitsOfPattern (nearestPattern (n * unitsInOne) 1) = n * unitsInOne := by
      rw [pattern, magnitude]
    rw [Number.units, ofUnitRatio]
    simp only [units]
    split <;> simp

theorem isInt_ofInt {i : Int} (exact : Exact i) : (ofInt i).IsInt i := by
  have whole := isInt_ofUnitRatio exact.natAbs_lt (i < 0)
  have value : (if decide (i < 0) = true then -(i.natAbs : Int) else i.natAbs) = i := by
    simp only [decide_eq_true_eq]
    split <;> omega
  rwa [value] at whole

theorem isInt_ofNat {n : Nat} (small : n < 2 ^ 53) : (ofNat n).IsInt n :=
  isInt_ofUnitRatio small false

theorem ofNat_one : ofNat 1 = one := by decide +kernel

theorem isInt_one : one.IsInt 1 := ofNat_one ▸ isInt_ofNat (by decide)

theorem ofUnits_whole {i : Int} : ofUnits (i * unitsInOne) = ofInt i := by
  have sign : i * unitsInOne < 0 ↔ i < 0 := by
    constructor
    · intro below
      exact Int.lt_of_mul_lt_mul_right (by rwa [Int.zero_mul]) (Int.le_of_lt unitsInOne_cast_pos)
    · exact fun below => Int.mul_neg_of_neg_of_pos below unitsInOne_cast_pos
  rw [ofUnits, ofInt, Int.natAbs_mul, Int.natAbs_natCast]
  simp only [sign]

namespace IsInt

variable {x y : Number} {i j : Int}

theorem add (whole : x.IsInt i) (other : y.IsInt j) (exact : Exact (i + j)) :
    (x.add y).IsInt (i + j) := by
  have sum : x.units + y.units = (i + j) * unitsInOne := by
    rw [whole.units_eq, other.units_eq, Int.add_mul]
  simp only [Number.add, whole.not_nan, other.not_nan, whole.not_infinite, other.not_infinite,
    Bool.false_eq_true, if_false, sum]
  split
  · rename_i zero
    obtain zero : i + j = 0 := (Int.mul_eq_zero.mp zero).resolve_right unitsInOne_cast_pos.ne'
    rw [zero]
    split
    · exact isInt_negativeZero
    · exact isInt_zero
  · rw [ofUnits_whole]
    exact isInt_ofInt exact

theorem eq_ofInt (whole : x.IsInt i) (exact : Exact i) (nonzero : i ≠ 0) : x = ofInt i :=
  whole.eq (isInt_ofInt exact) nonzero

theorem key_ofInt (whole : x.IsInt i) (exact : Exact i) : x.key = (ofInt i).key :=
  whole.key_eq (isInt_ofInt exact)

theorem less_iff (whole : x.IsInt i) (other : y.IsInt j) : x.less y = true ↔ i < j := by
  have order : x.units < y.units ↔ i < j := by
    rw [whole.units_eq, other.units_eq]
    exact Int.mul_lt_mul_right unitsInOne_cast_pos
  simp only [Number.less, whole.not_nan, other.not_nan, Bool.not_false, Bool.true_and, decide_eq_true_eq,
    position_lt_iff, order]

theorem wholePart (whole : x.IsInt i) : x.wholePart = i.natAbs := by
  rw [Number.wholePart, unitsAbs, whole.magnitude, Nat.mul_div_cancel _ unitsInOne_pos]

theorem toCount (whole : x.IsInt i) (small : i ≤ largestCount) : x.toCount = i.toNat := by
  simp only [Number.toCount, whole.not_nan, whole.not_infinite, whole.wholePart, Bool.false_or,
    Bool.false_eq_true, if_false]
  split
  · rename_i negative
    have := whole.nonpos_of_negative negative
    omega
  · rename_i unsigned
    have := whole.nonneg_of_unsigned (Bool.eq_false_iff.mpr unsigned)
    have atMost : Nat.min i.natAbs largestCount = i.natAbs := Nat.min_eq_left (by omega)
    omega

theorem truncate (whole : x.IsInt i) :
    x.truncate = Max.max (Min.min i largestInteger) leastInteger := by
  have least : leastInteger ≤ 0 := by decide
  have largest : (0 : Int) ≤ largestInteger := by decide
  simp only [Number.truncate, whole.not_nan, whole.not_infinite, whole.wholePart, Bool.false_eq_true,
    if_false]
  split
  · rename_i negative
    have := whole.nonpos_of_negative negative
    omega
  · rename_i unsigned
    have := whole.nonneg_of_unsigned (Bool.eq_false_iff.mpr unsigned)
    omega

end IsInt

theorem toCount_ofNat {n : Nat} (small : n < 2 ^ 53) : (ofNat n).toCount = n := by
  have largest : 2 ^ 53 ≤ largestCount := by decide
  rw [(isInt_ofNat small).toCount (by omega), Int.toNat_natCast]

end Number

end Calculator
