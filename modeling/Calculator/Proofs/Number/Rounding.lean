import Calculator.Proofs.Number.Key

/-!
Rounding is monotone.

So what lies on one side of a number is not rounded past it, and a sum lies on the same side of every
number as the exact sum, or on the number itself.
-/

namespace Calculator

namespace Number

theorem divideToEven_le (num den : Nat) : divideToEven num den ≤ num / den + 1 := by
  unfold divideToEven
  dsimp only
  split
  · exact Nat.le_succ _
  split
  · exact Nat.le_refl _
  · have := Nat.mod_lt (num / den) Nat.two_pos
    omega

theorem divideToEven_mono (den : Nat) : Monotone (divideToEven · den) := by
  intro num num' le
  dsimp only
  rcases Nat.lt_or_eq_of_le (Nat.div_le_div_right (c := den) le) with less | same
  · calc divideToEven num den ≤ num / den + 1 := divideToEven_le num den
      _ ≤ num' / den := less
      _ ≤ divideToEven num' den := le_divideToEven num' den
  · -- Of equal quotients the remainders decide.
    have rest := Nat.div_add_mod num den
    have rest' := Nat.div_add_mod num' den
    rw [same] at rest
    have remainders : num % den ≤ num' % den := by omega
    unfold divideToEven
    simp only [same]
    split
    · split
      · exact Nat.le_refl _
      split
      · exact Nat.le_succ _
      · exact Nat.le_add_right _ _
    · rw [if_neg (show ¬2 * (num' % den) < den by omega)]
      split
      · rw [if_pos (show den < 2 * (num' % den) by omega)]
      · have := Nat.mod_lt (num' / den) Nat.two_pos
        split <;> omega

theorem nearestPattern_one (num : Nat) : nearestPattern num 1 =
    Nat.min (divideToEven num (2 ^ (num.log2 - 52)) + (num.log2 - 52) * binade) infinityPattern := by
  unfold nearestPattern
  simp only [Nat.div_one, Nat.one_shiftLeft]

theorem div_lt_two_binades (num : Nat) : num / 2 ^ (num.log2 - 52) < 2 * binade := by
  have size : binade = 2 ^ 52 := rfl
  rw [Nat.div_lt_iff_lt_mul (Nat.two_pow_pos _), size, ← Nat.pow_succ', ← Nat.pow_add]
  exact Nat.lt_of_lt_of_le Nat.lt_log2_self (Nat.pow_le_pow_right Nat.two_pos (by omega))

theorem binade_le_div {num : Nat} (cut : 0 < num.log2 - 52) : binade ≤ num / 2 ^ (num.log2 - 52) := by
  have size : binade = 2 ^ 52 := rfl
  have nonzero : num ≠ 0 := by
    rintro rfl
    rw [Nat.log2_zero] at cut
    omega
  rw [Nat.le_div_iff_mul_le (Nat.two_pow_pos _), size, ← Nat.pow_add]
  exact Nat.le_trans (Nat.pow_le_pow_right Nat.two_pos (by omega)) (Nat.log2_self_le nonzero)

theorem nearestPattern_mono : Monotone (nearestPattern · 1) := by
  intro num num' le
  simp only [nearestPattern_one]
  refine min_le_min_right infinityPattern ?_
  have logs : num.log2 ≤ num'.log2 := by
    by_cases zero : num = 0
    · rw [zero, Nat.log2_zero]
      exact Nat.zero_le _
    · exact (Nat.le_log2 (by omega)).mpr (Nat.le_trans (Nat.log2_self_le zero) le)
  rcases Nat.lt_or_eq_of_le (Nat.sub_le_sub_right logs 52) with less | same
  · have small := div_lt_two_binades num
    have large := binade_le_div (Nat.lt_of_le_of_lt (Nat.zero_le _) less)
    have below := divideToEven_le num (2 ^ (num.log2 - 52))
    have above := le_divideToEven num' (2 ^ (num'.log2 - 52))
    calc divideToEven num (2 ^ (num.log2 - 52)) + (num.log2 - 52) * binade
        ≤ 2 * binade + (num.log2 - 52) * binade := by omega
      _ = binade + (num.log2 - 52 + 1) * binade := by rw [Nat.add_mul (num.log2 - 52)]; omega
      _ ≤ binade + (num'.log2 - 52) * binade := Nat.add_le_add_left (Nat.mul_le_mul_right _ less) _
      _ ≤ divideToEven num' (2 ^ (num'.log2 - 52)) + (num'.log2 - 52) * binade := by omega
  · rw [same]
    exact Nat.add_le_add_right (divideToEven_mono _ le) _

attribute [local irreducible] unitsInOne nearestPattern

theorem position_ofUnits (count : Int) : (ofUnits count).position =
    if count < 0 then -(nearestPattern count.natAbs 1 : Int) else nearestPattern count.natAbs 1 := by
  simp only [position, ofUnits, ofUnitRatio, decide_eq_true_eq]

theorem ofUnits_mono {count count' : Int} (le : count ≤ count') :
    (ofUnits count).position ≤ (ofUnits count').position := by
  have order {n n' : Nat} (le : n ≤ n') : nearestPattern n 1 ≤ nearestPattern n' 1 := nearestPattern_mono le
  rw [position_ofUnits, position_ofUnits]
  split
  · split
    · have := order (show count'.natAbs ≤ count.natAbs by omega)
      omega
    · omega
  · rw [if_neg (by omega)]
    have := order (show count.natAbs ≤ count'.natAbs by omega)
    omega

theorem position_ofUnits_units {x : Number} (finite : x.pattern < infinityPattern) :
    (ofUnits x.units).position = x.position := by
  have magnitude : x.units.natAbs = unitsOfPattern x.pattern := by
    rw [units]
    split <;> omega
  have zero : unitsOfPattern x.pattern = 0 → x.pattern = 0 := by
    intro none
    by_contra nonzero
    have := unitsOfPattern_pos nonzero
    omega
  rw [position_ofUnits, magnitude, nearestPattern_unitsOfPattern finite, position, units]
  split <;> split <;> omega

theorem position_le_iff (x y : Number) : x.position ≤ y.position ↔ x.units ≤ y.units := by
  rw [← not_lt, position_lt_iff, not_lt]

theorem position_eq_iff (x y : Number) : x.position = y.position ↔ x.units = y.units := by
  rw [le_antisymm_iff, position_le_iff, position_le_iff, ← le_antisymm_iff]

theorem units_one : one.units = unitsInOne := (isInt_one.units_eq).trans (Int.one_mul _)

section Sums

variable {x y z : Number} (finite : x.pattern < infinityPattern) (finite' : y.pattern < infinityPattern)
include finite finite'

/-- The place of a sum of finite numbers is that of the exact sum, rounded. -/
theorem position_add : (x.add y).position = (ofUnits (x.units + y.units)).position := by
  have infinite {z : Number} (finite : z.pattern < infinityPattern) : z.isInfinite = false :=
    beq_false_of_ne (Nat.ne_of_lt finite)
  simp only [add, not_isNaN_of_finite finite, not_isNaN_of_finite finite', infinite finite,
    infinite finite', Bool.false_eq_true, if_false]
  split
  · rename_i none
    rw [none]
    split <;> decide +kernel
  · rfl

theorem add_pattern_le : (x.add y).pattern ≤ infinityPattern := by
  rw [← natAbs_position, position_add finite finite', natAbs_position]
  exact nearestPattern_le _ _

variable (finite'' : z.pattern < infinityPattern)
include finite''

theorem le_position_add (le : z.units ≤ x.units + y.units) : z.position ≤ (x.add y).position := by
  rw [position_add finite finite', ← position_ofUnits_units finite'']
  exact ofUnits_mono le

theorem position_add_le (le : x.units + y.units ≤ z.units) : (x.add y).position ≤ z.position := by
  rw [position_add finite finite', ← position_ofUnits_units finite'']
  exact ofUnits_mono le

theorem position_add_eq (sum : x.units + y.units = z.units) : (x.add y).position = z.position := by
  rw [position_add finite finite', sum, position_ofUnits_units finite'']

end Sums

theorem isInt_ofInt_le {i : Int} (low : -2 ^ 53 ≤ i) (high : i ≤ 2 ^ 53) : (ofInt i).IsInt i := by
  by_cases exact : Exact i
  · exact isInt_ofInt exact
  · have ends : i = -2 ^ 53 ∨ i = 2 ^ 53 := by
      unfold Exact at exact
      omega
    rcases ends with rfl | rfl
    · exact ⟨by decide +kernel, by decide +kernel⟩
    · exact ⟨by decide +kernel, by decide +kernel⟩

theorem IsInt.sameAddress {x y : Number} {i : Int} (first : x.IsInt i) (second : y.IsInt i) :
    x.SameAddress y :=
  .inl (equal_iff.mpr ⟨first.not_nan, second.not_nan,
    (position_eq_iff x y).mpr (first.units_eq.trans second.units_eq.symm)⟩)

end Number

end Calculator
