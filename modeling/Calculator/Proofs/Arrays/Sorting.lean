import Calculator.Proofs.Arrays.Rewriting
import Mathlib.Data.List.Sort

/-!
Sorting an array.

The order is the total order of all data. It keeps the order of the numbers and puts `-0` before `0`, and it
puts NaNs beyond the infinity of their sign: after all numbers, or before all of them.
-/

namespace Calculator

open Number Session

namespace Number

variable {x y : Number}

theorem rank_injective (same : x.rank = y.rank) : x = y := by
  obtain ⟨negative, pattern, _⟩ := x
  obtain ⟨negative', pattern', _⟩ := y
  cases negative <;> cases negative' <;> simp only [rank, if_true, Bool.false_eq_true, if_false] at same
  · obtain rfl : pattern = pattern' := by omega
    rfl
  · omega
  · omega
  · obtain rfl : pattern = pattern' := by omega
    rfl

theorem position_le_of_rank_le (le : x.rank ≤ y.rank) : x.position ≤ y.position := by
  revert le
  unfold rank position
  cases x.negative <;> cases y.negative <;> simp only [if_true, Bool.false_eq_true, if_false] <;> omega

theorem lessEqual_of_rank_le (le : x.rank ≤ y.rank) (number : ¬x.isNaN) (number' : ¬y.isNaN) :
    x.lessEqual y := by
  simp only [lessEqual, number, number', position_le_of_rank_le le, Bool.not_false, Bool.and_self,
    decide_true]

theorem isNegativeNaN_iff : x.isNaN ∧ x.negative ↔ x.rank < negativeInfinity.rank := by
  have least : negativeInfinity.rank = -(infinityPattern : Int) - 1 := rfl
  rw [least, isNaN, rank, decide_eq_true_eq]
  cases x.negative with
  | false => simp only [Bool.false_eq_true, if_false, and_false, false_iff]; omega
  | true => simp only [if_true, and_true]; omega

theorem isPositiveNaN_iff : x.isNaN ∧ ¬x.negative ↔ infinity.rank < x.rank := by
  have greatest : infinity.rank = (infinityPattern : Int) := rfl
  rw [greatest, isNaN, rank, decide_eq_true_eq]
  cases x.negative with
  | false => simp only [Bool.false_eq_true, if_false, not_false_eq_true, and_true, Nat.cast_lt]
  | true => simp only [if_true, not_true_eq_false, and_false, false_iff]; omega

end Number

namespace CellArray

/-- Of two numbers the first one is not the larger one, whatever is between them. -/
def Ascending (values : List Number) : Prop :=
  values.Pairwise fun x y => ¬x.isNaN → ¬y.isNaN → x.lessEqual y

/-- After a NaN there are only NaNs. -/
def NaNsLast (values : List Number) : Prop := values.Pairwise fun x y => x.isNaN → y.isNaN

/-- Before a negative NaN there are only negative NaNs. -/
def NegativeNaNsFirst (values : List Number) : Prop :=
  values.Pairwise fun x y => y.isNaN ∧ y.negative → x.isNaN ∧ x.negative

variable {values values' : List Number}

theorem perm_sorted (values : List Number) : (sorted values).Perm values := List.mergeSort_perm ..

theorem pairwise_sorted (values : List Number) : (sorted values).Pairwise fun x y => x.rank ≤ y.rank := by
  have trans (x y z : Number) (below : decide (x.rank ≤ y.rank)) (below' : decide (y.rank ≤ z.rank)) :
      decide (x.rank ≤ z.rank) :=
    decide_eq_true (Int.le_trans (of_decide_eq_true below) (of_decide_eq_true below'))
  have total (x y : Number) : decide (x.rank ≤ y.rank) || decide (y.rank ≤ x.rank) := by
    rw [Bool.or_eq_true, decide_eq_true_eq, decide_eq_true_eq]
    exact Int.le_total ..
  have ordered := List.pairwise_mergeSort trans total values
  exact ordered.imp of_decide_eq_true

theorem sorted_eq_of_perm (perm : values.Perm values') : sorted values = sorted values' := by
  have perms := (perm_sorted values).trans (perm.trans (perm_sorted values').symm)
  refine perms.eq_of_pairwise (fun x y _ _ below above => ?_) (pairwise_sorted values)
    (pairwise_sorted values')
  exact rank_injective (Int.le_antisymm below above)

theorem ascending_sorted (values : List Number) : Ascending (sorted values) :=
  (pairwise_sorted values).imp fun le number number' => lessEqual_of_rank_le le number number'

theorem negativeNaNsFirst_sorted (values : List Number) : NegativeNaNsFirst (sorted values) :=
  (pairwise_sorted values).imp fun le nan =>
    isNegativeNaN_iff.mpr (Int.lt_of_le_of_lt le (isNegativeNaN_iff.mp nan))

theorem nansLast_sorted_iff (values : List Number) :
    NaNsLast (sorted values) ↔ (∀ x ∈ values, x.isNaN → ¬x.negative) ∨ ∀ x ∈ values, x.isNaN := by
  have mem {x : Number} : x ∈ sorted values ↔ x ∈ values := (perm_sorted values).mem_iff
  constructor
  · intro last
    by_cases positive : ∀ x ∈ values, x.isNaN → ¬x.negative
    · exact .inl positive
    · push Not at positive
      obtain ⟨x, isIn, nan, negative⟩ := positive
      -- There are only NaNs behind the negative NaN, and only negative ones before it.
      have behind : (sorted values).Pairwise fun x y => x.isNaN ∧ x.negative → y.isNaN :=
        last.imp fun nans nan => nans nan.1
      have before : (sorted values).Pairwise (flip fun x y => x.isNaN ∧ x.negative → y.isNaN) :=
        (negativeNaNsFirst_sorted values).imp fun nans nan => (nans nan).1
      have all := behind.forall_of_forall_of_flip (fun _ _ => And.left) before
      exact .inr fun y isIn' => all (mem.mpr isIn) (mem.mpr isIn') ⟨nan, negative⟩
  · rintro (positive | all)
    · refine (pairwise_sorted values).imp_of_mem fun isIn _ le nan => ?_
      have above := isPositiveNaN_iff.mp ⟨nan, positive _ (mem.mp isIn) nan⟩
      exact (isPositiveNaN_iff.mpr (Int.lt_of_lt_of_le above le)).1
    · exact List.Pairwise.imp_of_mem (fun _ isIn' _ _ => all _ (mem.mp isIn')) (pairwise_sorted values)

end CellArray

open CellArray

section Call

variable {setting : Setting} (standard : setting.registry = .standard)
include standard

section Array

variable {frame : FrameId} {expr : Expr} {p : Pointer} {x : Number} {s : Session} {values : List Number}
  (points : PointsTo setting frame expr p x (arrayKeys x values.length) s) (array : p.HasArray s x values)
include points array

theorem eventually_sort :
    ∃ t, Eval.Eventually (setting.solve · (.call "sort" [expr]) frame) s (.ok x) t ∧
      p.HasArray t x (sorted values) := by
  have found : setting.registry.find? "sort" = some ⟨.exact 1, Builtin.sort⟩ :=
    find_of_memoryTable standard (by simp [Builtin.memoryTable])
  have same := (perm_sorted values).length_eq
  have within := (arrayKeys_sublist (x := x) same.le).subset
  obtain ⟨u, reads, rewrites⟩ := points.eventually_rewrite array.toShows within
  exact ⟨_, eventually_call found rfl ((points.eventually_pointer "sort" []).andThen rewrites),
    array.toShows.rewritten reads same.le (array.apart.sublist (arrayKeys_sublist same.le))⟩

/-- Sorting leaves the values of an array in ascending order, and it does not matter in which order they were
before, nor in which array. Negative NaNs come first, so the NaNs come last unless one of them is negative and
there are numbers as well. -/
theorem sort_ascending :
    ∃ after : List Number,
      (∃ t, Eval.Eventually (setting.solve · (.call "sort" [expr]) frame) s (.ok x) t ∧
        p.HasArray t x after) ∧
      after.Perm values ∧ Ascending after ∧ NegativeNaNsFirst after ∧
      (NaNsLast after ↔ (∀ v ∈ values, v.isNaN → ¬v.negative) ∨ ∀ v ∈ values, v.isNaN) ∧
      ∀ {frame' : FrameId} {expr' : Expr} {p' : Pointer} {x' : Number} {s' : Session}
        {values' : List Number}, values'.Perm values →
        PointsTo setting frame' expr' p' x' (arrayKeys x' values'.length) s' → p'.HasArray s' x' values' →
          ∃ t', Eval.Eventually (setting.solve · (.call "sort" [expr']) frame') s' (.ok x') t' ∧
            p'.HasArray t' x' after := by
  refine ⟨sorted values, eventually_sort standard points array, perm_sorted values, ascending_sorted values,
    negativeNaNsFirst_sorted values, nansLast_sorted_iff values, fun perm points' array' => ?_⟩
  rw [← sorted_eq_of_perm perm]
  exact eventually_sort standard points' array'

end Array

end Call

/-- Local cells with a NaN that is not negative. -/
theorem sort_ascending_local :
    let setting : Setting := ⟨.standard, true⟩
    let values := [nan, one, zero, negativeZero, negativeInfinity]
    let p : Pointer := ⟨.frame, .constant one, 0⟩
    let s := p.setCells ((Engine.new .standard (.withInput .buffer [])).session.push .main)
      (arrayCells one values)
    setting.registry = .standard ∧
    PointsTo setting 0 (.localPointer (.constant one)) p one (arrayKeys one values.length) s ∧
      p.HasArray s one values ∧
      ∃ after : List Number,
        (∃ t, Eval.Eventually (setting.solve · (.call "sort" [.localPointer (.constant one)]) 0) s (.ok one) t ∧
          p.HasArray t one after) ∧ after.Perm values ∧ Ascending after ∧ NaNsLast after := by
  intro setting values p s
  have standard : setting.registry = .standard := rfl
  have apart : (arrayKeys one values.length).Nodup := by decide +kernel
  have array : p.HasArray s one values := p.hasArray_setCells apart fun _ => by decide
  have points : PointsTo setting 0 (.localPointer (.constant one)) p one (arrayKeys one values.length) s :=
    pointsTo_of_gives rfl fun _ _ => gives_constant one
  obtain ⟨after, sorts, perm, ascending, -, last, -⟩ := sort_ascending standard points array
  exact ⟨standard, points, array, after, sorts, perm, ascending, last.mpr (.inl (by decide))⟩

/-- The NaN that `0 / 0` makes is negative, so it comes first. -/
theorem invalid_sorts_first :
    let setting : Setting := ⟨.standard, true⟩
    let invalid := zero.div zero
    let p : Pointer := ⟨.global, .constant zero, 0⟩
    let s := p.setCells ((Engine.new .standard (.withInput .buffer [])).session.push .main)
      (arrayCells zero [invalid, one])
    s.ReadsArray zero [invalid, one] ∧
      (∃ t, Eval.Eventually (setting.solve · (.call "sort" [cellAt zero]) 0) s (.ok zero) t ∧
        t.ReadsArray zero [invalid, one]) ∧
      invalid.isNaN ∧ ¬one.isNaN ∧ ¬NaNsLast [invalid, one] := by
  intro setting invalid p s
  have standard : setting.registry = .standard := rfl
  have apart : (arrayKeys zero [invalid, one].length).Nodup := by decide +kernel
  have array : p.HasArray s zero [invalid, one] := p.hasArray_setCells apart nofun
  have points : PointsTo setting 0 (cellAt zero) p zero (arrayKeys zero [invalid, one].length) s :=
    pointsTo_of_gives rfl fun _ _ => gives_constant zero
  have ranks : [invalid, one].Pairwise fun x y => x.rank ≤ y.rank := by decide +kernel
  have after : sorted [invalid, one] = [invalid, one] := List.mergeSort_of_pairwise (ranks.imp decide_eq_true)
  obtain ⟨t, sorts, array'⟩ := eventually_sort standard points array
  rw [after] at array'
  refine ⟨array.readsArray rfl, ⟨t, sorts, array'.readsArray rfl⟩, by decide +kernel, by decide, ?_⟩
  unfold NaNsLast
  decide +kernel

end Calculator
