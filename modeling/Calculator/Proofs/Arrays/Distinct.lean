import Calculator.Proofs.Arrays.Rewriting

/-!
The array functions on sets.

Elements are compared by their data, the zeros apart, which are one element. So what is one element is what is
numerically equal, or one and the same NaN; `contains` compares by number.
-/

namespace Calculator

open Number Session

namespace Number

variable {x y : Number}

theorem eq_or_isZero_of_position (same : x.position = y.position) : x = y ∨ x.isZero ∧ y.isZero := by
  have patterns : x.pattern = y.pattern := by rw [← x.natAbs_position, same, y.natAbs_position]
  obtain ⟨negative, pattern, _⟩ := x
  obtain ⟨negative', pattern', _⟩ := y
  obtain rfl : pattern = pattern' := patterns
  simp only [position] at same
  cases negative <;> cases negative' <;> simp only [if_true, Bool.false_eq_true, if_false] at same
  · exact .inl rfl
  · obtain rfl : pattern = 0 := by omega
    exact .inr ⟨rfl, rfl⟩
  · obtain rfl : pattern = 0 := by omega
    exact .inr ⟨rfl, rfl⟩
  · exact .inl rfl

theorem position_of_isZero (isZero : x.isZero) : x.position = 0 := by
  rw [position, beq_iff_eq.mp isZero]
  split <;> rfl

theorem not_isNaN_of_isZero (isZero : x.isZero) : x.isNaN = false := by
  rw [isNaN, beq_iff_eq.mp isZero]
  rfl

def plainZero (x : Number) : Number := if x.isZero then zero else x

theorem plainZero_eq_iff : x.plainZero = y.plainZero ↔ x = y ∨ x.isZero ∧ y.isZero := by
  have isZero : zero.isZero := rfl
  unfold plainZero
  split <;> split
  · rename_i here here'
    exact ⟨fun _ => .inr ⟨here, here'⟩, fun _ => rfl⟩
  · rename_i here not
    refine ⟨fun same => absurd (same ▸ isZero) not, ?_⟩
    rintro (rfl | ⟨-, here'⟩)
    · exact absurd here not
    · exact absurd here' not
  · rename_i not here
    refine ⟨fun same => absurd (same ▸ isZero) not, ?_⟩
    rintro (rfl | ⟨here', -⟩)
    · exact absurd here not
    · exact absurd here' not
  · rename_i not _
    exact ⟨.inl, fun same => same.resolve_right fun both => not both.1⟩

theorem equal_plainZero (x y : Number) : x.plainZero.equal y = x.equal y := by
  rw [equal, equal, plainZero]
  split
  · rename_i isZero
    rw [not_isNaN_of_isZero isZero, position_of_isZero isZero]
    rfl
  · rfl

end Number

namespace CellArray

/-- Two elements are equal, as numbers or, if they are NaNs, as data. -/
def Same (x y : Number) : Prop := x.equal y ∨ x.isNaN ∧ x = y

instance (x y : Number) : Decidable (Same x y) := inferInstanceAs (Decidable (_ ∨ _))

variable {x y : Number} {seen values : List Number}

theorem same_iff : Same x y ↔ x.plainZero = y.plainZero := by
  rw [plainZero_eq_iff]
  constructor
  · rintro (equal | ⟨-, same⟩)
    · exact eq_or_isZero_of_position (equal_iff.mp equal).2.2
    · exact .inl same
  · rintro (rfl | ⟨isZero, isZero'⟩)
    · cases nan : x.isNaN with
      | false => exact .inl (equal_iff.mpr ⟨nan, nan, rfl⟩)
      | true => exact .inr ⟨nan, rfl⟩
    · refine .inl (equal_iff.mpr ⟨not_isNaN_of_isZero isZero, not_isNaN_of_isZero isZero', ?_⟩)
      rw [position_of_isZero isZero, position_of_isZero isZero']

theorem Same.refl (x : Number) : Same x x := same_iff.mpr rfl

theorem Same.symm (same : Same x y) : Same y x := same_iff.mpr (same_iff.mp same).symm

theorem sameElement_iff : sameElement x y ↔ x.plainZero = y.plainZero := by
  rw [plainZero_eq_iff, sameElement, Bool.or_eq_true, Bool.and_eq_true, beq_iff_eq, Or.comm]

def Fresh (values : List Number) (x : Number) : Prop := ∀ y ∈ values, ¬Same x y

instance (values : List Number) (x : Number) : Decidable (Fresh values x) :=
  inferInstanceAs (Decidable (∀ y ∈ values, ¬Same x y))

theorem fresh_iff : Fresh values x ↔ x.plainZero ∉ values.map plainZero := by
  simp only [Fresh, same_iff, List.mem_map, not_exists, not_and, eq_comm]

theorem fresh_cons : Fresh (y :: values) x ↔ ¬Same x y ∧ Fresh values x := List.forall_mem_cons

theorem fresh_append : Fresh (seen ++ values) x ↔ Fresh seen x ∧ Fresh values x := List.forall_mem_append

theorem fresh_congr (same : Same x y) : Fresh values x ↔ Fresh values y := by
  rw [fresh_iff, same_iff.mp same, fresh_iff]

theorem any_sameElement : seen.any (sameElement x) = !decide (Fresh seen x) := by
  rw [Bool.eq_iff_iff, List.any_eq_true, Bool.not_eq_true', decide_eq_false_iff_not]
  simp only [sameElement_iff, ← same_iff, Fresh, not_forall, not_not, exists_prop]

theorem distinct_cons_known {rest : List Number} (known : ¬Fresh seen x) :
    distinct seen (x :: rest) = distinct seen rest := by
  rw [distinct, any_sameElement, decide_eq_false known]
  rfl

theorem distinct_cons_fresh {rest : List Number} (fresh : Fresh seen x) :
    distinct seen (x :: rest) = x :: distinct (x :: seen) rest := by
  rw [distinct, any_sameElement, decide_eq_true fresh]
  rfl

/-- The elements that have no equal before them. -/
def firstOccurrences (values : List Number) : List Number :=
  (values.zipIdx.filter fun (x, index) => Fresh (values.take index) x).map Prod.fst

theorem map_filter_zipIdx_one (f : Number → Nat → Bool) (values : List Number) :
    ((values.zipIdx 1).filter fun (x, index) => f x index).map Prod.fst =
      (values.zipIdx.filter fun (x, index) => f x (index + 1)).map Prod.fst := by
  rw [List.zipIdx_succ, List.filter_map, List.map_map]
  rfl

/-- What was seen stands before every element that is left. -/
theorem distinct_eq_filter (seen values : List Number) :
    distinct seen values =
      (values.zipIdx.filter fun (x, index) => Fresh (seen ++ values.take index) x).map Prod.fst := by
  induction values generalizing seen with
  | nil => rfl
  | cons x values ih =>
      have others := map_filter_zipIdx_one (fun y index => Fresh (seen ++ (x :: values).take index) y) values
      rw [List.zipIdx_cons, List.filter_cons]
      simp only [List.take_zero, List.append_nil]
      by_cases fresh : Fresh seen x
      · simp only [distinct_cons_fresh fresh, fresh, decide_true, if_true, List.map_cons, others, ih]
        refine congrArg (x :: List.map Prod.fst ·) (List.filter_congr fun c _ => decide_eq_decide.mpr ?_)
        rw [List.take_succ_cons, List.cons_append, fresh_cons, fresh_append, fresh_append, fresh_cons,
          and_left_comm]
      · simp only [distinct_cons_known fresh, fresh, decide_false, Bool.false_eq_true, if_false, others, ih]
        refine congrArg (List.map Prod.fst) (List.filter_congr fun c _ => decide_eq_decide.mpr ?_)
        -- What is equal to this element is equal to one that was seen.
        have seen' (fresh' : Fresh seen c.1) : ¬Same c.1 x := fun same => fresh ((fresh_congr same).mp fresh')
        rw [List.take_succ_cons, fresh_append, fresh_append, fresh_cons]
        exact ⟨fun ⟨first, rest⟩ => ⟨first, seen' first, rest⟩, fun ⟨first, _, rest⟩ => ⟨first, rest⟩⟩

theorem distinct_eq (values : List Number) : distinct [] values = firstOccurrences values :=
  distinct_eq_filter [] values

theorem sublist_firstOccurrences (values : List Number) : (firstOccurrences values).Sublist values := by
  have kept := (List.filter_sublist (p := fun (x, index) => decide (Fresh (values.take index) x))
    (l := values.zipIdx)).map Prod.fst
  rwa [List.zipIdx_map_fst] at kept

theorem fresh_of_mem_distinct : ∀ x ∈ distinct seen values, Fresh seen x := by
  induction values generalizing seen with
  | nil => exact List.forall_mem_nil _
  | cons x values ih =>
      by_cases fresh : Fresh seen x
      · rw [distinct_cons_fresh fresh]
        exact List.forall_mem_cons.mpr ⟨fresh, fun y mem => (fresh_cons.mp (ih y mem)).2⟩
      · rw [distinct_cons_known fresh]
        exact ih

theorem pairwise_distinct : (distinct seen values).Pairwise (¬Same · ·) := by
  induction values generalizing seen with
  | nil => exact .nil
  | cons x values ih =>
      by_cases fresh : Fresh seen x
      · rw [distinct_cons_fresh fresh]
        exact .cons (fun y mem same => (fresh_cons.mp (fresh_of_mem_distinct y mem)).1 same.symm) ih
      · rw [distinct_cons_known fresh]
        exact ih

theorem exists_same_distinct :
    ∀ x ∈ values, Fresh seen x → ∃ y ∈ distinct seen values, Same x y := by
  induction values generalizing seen with
  | nil => exact List.forall_mem_nil _
  | cons x values ih =>
      by_cases fresh : Fresh seen x
      · rw [distinct_cons_fresh fresh]
        refine List.forall_mem_cons.mpr ⟨fun _ => ⟨x, List.mem_cons_self, .refl x⟩, fun y mem fresh' => ?_⟩
        by_cases same : Same y x
        · exact ⟨x, List.mem_cons_self, same⟩
        · obtain ⟨z, kept, same'⟩ := ih y mem (fresh_cons.mpr ⟨same, fresh'⟩)
          exact ⟨z, List.mem_cons_of_mem _ kept, same'⟩
      · rw [distinct_cons_known fresh]
        exact List.forall_mem_cons.mpr ⟨fun fresh' => absurd fresh' fresh, ih⟩

theorem distinct_of_pairwise (apart : values.Pairwise (¬Same · ·)) (fresh : ∀ x ∈ values, Fresh seen x) :
    distinct seen values = values := by
  induction apart generalizing seen with
  | nil => rfl
  | @cons x values different _ ih =>
      obtain ⟨here, others⟩ := List.forall_mem_cons.mp fresh
      rw [distinct_cons_fresh here]
      refine congrArg (x :: ·) (ih fun y mem => fresh_cons.mpr ⟨fun same => ?_, others y mem⟩)
      exact different y mem same.symm

theorem pairwise_firstOccurrences (values : List Number) :
    (firstOccurrences values).Pairwise (¬Same · ·) := distinct_eq values ▸ pairwise_distinct

theorem firstOccurrences_twice (values : List Number) :
    firstOccurrences (firstOccurrences values) = firstOccurrences values := by
  rw [← distinct_eq (firstOccurrences values)]
  exact distinct_of_pairwise (pairwise_firstOccurrences values) fun _ _ => List.forall_mem_nil _

theorem any_equal_firstOccurrences (values : List Number) (v : Number) :
    (firstOccurrences values).any (·.equal v) = values.any (·.equal v) := by
  rw [Bool.eq_iff_iff, List.any_eq_true, List.any_eq_true]
  constructor
  · rintro ⟨x, mem, equal⟩
    exact ⟨x, (sublist_firstOccurrences values).mem mem, equal⟩
  · rintro ⟨x, mem, equal⟩
    obtain ⟨y, mem', same⟩ := @exists_same_distinct [] values x mem (List.forall_mem_nil _)
    refine ⟨y, distinct_eq values ▸ mem', ?_⟩
    rw [← equal_plainZero, ← same_iff.mp same, equal_plainZero, equal]

end CellArray

open CellArray

section Calls

variable {setting : Setting} (standard : setting.registry = .standard) {frame : FrameId} {expr : Expr}
  {p : Pointer} {x : Number} {keys : List String} {s : Session} {values : List Number}
include standard

theorem eventually_setify (points : PointsTo setting frame expr p x keys s) (shown : p.Shows s x values)
    (within : arrayKeys x (firstOccurrences values).length ⊆ keys) :
    ∃ u, s.SameValues u ∧ Eval.Eventually (setting.solve · (.call "setify" [expr]) frame) s (.ok x)
      (p.setCells u (arrayCells x (firstOccurrences values))) := by
  have found : setting.registry.find? "setify" = some ⟨.exact 1, Builtin.setify⟩ :=
    find_of_memoryTable standard (by simp [Builtin.memoryTable])
  rw [← distinct_eq] at within ⊢
  obtain ⟨u, reads, rewrites⟩ := points.eventually_rewrite shown within
  exact ⟨u, reads, eventually_call found rfl ((points.eventually_pointer "setify" []).andThen rewrites)⟩

theorem eventually_contains (points : PointsTo setting frame expr p x keys s) (shown : p.Shows s x values)
    {arg : Expr} {v : Number} (gives : setting.Gives frame s arg v) :
    ∃ t, Eval.Eventually (setting.solve · (.call "contains" [expr, arg]) frame) s
      (.ok (.ofBool (values.any (·.equal v)))) t := by
  have found : setting.registry.find? "contains" = some ⟨.exact 2, Builtin.contains⟩ :=
    find_of_memoryTable standard (by simp [Builtin.memoryTable])
  obtain ⟨t, finds, -⟩ := points.eventually_indexOf shown v
  have asked := finds.map fun index => Number.ofBool index.isSome
  rw [List.findIdx?_isSome] at asked
  exact ⟨t, eventually_call found rfl ((points.eventually_pointer "contains" [arg]).andThen
    (gives.andThen asked))⟩

variable (points : PointsTo setting frame expr p x (arrayKeys x values.length) s) (shown : p.Shows s x values)
  (apart : (arrayKeys x (firstOccurrences values).length).Nodup)
include points shown apart

end Calls

end Calculator
