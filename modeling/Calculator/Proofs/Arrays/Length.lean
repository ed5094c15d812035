import Calculator.Proofs.Arrays.Values
import Calculator.Proofs.Number.Rounding
import Mathlib.Data.List.Nodup

/-!
The length of an array, and what `set` and `add` make of it.

The length cell lies right before the first element, and any number may stand in it. An index may count
back to it, and then `set` writes the length. What `add` appends to is found with the number itself, and
what is read with that number as a count.
-/

namespace Calculator

open Number Session CellArray

attribute [local irreducible] unitsInOne

namespace Number

def offset (length index : Number) : Number := if index.less zero then length.add index else index

/-- Where an index leads, in units behind the first element; a negative one counts from the end. -/
def reach (length : Number) (index : Int) : Int :=
  if index < 0 then length.units + index * unitsInOne else index * unitsInOne

theorem reach_whole {length : Number} {n i : Int} (whole : length.IsInt n) :
    reach length i = (if i < 0 then n + i else i) * unitsInOne := by
  unfold reach
  split
  · rw [whole.units_eq, Int.add_mul]
  · rfl

section Offset

variable {length y : Number} {i j : Int} (indexed : y.IsInt i)
include indexed

theorem offset_eq : offset length y = if i < 0 then length.add y else y := by
  simp only [offset, indexed.less_iff isInt_zero]

variable (finite : length.pattern < infinityPattern)
include finite

theorem offset_finite (nonneg : 0 ≤ length.units) : (offset length y).pattern < infinityPattern := by
  rw [offset_eq indexed]
  split
  · rename_i below
    -- The sum lies between its summands.
    have negative : i * unitsInOne ≤ 0 :=
      Int.mul_nonpos_of_nonpos_of_nonneg (Int.le_of_lt below) (Int.le_of_lt unitsInOne_cast_pos)
    have units := indexed.units_eq
    have finite' := indexed.finite
    have above := le_position_add finite finite' finite' (by omega)
    have below := position_add_le finite finite' finite (by omega)
    have sum := (length.add y).natAbs_position
    have first := length.natAbs_position
    have second := y.natAbs_position
    omega
  · exact indexed.finite

/-- Rounding moves no index past a whole one. -/
theorem offset_side (low : -2 ^ 53 ≤ j) (high : j ≤ 2 ^ 53) :
    (j * unitsInOne ≤ reach length i → j * unitsInOne ≤ (offset length y).units) ∧
      (reach length i ≤ j * unitsInOne → (offset length y).units ≤ j * unitsInOne) := by
  have whole := isInt_ofInt_le low high
  have finite' := indexed.finite
  rw [offset_eq indexed, reach]
  split
  · rw [← whole.units_eq, ← indexed.units_eq]
    refine ⟨fun le => ?_, fun le => ?_⟩
    · exact (position_le_iff _ _).mp (le_position_add finite finite' whole.finite le)
    · exact (position_le_iff _ _).mp (position_add_le finite finite' whole.finite le)
  · rw [indexed.units_eq]
    exact ⟨id, id⟩

end Offset

section Cell

variable {x v w : Number} {a : Int} (whole : x.IsInt a) (exact : Exact a)
include whole exact

theorem add_one_apart (number : v.pattern ≤ infinityPattern)
    (side : x.position ≤ v.position ∨ -2 ^ 53 < a - 1 ∧ v.position ≤ (ofInt (a - 2)).position) :
    ¬(v.add one).SameAddress x := by
  obtain ⟨least, most⟩ := exact
  rintro (equal | ⟨-, nan⟩)
  · obtain ⟨-, -, same⟩ := equal_iff.mp equal
    rcases Nat.lt_or_eq_of_le number with finite | infinite
    · have one := isInt_one.finite
      have positive := unitsInOne_cast_pos
      have units := whole.units_eq
      have sum := (position_eq_iff _ _).mp same
      rcases side with behind | ⟨room, before⟩
      · have next := isInt_ofInt_le (i := a + 1) (by omega) (by omega)
        rw [position_le_iff] at behind
        have least := le_position_add (z := ofInt (a + 1)) finite one next.finite (by
          rw [next.units_eq, units_one, Int.add_mul]
          omega)
        rw [position_le_iff, next.units_eq, sum, units, Int.add_mul] at least
        omega
      · have last := isInt_ofInt_le (i := a - 2) (by omega) (by omega)
        have previous := isInt_ofInt_le (i := a - 1) (by omega) (by omega)
        rw [position_le_iff, last.units_eq, Int.sub_mul] at before
        have most := position_add_le (z := ofInt (a - 1)) finite one previous.finite (by
          rw [previous.units_eq, units_one, Int.sub_mul]
          omega)
        rw [position_le_iff, previous.units_eq, sum, units, Int.sub_mul] at most
        omega
    · -- What is infinite stays so.
      have stays : v.add one = v := by
        have noNaN : v.isNaN = false := decide_eq_false (by omega)
        have isInfinite : v.isInfinite = true := beq_iff_eq.mpr infinite
        simp [add, noNaN, isInfinite, show one.isNaN = false by decide, show one.isInfinite = false by decide]
      have finite := whole.finite
      rw [stays] at same
      have patterns : v.pattern = x.pattern := by rw [← natAbs_position, same, natAbs_position]
      omega
  · rw [whole.not_nan] at nan
    cases nan

variable (finite : w.pattern < infinityPattern)
include finite

theorem cell_apart (side : 0 ≤ w.units ∨ -2 ^ 53 < a - 1 ∧ w.units ≤ -2 * unitsInOne) :
    ¬((x.add w).add one).SameAddress x := by
  refine add_one_apart whole exact (add_pattern_le whole.finite finite) ?_
  rcases side with behind | ⟨room, before⟩
  · exact .inl (le_position_add whole.finite finite whole.finite (by omega))
  · obtain ⟨least, most⟩ := exact
    have last := isInt_ofInt_le (i := a - 2) (by omega) (by omega)
    refine .inr ⟨room, position_add_le whole.finite finite last.finite ?_⟩
    rw [last.units_eq, whole.units_eq, Int.sub_mul]
    omega

theorem cell_same (before : w.units = -1 * unitsInOne) : ((x.add w).add one).SameAddress x := by
  obtain ⟨least, most⟩ := exact
  have previous := isInt_ofInt_le (i := a - 1) (by omega) (by omega)
  have moved := position_add_eq (z := ofInt (a - 1)) whole.finite finite previous.finite (by
    rw [previous.units_eq, whole.units_eq, before, Int.sub_mul]
    omega)
  have finite' : (x.add w).pattern < infinityPattern := by
    rw [← natAbs_position, moved, natAbs_position]
    exact previous.finite
  have units := (position_eq_iff _ _).mp moved
  have same := position_add_eq (z := x) finite' isInt_one.finite whole.finite (by
    rw [units, previous.units_eq, units_one, whole.units_eq, Int.sub_mul]
    omega)
  have noNaN : ((x.add w).add one).isNaN = false := not_isNaN_of_finite (by
    rw [← natAbs_position, same, natAbs_position]
    exact whole.finite)
  exact .inl (equal_iff.mpr ⟨noNaN, whole.not_nan, same⟩)

end Cell

section Element

variable {x length y : Number} {a i : Int} (whole : x.IsInt a) (exact : Exact a) (indexed : y.IsInt i)
  (finite : length.pattern < infinityPattern) (nonneg : 0 ≤ length.units)
include whole exact indexed finite nonneg

theorem element_apart
    (room : -2 ^ 53 * (unitsInOne : Int) < (a + 1) * unitsInOne + reach length i)
    (side : 0 ≤ reach length i ∨ reach length i ≤ -2 * unitsInOne) :
    ¬((x.add (offset length y)).add one).SameAddress x := by
  refine cell_apart whole exact (offset_finite indexed finite nonneg) ?_
  rcases side with behind | before
  · have zero := (offset_side (j := 0) indexed finite (by decide) (by decide)).1
    rw [Int.zero_mul] at zero
    exact .inl (zero behind)
  · refine .inr ⟨?_, (offset_side indexed finite (by decide) (by decide)).2 before⟩
    refine Int.lt_of_mul_lt_mul_right (a := (unitsInOne : Int)) ?_ (Int.le_of_lt unitsInOne_cast_pos)
    rw [Int.add_mul] at room
    rw [Int.sub_mul]
    omega

theorem element_same (before : reach length i = -1 * unitsInOne) :
    ((x.add (offset length y)).add one).SameAddress x := by
  obtain ⟨least, most⟩ := @offset_side _ _ _ (-1) indexed finite (by decide) (by decide)
  exact cell_same whole exact (offset_finite indexed finite nonneg)
    (Int.le_antisymm (most (Int.le_of_eq before)) (least (Int.le_of_eq before.symm)))

end Element

end Number

section Calls

variable {setting : Setting} {frame : FrameId} {s t : Session} {x y value : Number}

theorem eventually_offset (s : Session) (x y : Number) :
    ∃ t, Eval.Eventually (fun fuel => cell (setting.machineAt fuel) (cellAt x) y frame) s
      (.ok ((x.add (offset (s.valueOf x.key) y)).add one)) t ∧ s.SameValues t := by
  by_cases below : y.less zero = true
  · refine ⟨_, ?_, s.sameValues_readVariable x.key⟩
    simp only [cell, offset, if_pos below, pure_bind]
    refine (eventually_lengthValue s x).andThen ?_
    exact (Place.eventually_address x).map fun base => (base.add ((s.valueOf x.key).add y)).add one
  · refine ⟨s, ?_, .refl s⟩
    rw [offset, if_neg below]
    exact eventually_cellForward (gives_constant x) below

def LengthIs (setting : Setting) (frame : FrameId) (s : Session) (x n : Number) : Prop :=
  ∃ t, Eval.Eventually (setting.solve · (.call "len" [cellAt x]) frame) s (.ok n) t

theorem LengthIs.unique {n n' : Number} (reads : LengthIs setting frame s x n)
    (reads' : LengthIs setting frame s x n') : n = n' := by
  obtain ⟨_, comes⟩ := reads
  obtain ⟨_, comes'⟩ := reads'
  exact Except.ok.inj (comes.unique comes').1

variable (standard : setting.registry = .standard)
include standard

theorem lengthIs_valueOf (s : Session) (x : Number) : LengthIs setting frame s x (s.valueOf x.key) := by
  have found : setting.registry.find? "len" = some ⟨.exact 1, Builtin.len⟩ :=
    find_of_memoryTable standard (by simp [Builtin.memoryTable])
  exact ⟨_, eventually_call found rfl (eventually_lengthValue s x)⟩

theorem eventually_setAt {arg arg' : Expr} (indexed : setting.Gives frame s arg y)
    (given : setting.Gives frame s arg' value) (x : Number) :
    ∃ t, Eval.Eventually (setting.solve · (.call "set" [cellAt x, arg, arg']) frame) s (.ok value)
        (t.setVariable ((x.add (offset (s.valueOf x.key) y)).add one).key value) ∧ s.SameValues t := by
  have found : setting.registry.find? "set" = some ⟨.exact 3, Builtin.set⟩ :=
    find_of_memoryTable standard (by simp [Builtin.memoryTable])
  obtain ⟨t, cell, same⟩ := @eventually_offset setting frame s x y
  have sets : Eval.Eventually (fun fuel => CellArray.set (setting.machineAt fuel) (cellAt x) y value frame) s
      (.ok value) (t.setVariable ((x.add (offset (s.valueOf x.key) y)).add one).key value) :=
    cell.andThen ((Eval.Costs.eventually fun _ => costs_writeCell _ _ value).andThen
      (Eval.eventually_pure value _))
  exact ⟨t, eventually_call found rfl (indexed.andThen (given.andThen sets)), same⟩

/-- Setting an element leaves the length alone, also at an index outside the array, unless the index counts
back to the length cell: with a whole length that is the place right before the first element, which then
is written like any other. -/
theorem set_keeps_length {a index : Whole} {arg arg' : Expr}
    (indexed : setting.Gives frame s arg index.number) (given : setting.Gives frame s arg' value)
    (exact : Exact a.int) (finite : (s.valueOf a.number.key).pattern < infinityPattern)
    (nonneg : 0 ≤ (s.valueOf a.number.key).units)
    (room : -2 ^ 53 * (unitsInOne : Int) <
      (a.int + 1) * unitsInOne + reach (s.valueOf a.number.key) index.int) :
    ∃ t, Eval.Eventually (setting.solve · (.call "set" [cellAt a.number, arg, arg']) frame) s (.ok value) t ∧
      (0 ≤ reach (s.valueOf a.number.key) index.int ∨
          reach (s.valueOf a.number.key) index.int ≤ -2 * unitsInOne →
        LengthIs setting frame t a.number (s.valueOf a.number.key)) ∧
      ∀ n : Int, (s.valueOf a.number.key).IsInt n → LengthIs setting frame t a.number
        (if index.int = -(n + 1) then value else s.valueOf a.number.key) := by
  obtain ⟨t, sets, same⟩ := eventually_setAt standard indexed given a.number
  have read := @lengthIs_valueOf setting frame standard
    (t.setVariable ((a.number.add (offset (s.valueOf a.number.key) index.number)).add one).key value) a.number
  rw [valueOf_setVariable, same.values] at read
  generalize s.valueOf a.number.key = length at *
  generalize t.setVariable _ value = after at sets read
  have kept (side : 0 ≤ reach length index.int ∨ reach length index.int ≤ -2 * unitsInOne) :
      LengthIs setting frame after a.number length := by
    have apart := element_apart a.isInt exact index.isInt finite nonneg room side
    rwa [if_neg (mt fold_key_eq_iff.mp apart)] at read
  refine ⟨after, sets, kept, fun n whole => ?_⟩
  have positive := unitsInOne_cast_pos
  have least : 0 ≤ n := by
    rw [whole.units_eq] at nonneg
    exact Int.le_of_mul_le_mul_right (by rwa [Int.zero_mul]) positive
  rw [reach_whole whole] at kept
  split
  · rename_i before
    have collides := element_same a.isInt exact index.isInt finite nonneg
      (by rw [reach_whole whole, if_pos (by omega)]; congr 1; omega)
    rwa [if_pos (fold_key_eq_iff.mpr collides)] at read
  · rename_i other
    refine kept ?_
    by_cases behind : 0 ≤ if index.int < 0 then n + index.int else index.int
    · exact .inl (Int.mul_nonneg behind (Int.le_of_lt positive))
    · refine .inr (Int.mul_le_mul_of_nonneg_right ?_ (Int.le_of_lt positive))
      split at behind <;> rename_i below
      · rw [if_pos below]
        omega
      · omega

end Calls

/-- The last of three elements is set. -/
theorem set_keeps_length_last :
    let setting : Setting := ⟨.standard, true⟩
    let s := ((Engine.new .standard (.withInput .buffer [])).session.push .main).setVariable "0" (.ofNat 3)
    let nine := Number.ofNat 9
    ∃ t, Eval.Eventually (setting.solve · (.call "set" [cellAt .zero, .constant (.ofInt (-1)), .constant nine])
        0) s (.ok nine) t ∧ LengthIs setting 0 t .zero (.ofNat 3) := by
  intro setting s nine
  have length : s.valueOf zero.key = .ofNat 3 := by decide +kernel
  have three : (ofNat 3).IsInt 3 := isInt_ofNat (by decide)
  have room : -2 ^ 53 * (unitsInOne : Int) < (0 + 1) * unitsInOne + reach (.ofNat 3) (-1) := by
    decide +kernel
  obtain ⟨t, sets, -, kept⟩ := @set_keeps_length setting 0 s nine rfl ⟨.zero, 0, isInt_zero⟩
    ⟨.ofInt (-1), -1, isInt_ofInt (by decide)⟩ _ _ (gives_constant _) (gives_constant nine) (by decide)
    (length.symm ▸ three.finite) (by rw [length]; decide +kernel) (by rw [length]; exact room)
  rw [length] at kept
  exact ⟨t, sets, kept 3 three⟩

/-- One place before the first of three elements the length is set. -/
theorem set_before_first_changes_length :
    let setting : Setting := ⟨.standard, true⟩
    let s := ((Engine.new .standard (.withInput .buffer [])).session.push .main).setVariable "0" (.ofNat 3)
    let nine := Number.ofNat 9
    ∃ t, LengthIs setting 0 s .zero (.ofNat 3) ∧
      Eval.Eventually (setting.solve · (.call "set" [cellAt .zero, .constant (.ofInt (-4)), .constant nine]) 0)
        s (.ok nine) t ∧ LengthIs setting 0 t .zero nine ∧ ¬LengthIs setting 0 t .zero (.ofNat 3) := by
  intro setting s nine
  have length : s.valueOf zero.key = .ofNat 3 := by decide +kernel
  have before := @lengthIs_valueOf setting 0 rfl s .zero
  obtain ⟨t, sets, same⟩ := @eventually_setAt setting 0 s (.ofInt (-4)) nine rfl _ _ (gives_constant _)
    (gives_constant nine) .zero
  rw [length] at sets before
  have folds : Text.fold ((zero.add (offset (.ofNat 3) (.ofInt (-4)))).add one).key = Text.fold zero.key := by
    decide +kernel
  have after := @lengthIs_valueOf setting 0 rfl
    (t.setVariable ((zero.add (offset (.ofNat 3) (.ofInt (-4)))).add one).key nine) .zero
  rw [valueOf_setVariable, if_pos folds] at after
  refine ⟨_, before, sets, after, fun other => ?_⟩
  exact absurd (after.unique other) (by decide +kernel)

namespace Session

/-- A value was appended to the array at an address. It is read behind the elements that were there, and
but for the length cell and the cell of the new element every cell and variable has the value it had. -/
structure Appended (s t : Session) (x value : Number) : Prop where
  reads : ∀ values, s.ReadsArray x values → t.ReadsArray x (values ++ [value])
  kept : ∀ name, Text.fold name ≠ Text.fold x.key → Text.fold name ≠ Text.fold (elementKey x (s.count x)) →
    t.valueOf name = s.valueOf name

/-- One more than the number in the length cell tells of one element more, and leads to its cell. -/
structure GrowsByOne (s : Session) (x : Number) : Prop where
  count : ((s.valueOf x.key).add one).toCount = s.count x + 1
  cell : (x.add ((s.valueOf x.key).add one)).SameAddress (x.add (ofNat (s.count x + 1)))

variable {s t : Session} {x value : Number}

theorem growsByOne_whole {n : Nat} (small : n + 1 < 2 ^ 53) (whole : (s.valueOf x.key).IsInt n) :
    s.GrowsByOne x := by
  have largest : 2 ^ 53 ≤ largestCount := by decide
  have counted : s.count x = n := whole.toCount (by omega)
  have next : ((s.valueOf x.key).add one).IsInt (n + 1) := whole.add isInt_one ⟨by omega, by omega⟩
  have same : (s.valueOf x.key).add one = ofNat (n + 1) := next.eq (isInt_ofNat small) (by omega)
  refine ⟨?_, ?_⟩
  · rw [next.toCount (by omega), counted]
    rfl
  · rw [same, counted]
    exact fold_key_eq_iff.mp rfl

theorem nodup_arrayKeys {a : Int} {n : Nat} (whole : x.IsInt a) (fits : Fits a n) :
    (arrayKeys x n).Nodup := by
  have element (i : Nat) (mem : i ∈ List.range' 0 n) := isInt_element i whole fits (by
    obtain ⟨_, within, rfl⟩ := List.mem_range'.mp mem
    omega)
  refine List.nodup_cons.mpr ⟨?_, ?_⟩
  · intro mem
    obtain ⟨i, mem, same⟩ := List.mem_map.mp mem
    have := (element i mem).key_injective whole same
    omega
  · refine List.Nodup.map_on ?_ (List.nodup_range' ..)
    intro i mem j mem' same
    have := (element i mem).key_injective (element j mem') same
    omega

def added (s : Session) (x value : Number) : Session :=
  ((s.readVariable x.key).2.setVariable x.key ((s.valueOf x.key).add one)).setVariable
    (x.add ((s.valueOf x.key).add one)).key value

theorem valueOf_added (s : Session) (x value : Number) (name : String) :
    (s.added x value).valueOf name =
      if Text.fold (x.add ((s.valueOf x.key).add one)).key = Text.fold name then value
      else if Text.fold x.key = Text.fold name then (s.valueOf x.key).add one else s.valueOf name := by
  rw [added, valueOf_setVariable, valueOf_setVariable, valueOf_readVariable]

section Apart

variable (apart : (arrayKeys x (s.count x + 1)).Nodup)
include apart

theorem element_ne_length {i : Nat} (within : i < s.count x + 1) :
    Text.fold (elementKey x i) ≠ Text.fold x.key := by
  intro same
  refine (List.nodup_cons.mp apart).1 (List.mem_map.mpr ⟨i, ?_, fold_key_injective same⟩)
  exact List.mem_range'_1.mpr ⟨Nat.zero_le i, by omega⟩

theorem element_ne_element {i j : Nat} (within : i < s.count x + 1) (within' : j < s.count x + 1)
    (other : i ≠ j) : Text.fold (elementKey x i) ≠ Text.fold (elementKey x j) := by
  intro same
  refine other (List.inj_on_of_nodup_map (List.nodup_cons.mp apart).2 ?_ ?_ (fold_key_injective same))
  · exact List.mem_range'_1.mpr ⟨Nat.zero_le i, by omega⟩
  · exact List.mem_range'_1.mpr ⟨Nat.zero_le j, by omega⟩

theorem appended_added (grows : s.GrowsByOne x) (value : Number) :
    s.Appended (s.added x value) x value := by
  have cell : Text.fold (x.add ((s.valueOf x.key).add one)).key = Text.fold (elementKey x (s.count x)) :=
    fold_key_eq_iff.mpr grows.cell
  have behind := element_ne_length apart (Nat.lt_succ_self _)
  have length : (s.added x value).valueOf x.key = (s.valueOf x.key).add one := by
    rw [valueOf_added, cell, if_neg behind, if_pos rfl]
  have kept (name : String) (other : Text.fold name ≠ Text.fold x.key)
      (other' : Text.fold name ≠ Text.fold (elementKey x (s.count x))) :
      (s.added x value).valueOf name = s.valueOf name := by
    rw [valueOf_added, cell, if_neg other'.symm, if_neg other.symm]
  refine ⟨fun values reads => ?_, kept⟩
  obtain rfl := reads.unique (s.readsArray_elements x)
  have last : (s.added x value).valueOf (elementKey x (s.count x)) = value := by
    rw [valueOf_added, if_pos cell]
  have elements : (s.added x value).elements x = s.elements x ++ [value] := by
    rw [elements, count, length, grows.count, elements, elementsFrom, elementsFrom, List.range'_1_concat,
      List.map_append, List.map_singleton, Nat.zero_add, last]
    congr 1
    refine List.map_congr_left fun i mem => ?_
    have within : i < s.count x := by
      have := List.mem_range'_1.mp mem
      omega
    exact kept _ (element_ne_length apart (by omega))
      (element_ne_element apart (by omega) (by omega) (by omega))
  exact readsArray_of_eq elements

theorem growsByOne_of_appended (appends : ∀ value, s.Appended (s.added x value) x value) :
    s.GrowsByOne x := by
  have counts (value : Number) : (s.added x value).count x = s.count x + 1 := by
    have same := ((appends value).reads _ (s.readsArray_elements x)).unique (readsArray_elements _ x)
    have lengths := congrArg List.length same
    rw [List.length_append, List.length_singleton, length_elements, length_elements] at lengths
    exact lengths.symm
  have behind := element_ne_length apart (Nat.lt_succ_self _)
  have elsewhere : Text.fold (x.add ((s.valueOf x.key).add one)).key ≠ Text.fold x.key := by
    intro same
    have none := counts zero
    rw [count, valueOf_added, if_pos same, show zero.toCount = 0 by decide +kernel] at none
    omega
  have cell : Text.fold (x.add ((s.valueOf x.key).add one)).key = Text.fold (elementKey x (s.count x)) := by
    by_contra other
    -- The value that is written differs from the one before.
    obtain ⟨value, differs⟩ : ∃ value, value ≠ s.valueOf (x.add ((s.valueOf x.key).add one)).key := by
      by_cases none : s.valueOf (x.add ((s.valueOf x.key).add one)).key = zero
      · exact ⟨one, by rw [none]; decide⟩
      · exact ⟨zero, Ne.symm none⟩
    have kept := (appends value).kept _ elsewhere other
    rw [valueOf_added, if_pos rfl] at kept
    exact differs kept
  refine ⟨?_, fold_key_eq_iff.mp cell⟩
  have counted := counts zero
  rwa [count, valueOf_added, if_neg elsewhere, if_pos rfl] at counted

end Apart

end Session

section Add

variable {setting : Setting} {frame : FrameId} {s : Session} {x value : Number}
  (standard : setting.registry = .standard)
include standard

theorem eventually_addTo {arg : Expr} (given : setting.Gives frame s arg value) (x : Number) :
    Eval.Eventually (setting.solve · (.call "add" [cellAt x, arg]) frame) s (.ok value)
      (s.added x value) := by
  have found : setting.registry.find? "add" = some ⟨.exact 2, Builtin.add⟩ :=
    find_of_memoryTable standard (by simp [Builtin.memoryTable])
  have adds : Eval.Eventually (fun fuel => CellArray.add (setting.machineAt fuel) (cellAt x) value frame) s
      (.ok value) (s.added x value) :=
    (Place.eventually_address x).andThen ((Eval.Costs.eventually fun _ => costs_readValue _ _ x).andThen
      ((Eval.Costs.eventually fun _ => costs_writeCell _ x _).andThen
        ((Eval.Costs.eventually fun _ => costs_writeCell _ _ value).andThen (Eval.eventually_pure value _))))
  exact eventually_call found rfl (given.andThen adds)

/-- `add` always succeeds. At an address whose cells have names of their own it appends every value if and
only if the length grows by one, and whole lengths do. -/
theorem add_appends (apart : (arrayKeys x (s.count x + 1)).Nodup) :
    (∀ value arg, setting.Gives frame s arg value →
      ∃ t, Eval.Eventually (setting.solve · (.call "add" [cellAt x, arg]) frame) s (.ok value) t) ∧
    ((∀ value arg t, setting.Gives frame s arg value →
        Eval.Eventually (setting.solve · (.call "add" [cellAt x, arg]) frame) s (.ok value) t →
          s.Appended t x value) ↔ s.GrowsByOne x) ∧
    ∀ n : Nat, n + 1 < 2 ^ 53 → (s.valueOf x.key).IsInt n → s.GrowsByOne x := by
  refine ⟨fun value arg given => ⟨_, eventually_addTo standard given x⟩, ⟨fun appends => ?_, ?_⟩,
    fun n small whole => growsByOne_whole small whole⟩
  · refine growsByOne_of_appended apart fun value => ?_
    exact appends value _ _ (gives_constant value) (eventually_addTo standard (gives_constant value) x)
  · intro grows value arg t given adds
    obtain ⟨-, rfl⟩ := adds.unique (eventually_addTo standard given x)
    exact appended_added apart grows value

end Add

/-- A third element. -/
theorem add_appends_third :
    let setting : Setting := ⟨.standard, true⟩
    let s := ((Engine.new .standard (.withInput .buffer [])).session.push .main).setVariable "0" (.ofNat 2)
    let seven := Number.ofNat 7
    (arrayKeys zero (s.count .zero + 1)).Nodup ∧
      ∃ t, Eval.Eventually (setting.solve · (.call "add" [cellAt .zero, .constant seven]) 0) s (.ok seven) t ∧
        s.Appended t .zero seven := by
  intro setting s seven
  have length : s.valueOf zero.key = .ofNat 2 := by decide +kernel
  have two : (s.valueOf zero.key).IsInt (2 : Nat) := length.symm ▸ isInt_ofNat (by decide)
  have counted : s.count .zero = 2 := by decide +kernel
  have apart : (arrayKeys zero (s.count .zero + 1)).Nodup := by
    rw [counted]
    exact nodup_arrayKeys isInt_zero ⟨by decide, by decide, by decide⟩
  obtain ⟨succeeds, appends, grows⟩ := @add_appends setting 0 s .zero rfl apart
  obtain ⟨t, adds⟩ := succeeds seven _ (gives_constant seven)
  exact ⟨apart, t, adds, appends.mpr (grows 2 (by decide) two) seven _ t (gives_constant seven) adds⟩

/-- With minus one as the length, the value that is appended becomes the length. -/
theorem add_after_malloc_not_appended :
    let setting : Setting := ⟨.standard, true⟩
    let s : Session := ⟨∅, ∅, #[.main], .withInput .buffer []⟩
    let seven := Number.ofNat 7
    ∃ t u, Eval.Eventually (setting.solve · (.call "malloc" [cellAt .zero, .constant .negativeOne]) 0) s
        (.ok .negativeOne) t ∧
      Eval.Eventually (setting.solve · (.call "add" [cellAt .zero, .constant seven]) 0) t (.ok seven) u ∧
      t.ReadsArray .zero [] ∧ u.ReadsArray .zero (List.replicate 7 .zero) ∧ ¬u.ReadsArray .zero [seven] := by
  intro setting s seven
  have standard : setting.registry = .standard := rfl
  have found : setting.registry.find? "malloc" = some ⟨.exact 2, Builtin.malloc⟩ :=
    find_of_memoryTable standard (by simp [Builtin.memoryTable])
  let t := s.setVariable zero.key .negativeOne
  have mallocs : Eval.Eventually (fun fuel => Builtin.malloc (setting.machineAt fuel)
      [cellAt .zero, .constant .negativeOne] 0) s (.ok .negativeOne) t :=
    (gives_constant negativeOne).andThen ((Place.eventually_address zero).andThen
      ((Eval.Costs.eventually fun _ => costs_writeCell _ zero _).andThen (Eval.eventually_pure _ _)))
  have before : t.elements .zero = [] := by decide +kernel
  have after : (t.added .zero seven).elements .zero = List.replicate 7 .zero := by decide +kernel
  have reads := readsArray_of_eq after
  refine ⟨t, _, eventually_call found rfl mallocs, eventually_addTo standard (gives_constant seven) .zero,
    readsArray_of_eq before, reads, fun other => ?_⟩
  have lengths := congrArg List.length (reads.unique other)
  rw [List.length_replicate, List.length_singleton] at lengths
  cases lengths

end Calculator
