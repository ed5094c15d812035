import Calculator.Proofs.Number.Whole
import Calculator.Text.Fold
import Calculator.Text.Letter

/-! The names of numeric cells. Each address has one of its own, which no name that starts with a letter
has, but for infinity and what is not a number: their cells are the variables `inf` and `nan`. -/

namespace Calculator

namespace Text

theorem lowerChar_low {c : Char} (low : c.toNat < 0x41) : lowerChar c = [c] := by
  have other : c ≠ '\u0130' := by
    rintro rfl
    revert low
    decide
  rw [lowerChar, if_neg other, capitalRuns, runOf?, if_pos low]

theorem fold_low {text : List Char} (low : ∀ c ∈ text, c.toNat < 0x41) :
    fold (String.ofList text) = String.ofList text := by
  rw [fold, String.toList_ofList]
  congr 1
  generalize [] = before
  induction text generalizing before with
  | nil => rfl
  | cons c text ih =>
      obtain ⟨here, others⟩ := List.forall_mem_cons.mp low
      have noSigma : c ≠ capitalSigma := by
        rintro rfl
        revert here
        decide
      rw [lowerAfter, if_neg noSigma, lowerChar_low here, ih others]
      rfl

theorem inRanges_le {low code : Nat} {ranges : List (Nat × Nat)} (bound : ∀ range ∈ ranges, low ≤ range.1)
    (inside : inRanges code ranges = true) : low ≤ code := by
  induction ranges with
  | nil => cases inside
  | cons range ranges ih =>
      obtain ⟨here, others⟩ := List.forall_mem_cons.mp bound
      rw [inRanges] at inside
      split at inside
      · cases inside
      · rename_i above
        exact Nat.le_trans here (Nat.le_of_not_lt above)

theorem isLetter_le {c : Char} (letter : isLetter c = true) : 0x41 ≤ c.toNat :=
  inRanges_le (by decide +kernel) letter

theorem of_runOf? {code : Nat} {runs : List CapitalRun} {run : CapitalRun}
    (found : runOf? code runs = some run) : run ∈ runs ∧ run.first ≤ code ∧ code ≤ run.last := by
  induction runs with
  | nil => cases found
  | cons head runs ih =>
      rw [runOf?] at found
      split at found
      · cases found
      split at found
      · rename_i holds
        cases found
        simp only [CapitalRun.holds, Bool.and_eq_true, decide_eq_true_eq] at holds
        exact ⟨.head _, holds.1⟩
      · obtain ⟨mem, bounds⟩ := ih found
        exact ⟨.tail _ mem, bounds⟩

theorem lowered_le {run : CapitalRun} (mem : run ∈ capitalRuns) :
    0x41 ≤ run.first + run.offset ∧ (run.last + run.offset < 0xD800 ∨
      0xDFFF < run.first + run.offset ∧ run.last + run.offset < 0x110000) := by
  have all : ∀ run ∈ capitalRuns, 0x41 ≤ run.first + run.offset ∧ (run.last + run.offset < 0xD800 ∨
      0xDFFF < run.first + run.offset ∧ run.last + run.offset < 0x110000) := by decide +kernel
  exact all run mem

theorem lowerChar_le {c : Char} (high : 0x41 ≤ c.toNat) :
    ∃ first rest, lowerChar c = first :: rest ∧ 0x41 ≤ first.toNat := by
  rw [lowerChar]
  split
  · exact ⟨_, _, rfl, by decide⟩
  split
  · rename_i run found
    refine ⟨_, _, rfl, ?_⟩
    obtain ⟨mem, least, most⟩ := of_runOf? found
    obtain ⟨low, valid⟩ := lowered_le mem
    have valid : ((c.toNat : Int) + run.offset).toNat.isValidChar := by
      unfold Nat.isValidChar
      omega
    have code : (Char.ofNat (c.toNat + run.offset).toNat).toNat = (c.toNat + run.offset).toNat := by
      rw [Char.ofNat, dif_pos valid]
      rfl
    omega
  · exact ⟨c, [], rfl, high⟩

theorem fold_first {name : String} (letter : name.toList.head?.any isLetter = true) :
    ∃ first rest, (fold name).toList = first :: rest ∧ 0x41 ≤ first.toNat := by
  obtain ⟨c, head, letter⟩ := (Option.any_eq_true _ _).mp letter
  obtain ⟨rest, text⟩ := List.head?_eq_some_iff.mp head
  rw [fold, text, String.toList_ofList, lowerAfter]
  split
  · split
    · exact ⟨_, _, rfl, by decide⟩
    · exact ⟨_, _, rfl, by decide⟩
  · obtain ⟨first, others, lowered, high⟩ := lowerChar_le (isLetter_le letter)
    rw [lowered]
    exact ⟨first, _, rfl, high⟩

end Text

namespace Number

theorem digit_low {c : Char} (digit : c.isDigit = true) : c.toNat < 0x41 := by
  simp only [Char.isDigit, Bool.and_eq_true, decide_eq_true_eq] at digit
  have high : c.toNat ≤ 0x39 := UInt32.le_iff_toNat_le.mp digit.2
  omega

theorem toText_abs {x : Number} (finite : x.pattern < infinityPattern) :
    ∃ first rest, x.abs.toText = first :: rest ∧ first.isDigit = true ∧
      (∀ c ∈ x.abs.toText, c.toNat < 0x41) ∧ ofText? x.abs.toText = some x.abs ∧
      x.toText = if x.negative then '-' :: x.abs.toText else x.abs.toText := by
  obtain ⟨whole, fraction, text, nonempty, wholeDigits, fractionDigits, reads⟩ :=
    @toText_eq x.abs finite rfl
  obtain ⟨first, rest, rfl⟩ := List.exists_cons_of_ne_nil nonempty
  refine ⟨first, pointed rest fraction, text, wholeDigits first (.head _), ?_, reads, ?_⟩
  · rw [text]
    intro c mem
    rcases List.mem_append.mp mem with early | late
    · exact digit_low (wholeDigits c early)
    split at late
    · cases late
    rcases List.mem_cons.mp late with rfl | late
    · decide
    · exact digit_low (fractionDigits c late)
  · have number : x.isNaN = false := decide_eq_false (Nat.lt_asymm finite)
    have magnitude : x.abs.toText = textOfPattern x.pattern := by
      rw [toText, if_neg (by rw [show x.abs.isNaN = false from number]; decide)]
      exact if_neg Bool.false_ne_true
    rw [magnitude, toText, if_neg (by rw [number]; decide)]

theorem toText_injective {x y : Number} (finite : x.pattern < infinityPattern)
    (finite' : y.pattern < infinityPattern) (same : x.toText = y.toText) : x = y := by
  obtain ⟨c, rest, text, digit, _, reads, signed⟩ := toText_abs finite
  obtain ⟨d, rest', text', digit', _, reads', signed'⟩ := toText_abs finite'
  have noDigit : '-'.isDigit = false := by decide
  have signs : x.negative = y.negative ∧ x.abs.toText = y.abs.toText := by
    rw [signed, signed'] at same
    cases hx : x.negative with
    | false =>
        cases hy : y.negative with
        | false => simpa [hx, hy] using same
        | true =>
            simp only [hx, hy, Bool.false_eq_true, if_false, if_true, text] at same
            rw [(List.cons.inj same).1, noDigit] at digit
            cases digit
    | true =>
        cases hy : y.negative with
        | true => simpa [hx, hy] using same
        | false =>
            simp only [hx, hy, Bool.false_eq_true, if_false, if_true, text'] at same
            rw [← (List.cons.inj same).1, noDigit] at digit'
            cases digit'
  obtain ⟨negative, texts⟩ := signs
  have pattern : x.pattern = y.pattern := by
    rw [texts, reads'] at reads
    exact (congrArg pattern (Option.some.inj reads)).symm
  obtain ⟨_, _, _⟩ := x
  obtain ⟨_, _, _⟩ := y
  cases negative
  cases pattern
  rfl

theorem toText_low {x : Number} (finite : x.pattern < infinityPattern) :
    ∀ c ∈ x.toText, c.toNat < 0x41 := by
  obtain ⟨_, _, _, _, low, _, signed⟩ := toText_abs finite
  rw [signed]
  split
  · exact List.forall_mem_cons.mpr ⟨by decide, low⟩
  · exact low

theorem key_eq_render (x : Number) : x.key = (if x.isZero then zero else x).render := by
  rw [key]
  split
  · decide
  · rfl

section Cells

variable {x y : Number}

theorem finite_key_low (finite : x.pattern < infinityPattern) : ∀ c ∈ x.key.toList, c.toNat < 0x41 := by
  rw [key]
  split
  · have digit : "0".toList = ['0'] := rfl
    rw [digit]
    exact List.forall_mem_singleton.mpr (by decide)
  · rw [render, String.toList_ofList]
    exact toText_low finite

theorem finite_fold_key (finite : x.pattern < infinityPattern) : Text.fold x.key = x.key := by
  rw [← String.ofList_toList (s := x.key)]
  exact Text.fold_low (finite_key_low finite)

theorem key_nan (nan : x.isNaN = true) : x.key = "NaN" := by
  have nonzero : x.isZero = false := by
    simp only [isNaN, decide_eq_true_eq] at nan
    simp only [isZero, beq_eq_false_iff_ne, ne_eq]
    omega
  rw [key, if_neg (by simp [nonzero]), render, toText, if_pos nan]
  rfl

theorem key_infinity : infinity.key = "inf" := by decide +kernel

theorem key_negativeInfinity : negativeInfinity.key = "-inf" := by decide +kernel

theorem cases_finite (x : Number) :
    x.isNaN = true ∨ x = infinity ∨ x = negativeInfinity ∨ x.pattern < infinityPattern := by
  obtain ⟨negative, pattern, lt⟩ := x
  rcases Nat.lt_trichotomy pattern infinityPattern with finite | rfl | nan
  · exact .inr (.inr (.inr finite))
  · cases negative with
    | false => exact .inr (.inl rfl)
    | true => exact .inr (.inr (.inl rfl))
  · exact .inl (decide_eq_true nan)

/-- How the cell at an address is named. -/
theorem fold_key_cases (x : Number) :
    x.isNaN = true ∧ Text.fold x.key = "nan" ∨ x = infinity ∧ Text.fold x.key = "inf" ∨
      x = negativeInfinity ∧ Text.fold x.key = "-inf" ∨
      x.pattern < infinityPattern ∧ Text.fold x.key = x.key := by
  have nan : Text.fold "NaN" = "nan" := by decide +kernel
  have inf : Text.fold "inf" = "inf" := by decide +kernel
  have negative : Text.fold "-inf" = "-inf" := by decide +kernel
  rcases x.cases_finite with isNaN | rfl | rfl | finite
  · exact .inl ⟨isNaN, by rw [key_nan isNaN, nan]⟩
  · exact .inr (.inl ⟨rfl, by rw [key_infinity, inf]⟩)
  · exact .inr (.inr (.inl ⟨rfl, by rw [key_negativeInfinity, negative]⟩))
  · exact .inr (.inr (.inr ⟨finite, finite_fold_key finite⟩))

theorem position_plain (x : Number) : (if x.isZero then zero else x).position = x.position := by
  split
  · rename_i isZero
    have pattern : x.pattern = 0 := beq_iff_eq.mp isZero
    simp [position, pattern, zero]
  · rfl

theorem position_of_key (finite : x.pattern < infinityPattern) (finite' : y.pattern < infinityPattern)
    (same : x.key = y.key) : x.position = y.position := by
  have plain {z : Number} (finite : z.pattern < infinityPattern) :
      (if z.isZero then zero else z).pattern < infinityPattern := by
    split
    · decide
    · exact finite
  rw [key_eq_render, key_eq_render] at same
  rw [← x.position_plain, ← y.position_plain,
    toText_injective (plain finite) (plain finite') (String.ofList_injective same)]

/-- Two addresses name one cell if they are equal or both not a number. -/
def SameAddress (x y : Number) : Prop := x.equal y = true ∨ x.isNaN = true ∧ y.isNaN = true

theorem equal_iff : x.equal y = true ↔ x.isNaN = false ∧ y.isNaN = false ∧ x.position = y.position := by
  simp only [equal, Bool.and_eq_true, Bool.not_eq_true', beq_iff_eq, and_assoc]

theorem not_isNaN_of_finite (finite : x.pattern < infinityPattern) : x.isNaN = false :=
  decide_eq_false (Nat.lt_asymm finite)

theorem natAbs_position (x : Number) : x.position.natAbs = x.pattern := by
  rw [position]
  split <;> omega

theorem position_neg_iff (nonzero : x.pattern ≠ 0) : x.position < 0 ↔ x.negative = true := by
  rw [position]
  split
  · rename_i negative
    exact iff_of_true (by omega) negative
  · rename_i positive
    exact iff_of_false (by omega) positive

theorem key_of_position (same : x.position = y.position) : x.key = y.key := by
  have patterns : x.pattern = y.pattern := by rw [← x.natAbs_position, same, y.natAbs_position]
  by_cases isZero : x.pattern = 0
  · have plain {z : Number} (pattern : z.pattern = 0) : z.key = "0" := if_pos (beq_iff_eq.mpr pattern)
    rw [plain isZero, plain (patterns ▸ isZero)]
  · have signs : x.negative = y.negative := by
      rw [Bool.eq_iff_iff, ← position_neg_iff isZero, same, position_neg_iff (patterns ▸ isZero)]
    obtain ⟨_, _, _⟩ := x
    obtain ⟨_, _, _⟩ := y
    cases patterns
    cases signs
    rfl

/-- The letters of its name tell whether an address is finite. -/
theorem finite_iff_low : x.pattern < infinityPattern ↔ ∀ c ∈ (Text.fold x.key).toList, c.toNat < 0x41 := by
  constructor
  · intro finite
    rw [finite_fold_key finite]
    exact finite_key_low finite
  · intro low
    rcases x.fold_key_cases with ⟨_, folded⟩ | ⟨_, folded⟩ | ⟨_, folded⟩ | ⟨finite, _⟩
    · rw [folded] at low
      exact absurd (low 'n' (by decide)) (by decide)
    · rw [folded] at low
      exact absurd (low 'n' (by decide)) (by decide)
    · rw [folded] at low
      exact absurd (low 'n' (by decide)) (by decide)
    · exact finite

/-- Cells of one name are those of the same address. -/
theorem fold_key_eq_iff : Text.fold x.key = Text.fold y.key ↔ x.SameAddress y := by
  constructor
  · intro same
    by_cases finite : x.pattern < infinityPattern
    · have finite' : y.pattern < infinityPattern := finite_iff_low.mpr (same ▸ finite_iff_low.mp finite)
      rw [finite_fold_key finite, finite_fold_key finite'] at same
      exact .inl (equal_iff.mpr ⟨not_isNaN_of_finite finite, not_isNaN_of_finite finite',
        position_of_key finite finite' same⟩)
    · have infinite' : ¬y.pattern < infinityPattern := fun finite' =>
        finite (finite_iff_low.mpr (same ▸ finite_iff_low.mp finite'))
      rcases x.fold_key_cases with ⟨nan, folded⟩ | ⟨rfl, folded⟩ | ⟨rfl, folded⟩ | ⟨finite', _⟩
      all_goals
        rcases y.fold_key_cases with ⟨nan', folded'⟩ | ⟨rfl, folded'⟩ | ⟨rfl, folded'⟩ | ⟨finite', _⟩
        all_goals
          first
            | exact .inr ⟨nan, nan'⟩
            | exact .inl (by decide)
            | exact absurd finite' (by assumption)
            | exact absurd (folded.symm.trans (same.trans folded')) (by decide)
  · rintro (equal | ⟨nan, nan'⟩)
    · rw [key_of_position (equal_iff.mp equal).2.2]
    · rw [key_nan nan, key_nan nan']

theorem fold_key_injective (same : Text.fold x.key = Text.fold y.key) : x.key = y.key := by
  rcases fold_key_eq_iff.mp same with equal | ⟨nan, nan'⟩
  · exact key_of_position (equal_iff.mp equal).2.2
  · rw [key_nan nan, key_nan nan']

theorem fold_name_eq_iff {name : String} (letter : name.toList.head?.any Text.isLetter = true) :
    Text.fold name = Text.fold x.key ↔
      x = infinity ∧ Text.fold name = "inf" ∨ x.isNaN = true ∧ Text.fold name = "nan" := by
  obtain ⟨first, rest, text, high⟩ := Text.fold_first letter
  rcases x.fold_key_cases with ⟨nan, folded⟩ | ⟨rfl, folded⟩ | ⟨rfl, folded⟩ | ⟨finite, folded⟩
  · have notInfinity : x ≠ infinity := by
      rintro rfl
      cases nan
    rw [folded]
    simp [nan, notInfinity]
  · have number : infinity.isNaN = false := by decide
    rw [folded]
    simp [number]
  · have number : negativeInfinity.isNaN = false := by decide
    have signed : negativeInfinity ≠ infinity := by decide
    have apart : Text.fold name ≠ "-inf" := by
      intro same
      rw [same] at text
      cases text
      exact absurd high (by decide)
    rw [folded]
    simp [number, signed, apart]
  · have number : x.isNaN = false := not_isNaN_of_finite finite
    have notInfinity : x ≠ infinity := by
      rintro rfl
      exact absurd finite (by decide)
    have apart : Text.fold name ≠ x.key := by
      intro same
      have low := finite_key_low finite first (by rw [← same, text]; exact .head _)
      omega
    rw [folded]
    simp [number, notInfinity, apart]

end Cells

namespace IsInt

variable {x y : Number} {i j : Int}

theorem plain (whole : x.IsInt i) : (if x.isZero then zero else x).IsInt i := by
  split
  · rename_i isZero
    rw [whole.isZero_iff.mp isZero]
    exact isInt_zero
  · exact whole

theorem fold_key (whole : x.IsInt i) : Text.fold x.key = x.key := finite_fold_key whole.finite

theorem key_low (whole : x.IsInt i) : ∀ c ∈ x.key.toList, c.toNat < 0x41 := finite_key_low whole.finite

theorem key_injective (whole : x.IsInt i) (other : y.IsInt j) (same : x.key = y.key) : i = j := by
  rw [key_eq_render, key_eq_render] at same
  have equal := toText_injective whole.plain.finite other.plain.finite (String.ofList_injective same)
  have units : i * (unitsInOne : Int) = j * unitsInOne := by
    rw [← whole.plain.units_eq, ← other.plain.units_eq, equal]
  exact Int.eq_of_mul_eq_mul_right unitsInOne_cast_pos.ne' units

end IsInt

end Number

end Calculator
