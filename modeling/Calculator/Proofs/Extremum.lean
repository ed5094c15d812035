import Calculator.Proofs.Arrays.Rewriting
import Calculator.Proofs.Ends

/-!
The greatest and the least of a list.

Both fold the list from the infinity at the other end, and pass over NaNs. So the result is one of the numbers
in the list, and where it has none, the infinity that the fold starts from.
-/

namespace Calculator

open Number Session

inductive Extremum where
  | max
  | min

namespace Extremum

variable (f : Extremum) {x y acc r : Number} {values others : List Number}

def name : Extremum → String
  | max => "max"
  | min => "min"

def reduce : Extremum → List Number → Number
  | max => Reduce.max
  | min => Reduce.min

def start : Extremum → Number
  | max => negativeInfinity
  | min => infinity

def pick : Extremum → Number → Number → Number
  | max => Number.max
  | min => Number.min

/-- The first number is greater than the second one, or less where the least one is wanted. -/
def beyond : Extremum → Number → Number → Bool
  | max, x, y => y.less x
  | min, x, y => x.less y

/-- How far a number is to the end that is wanted. -/
def place : Extremum → Number → Int
  | max, x => x.position
  | min, x => -x.position

theorem reduce_eq (values : List Number) : f.reduce values = values.foldl f.pick f.start := by
  cases f <;> rfl

theorem beyond_iff : f.beyond x y ↔ ¬x.isNaN ∧ ¬y.isNaN ∧ f.place y < f.place x := by
  cases f with
  | max =>
      simp only [beyond, place, less, Bool.and_eq_true, Bool.not_eq_true', decide_eq_true_eq,
        Bool.not_eq_true, and_assoc, and_left_comm]
  | min =>
      simp only [beyond, place, less, Bool.and_eq_true, Bool.not_eq_true', decide_eq_true_eq,
        Bool.not_eq_true, and_assoc, Int.neg_lt_neg_iff]

theorem pick_eq (x y : Number) : f.pick x y = if y.isNaN then x else if f.beyond x y then x else y := by
  cases f <;> rfl

theorem number_start : ¬f.start.isNaN := by cases f <;> decide

theorem place_start_le (number : ¬x.isNaN) : f.place f.start ≤ f.place x := by
  have bound : x.pattern ≤ infinityPattern := by
    simpa only [isNaN, decide_eq_true_eq, Nat.not_lt] using number
  have size := x.natAbs_position
  have least : negativeInfinity.position = -(infinityPattern : Int) := rfl
  have greatest : infinity.position = (infinityPattern : Int) := rfl
  cases f with
  | max =>
      rw [place, place, start, least]
      omega
  | min =>
      rw [place, place, start, greatest]
      omega

/-- One of the numbers, or the one that was there before, is as far as any of them. -/
structure Chosen (acc : Number) (values : List Number) (r : Number) : Prop where
  number : ¬r.isNaN
  before : f.place acc ≤ f.place r
  most : ∀ v ∈ values, ¬v.isNaN → f.place v ≤ f.place r
  mem : r = acc ∨ r ∈ values

theorem chosen_pick (number : ¬acc.isNaN) (v : Number) : f.Chosen acc [v] (f.pick acc v) := by
  rw [pick_eq]
  split
  · rename_i nan
    exact ⟨number, Int.le_refl _, List.forall_mem_singleton.mpr fun number' => absurd nan number', .inl rfl⟩
  · rename_i number'
    split
    · rename_i beyond
      have less := (f.beyond_iff.mp beyond).2.2
      exact ⟨number, Int.le_refl _, List.forall_mem_singleton.mpr fun _ => Int.le_of_lt less, .inl rfl⟩
    · rename_i not
      have le : f.place acc ≤ f.place v :=
        Int.not_lt.mp fun less => not (f.beyond_iff.mpr ⟨number, number', less⟩)
      exact ⟨number', le, List.forall_mem_singleton.mpr fun _ => Int.le_refl _, .inr List.mem_cons_self⟩

theorem Chosen.append {f : Extremum} {b : Number} (first : f.Chosen acc values b) (next : f.Chosen b others r) :
    f.Chosen acc (values ++ others) r where
  number := next.number
  before := Int.le_trans first.before next.before
  most v mem number := by
    rcases List.mem_append.mp mem with mem | mem
    · exact Int.le_trans (first.most v mem number) next.before
    · exact next.most v mem number
  mem := by
    rcases next.mem with rfl | mem
    · exact first.mem.imp_right (List.mem_append_left _)
    · exact .inr (List.mem_append_right _ mem)

theorem chosen_fold (number : ¬acc.isNaN) (values : List Number) :
    f.Chosen acc values (values.foldl f.pick acc) := by
  induction values generalizing acc with
  | nil => exact ⟨number, Int.le_refl _, List.forall_mem_nil _, .inl rfl⟩
  | cons v values ih =>
      have first := f.chosen_pick number v
      exact first.append (ih first.number)

theorem fold_nans (nans : ∀ v ∈ values, v.isNaN) (acc : Number) : values.foldl f.pick acc = acc := by
  induction values with
  | nil => rfl
  | cons v values ih =>
      obtain ⟨nan, others⟩ := List.forall_mem_cons.mp nans
      rw [List.foldl_cons, pick_eq, if_pos nan]
      exact ih others

theorem not_beyond_reduce (values : List Number) : ∀ v ∈ values, ¬f.beyond v (f.reduce values) := by
  intro v mem beyond
  rw [reduce_eq] at beyond
  obtain ⟨number, -, further⟩ := f.beyond_iff.mp beyond
  exact absurd ((f.chosen_fold f.number_start values).most v mem number) (Int.not_le.mpr further)

theorem exists_equal_reduce (some : ∃ v ∈ values, ¬v.isNaN) : ∃ v ∈ values, v.equal (f.reduce values) := by
  obtain ⟨v, mem, number⟩ := some
  have chosen := f.chosen_fold f.number_start values
  rw [reduce_eq]
  generalize values.foldl f.pick f.start = r at chosen
  have notNaN {x : Number} (number : ¬x.isNaN) : x.isNaN = false := Bool.eq_false_iff.mpr number
  rcases chosen.mem with rfl | mem'
  · -- The start is only left where the number is the same infinity.
    have same : f.place v = f.place f.start :=
      Int.le_antisymm (chosen.most v mem number) (f.place_start_le number)
    refine ⟨v, mem, equal_iff.mpr ⟨notNaN number, notNaN chosen.number, ?_⟩⟩
    cases f with
    | max => exact same
    | min => exact Int.neg_inj.mp same
  · exact ⟨r, mem', equal_iff.mpr ⟨notNaN chosen.number, notNaN chosen.number, rfl⟩⟩

theorem reduce_nans (nans : ∀ v ∈ values, v.isNaN) : f.reduce values = f.start := by
  rw [reduce_eq, fold_nans f nans]

end Extremum

section Given

variable {setting : Setting} {frame : FrameId} {s t : Session} {args : List Expr} {values : List Number}

inductive SolvesAll (setting : Setting) (frame : FrameId) : List Expr → Session → List Number → Session → Prop
  | nil {s : Session} : SolvesAll setting frame [] s [] s
  | cons {s t u : Session} {arg : Expr} {args : List Expr} {v : Number} {values : List Number}
    (solves : Eval.Ends (setting.solve · arg frame) s (.ok v) t)
    (others : SolvesAll setting frame args t values u) :
    SolvesAll setting frame (arg :: args) s (v :: values) u

theorem PointsTo.eventually_values {expr : Expr} {p : Pointer} {x : Number} {keys : List String}
    (points : PointsTo setting frame expr p x keys s) (shown : p.Shows s x values) (others : List Expr) :
    ∃ t, Eval.Eventually (fun fuel => Argument.values (setting.machineAt fuel) (expr :: others) frame) s
      (.ok values) t ∧ s.SameValues t := by
  obtain ⟨t, lists, same⟩ := points.eventually_toList shown
  exact ⟨t, points.eventually_pointsToMemory.andThen lists, same⟩

variable (standard : setting.registry = .standard)
include standard

theorem grows_values (args : List Expr) (frame : FrameId) :
    Eval.Grows fun fuel => Argument.values (setting.machineAt fuel) args frame :=
  grows_of_related standard fun _ _ _ _ h => h.values (List.forall₂_same.mpr fun _ _ => rfl) rfl

theorem grows_solveAll (args : List Expr) (frame : FrameId) :
    Eval.Grows fun fuel => Argument.solveAll (setting.machineAt fuel) args frame :=
  grows_of_related standard fun _ _ _ _ h => h.solveAll (List.forall₂_same.mpr fun _ _ => rfl) rfl

theorem SolvesAll.ends (solves : SolvesAll setting frame args s values t) :
    Eval.Ends (fun fuel => Argument.solveAll (setting.machineAt fuel) args frame) s (.ok values) t := by
  have grows (args : List Expr) := grows_solveAll standard args frame
  induction solves with
  | nil => exact Eval.ends_pure [] _
  | @cons s t u arg args v values first _ ih =>
      simp only [Argument.solveAll, List.mapM_cons]
      have rest := (grows args).andThen fun values => Eval.grows_pure (v :: values)
      refine first.andThen (grows_solve standard arg frame) rest ?_
      exact ih.andThen (grows args) (Eval.grows_pure _) (Eval.ends_pure (v :: values) u)

theorem SolvesAll.ends_values {first : Expr} {others : List Expr}
    (solves : SolvesAll setting frame (first :: others) s values t)
    (plain : Eval.Ends (fun fuel => (setting.machineAt fuel).pointsToMemory first frame) s (.ok false) s) :
    Eval.Ends (fun fuel => Argument.values (setting.machineAt fuel) (first :: others) frame) s (.ok values)
      t := by
  have grows : Eval.Grows fun fuel => (setting.machineAt fuel).pointsToMemory first frame :=
    grows_of_related standard fun _ _ _ _ h => h.pointsToMemory rfl rfl
  refine Eval.Ends.andThen grows ?_ plain (solves.ends standard)
  exact grows_solveAll standard (first :: others) frame

theorem ends_extremum (f : Extremum) (nonempty : values ≠ [])
    (given : Eval.Ends (fun fuel => Argument.values (setting.machineAt fuel) args frame) s (.ok values) t) :
    Eval.Ends (setting.solve · (.call f.name args) frame) s (.ok (f.reduce values)) t := by
  have found : setting.registry.find? f.name = some ⟨.atLeast 1, Builtin.reduceSome f.name f.reduce⟩ := by
    cases f with
    | max | min =>
        exact find_of_standard standard (by simp [Builtin.standardTable, Builtin.reduceTable, Extremum.name,
          Extremum.reduce]) (by decide +kernel)
  have some : args ≠ [] := by
    rintro rfl
    have none := (Eval.ends_pure_iff.mp given).1
    exact nonempty (Except.ok.inj none)
  have chooses : (if values.isEmpty then Argument.refuse f.name "cannot reduce an empty list"
      else return f.reduce values : Eval Number) = pure (f.reduce values) := by
    rw [List.isEmpty_eq_false_iff.mpr nonempty]
    rfl
  refine (ends_handler_iff found (decide_eq_true (List.length_pos_iff.mpr some))).mpr ?_
  refine given.andThen (grows_values standard args frame) ?_ ?_
  · rw [chooses]
    exact Eval.grows_pure _
  · rw [chooses]
    exact Eval.ends_pure _ t

/-- The greatest and the least of a list that is not empty have no number of the list beyond them. They are
equal to one of the numbers, and so in the list, exactly if there are numbers in it; where there are only NaNs,
they are the infinity that the fold starts from. -/
theorem extremum_of_list (f : Extremum) (nonempty : values ≠ [])
    (given : Eval.Ends (fun fuel => Argument.values (setting.machineAt fuel) args frame) s (.ok values) t) :
    ∃ r, Eval.Ends (setting.solve · (.call f.name args) frame) s (.ok r) t ∧
      (∀ v ∈ values, ¬f.beyond v r) ∧
      ((∃ v ∈ values, v.equal r) ∨ (r.isNaN ∧ ∀ v ∈ values, v.isNaN) ↔ ∃ v ∈ values, ¬v.isNaN) ∧
      ((∀ v ∈ values, v.isNaN) → r = f.start) := by
  refine ⟨f.reduce values, ends_extremum standard f nonempty given, f.not_beyond_reduce values, ?_,
    f.reduce_nans⟩
  refine ⟨?_, fun some => .inl (f.exists_equal_reduce some)⟩
  rintro (⟨v, mem, equal⟩ | ⟨nan, nans⟩)
  · exact ⟨v, mem, Bool.eq_false_iff.mp (equal_iff.mp equal).1⟩
  · rw [f.reduce_nans nans] at nan
    exact absurd nan f.number_start

end Given

/-- The least of an array with NaNs of both signs. -/
theorem extremum_of_list_array :
    let setting : Setting := ⟨.standard, true⟩
    let values := [nan, one, negativeOne, invalid]
    let p : Pointer := ⟨.global, .constant one, 0⟩
    let s := p.setCells ((Engine.new .standard (.withInput .buffer [])).session.push .main)
      (arrayCells one values)
    setting.registry = .standard ∧ values ≠ [] ∧
      ∃ t, Eval.Ends (fun fuel => Argument.values (setting.machineAt fuel) [cellAt one] 0) s (.ok values) t ∧
        ∃ r, Eval.Ends (setting.solve · (.call "min" [cellAt one]) 0) s (.ok r) t ∧
          (∀ v ∈ values, ¬v.less r) ∧ ∃ v ∈ values, v.equal r := by
  intro setting values p s
  have standard : setting.registry = .standard := rfl
  have nonempty : values ≠ [] := nofun
  have apart : (arrayKeys one values.length).Nodup := by decide +kernel
  have array : p.HasArray s one values := p.hasArray_setCells apart nofun
  have points : PointsTo setting 0 (cellAt one) p one [] s :=
    pointsTo_of_gives rfl fun _ _ => gives_constant one
  obtain ⟨t, given, -⟩ := points.eventually_values array.toShows []
  obtain ⟨r, calls, beyond, found, -⟩ := extremum_of_list standard .min nonempty given.ends
  have number : ∃ v ∈ values, ¬v.isNaN := ⟨one, by decide, by decide⟩
  rcases found.mpr number with equal | ⟨-, nans⟩
  · exact ⟨standard, nonempty, t, given.ends, r, calls, beyond, equal⟩
  · exact absurd (nans one (by decide)) (by decide)

/-- The greatest of nothing but a NaN is negative infinity, which is not in the list. -/
theorem greatest_of_nan :
    let setting : Setting := ⟨.standard, true⟩
    let s := (Engine.new .standard (.withInput .buffer [])).session.push .main
    Eval.Ends (fun fuel => Argument.values (setting.machineAt fuel) [.constant nan] 0) s (.ok [nan]) s ∧
      Eval.Ends (setting.solve · (.call "max" [.constant nan]) 0) s (.ok negativeInfinity) s ∧
      (∀ v ∈ [nan], v.isNaN) ∧ ¬negativeInfinity.isNaN ∧ ¬∃ v ∈ [nan], v.equal negativeInfinity := by
  intro setting s
  have standard : setting.registry = .standard := rfl
  have solves : SolvesAll setting 0 [.constant nan] s [nan] s := .cons (gives_constant nan).ends .nil
  have given := solves.ends_values standard (Eval.ends_pure false s)
  have calls := ends_extremum standard .max (List.cons_ne_nil nan []) given
  have start : Extremum.reduce .max [nan] = negativeInfinity := by decide
  rw [start] at calls
  exact ⟨given, calls, by decide, by decide, by decide⟩

end Calculator
