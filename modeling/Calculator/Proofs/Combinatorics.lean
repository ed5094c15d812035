import Calculator.Proofs.Arrays.Text
import Calculator.Proofs.Ends
import Mathlib.Data.Nat.Choose.Basic
import Mathlib.Data.Nat.Factorial.Basic

/-!
Factorials, ordered and unordered selections.

Factorials and ordered selections are products over a range of whole numbers, formed factor by factor. No
factor makes the product smaller, so that it is too large on the way if and only if it is too large in the
end. The unordered selections are what is left of the ordered ones when they are divided, so that they can be
few where the ordered ones are too many.
-/

namespace Calculator

open Number
open scoped Nat

namespace Builtin

theorem productFrom?_eq {first start : Nat} (positive : 0 < first) (small : start ≤ largestInteger)
    (count : Nat) :
    productFrom? first count start =
      if start * first.ascFactorial count ≤ largestInteger then some (start * first.ascFactorial count)
      else none := by
  induction count generalizing first start with
  | zero => rw [productFrom?, Nat.ascFactorial_zero, Nat.mul_one, if_pos small]
  | succ count ih =>
      have product : start * first * (first + 1).ascFactorial count =
          start * first.ascFactorial (count + 1) := by
        rw [Nat.mul_assoc, Nat.succ_ascFactorial, Nat.ascFactorial_succ]
      rw [productFrom?, ← product]
      split
      · rename_i fits
        exact ih (Nat.succ_pos first) fits
      · rename_i large
        refine (if_neg fun fits => large (Nat.le_trans ?_ fits)).symm
        exact Nat.le_mul_of_pos_right _ (Nat.ascFactorial_pos first count)

theorem productFrom?_part {first part count : Nat} (positive : 0 < first) (le : part ≤ count)
    (fits : first.ascFactorial count ≤ largestInteger) :
    productFrom? first part 1 = some (first.ascFactorial part) := by
  obtain ⟨others, rfl⟩ := Nat.exists_eq_add_of_le le
  obtain ⟨before, more⟩ : ∃ before, first + part = before + 1 := ⟨first + part - 1, by omega⟩
  have whole : first.ascFactorial part ≤ first.ascFactorial (part + others) := by
    rw [← Nat.ascFactorial_mul_ascFactorial, more]
    exact Nat.le_mul_of_pos_right _ (Nat.ascFactorial_pos before others)
  rw [productFrom?_eq positive (by decide), Nat.one_mul, if_pos (Nat.le_trans whole fits)]

/-- A result that is the number where that is defined and has 64 bits. -/
inductive ExactOrFault (function : String) (defined : Prop) (value : Nat) :
    Except RuntimeError Nat → Prop
  | exact (there : defined) (fits : value ≤ largestInteger) : ExactOrFault function defined value (.ok value)
  | refused (missing : ¬defined) (message : String) :
    ExactOrFault function defined value (.error (.evaluation function message))
  | overflow (there : defined) (large : largestInteger < value) (message : String) :
    ExactOrFault function defined value (.error (.host message))

def give {α : Type} : Except RuntimeError α → Eval α
  | .ok a => return a
  | .error error => throw error

def fitting (function : String) (value : Nat) : Except RuntimeError Nat :=
  if value ≤ largestInteger then .ok value
  else .error (.host ("Arithmetic overflow in \"" ++ function ++ "\"."))

section Give

variable {function : String} {defined : Prop} {value : Nat}

theorem exactOrFault_fitting (there : defined) : ExactOrFault function defined value (fitting function value) := by
  rw [fitting]
  split
  · rename_i fits
    exact .exact there fits
  · rename_i large
    exact .overflow there (Nat.lt_of_not_le large) _

theorem give_refuse (missing : ¬defined) (message : String) :
    ∃ r, Argument.refuse function message = give r ∧ ExactOrFault function defined value r :=
  ⟨_, rfl, .refused missing message⟩

theorem give_product :
    (match if value ≤ largestInteger then some value else none with
      | some product => return product
      | none => overflow function) = give (fitting function value) := by
  rw [fitting]
  by_cases fits : value ≤ largestInteger
  · rw [if_pos fits, if_pos fits]
    rfl
  · rw [if_neg fits, if_neg fits]
    rfl

theorem give_map {α β : Type} (f : α → β) (r : Except RuntimeError α) :
    (give r >>= fun a => return f a) = give (r.map f) := by
  cases r <;> rfl

end Give

theorem factorialOf_natCast (function : String) (n : Nat) :
    factorialOf function n = give (fitting function n !) := by
  have factors : Nat.ascFactorial 2 (n - 1) = n ! := by
    rw [Nat.ascFactorial_eq_div 1, Nat.factorial_one, Nat.div_one]
    -- The empty product is the factorial of zero and of one.
    rcases Nat.eq_zero_or_pos n with rfl | some
    · rfl
    · rw [Nat.add_sub_cancel' some]
  rw [factorialOf, if_neg (by omega), Int.toNat_natCast, productFrom?_eq (by decide) (by decide), Nat.one_mul,
    factors]
  exact give_product

theorem fallingProduct_natCast (function : String) {n k : Nat} (positive : 0 < n) (le : k ≤ n) :
    fallingProduct function n k = give (fitting function (n.descFactorial k)) := by
  have factors : (n - k + 1).ascFactorial k = n.descFactorial k := by
    rw [← Nat.add_descFactorial_eq_ascFactorial, Nat.sub_add_cancel le]
  rw [fallingProduct, if_neg (by omega), if_neg (by omega), if_neg (by omega),
    show ((n : Int) - k + 1).toNat = n - k + 1 by omega, Int.toNat_natCast,
    productFrom?_eq (by omega) (by decide), Nat.one_mul, factors]
  exact give_product

theorem give_factorialOf (function : String) (n : Int) :
    ∃ r, factorialOf function n = give r ∧ ExactOrFault function (0 ≤ n) n.toNat ! r := by
  by_cases negative : n < 0
  · rw [factorialOf, if_pos negative]
    exact give_refuse (Int.not_le.mpr negative) _
  · have nonneg : 0 ≤ n := Int.not_lt.mp negative
    obtain ⟨n, rfl⟩ := Int.eq_ofNat_of_zero_le nonneg
    exact ⟨_, factorialOf_natCast function n, exactOrFault_fitting nonneg⟩

theorem give_fallingProduct (function : String) (n k : Int) :
    ∃ r, fallingProduct function n k = give r ∧
      ExactOrFault function (0 < n ∧ 0 ≤ k ∧ k ≤ n) (n.toNat ! / (n - k).toNat !) r := by
  by_cases inside : 0 < n ∧ 0 ≤ k ∧ k ≤ n
  · obtain ⟨n, rfl⟩ := Int.eq_ofNat_of_zero_le (Int.le_of_lt inside.1)
    obtain ⟨k, rfl⟩ := Int.eq_ofNat_of_zero_le inside.2.1
    have le : k ≤ n := Int.ofNat_le.mp inside.2.2
    have factors : n.descFactorial k = (n : Int).toNat ! / ((n : Int) - k).toNat ! := by
      rw [Nat.descFactorial_eq_div le, Int.toNat_natCast, Int.toNat_sub]
    refine ⟨_, fallingProduct_natCast function (by omega) le, ?_⟩
    rw [factors]
    exact exactOrFault_fitting inside
  · rw [fallingProduct]
    split
    · exact give_refuse inside _
    split
    · exact give_refuse inside _
    split
    · exact give_refuse inside _
    · omega

/-- What choosing `k` out of `n` comes to. The coefficient is formed out of the ordered selections. -/
def selected (n k : Nat) : Except RuntimeError Nat :=
  if n.descFactorial k ≤ largestInteger then .ok (n.choose k)
  else .error (.host "Arithmetic overflow in \"comb\".")

theorem choose_le_descFactorial (n k : Nat) : n.choose k ≤ n.descFactorial k := by
  rw [Nat.descFactorial_eq_factorial_mul_choose]
  exact Nat.le_mul_of_pos_left _ (Nat.factorial_pos k)

theorem factorial_le_descFactorial {n k : Nat} (le : k ≤ n) : k ! ≤ n.descFactorial k := by
  rw [Nat.descFactorial_eq_factorial_mul_choose]
  exact Nat.le_mul_of_pos_right _ (Nat.choose_pos le)

theorem give_selected {n k : Nat} (positive : 0 < n) (le : k ≤ n) :
    (do
      let ordered ← fallingProduct "comb" n k
      let orders ← factorialOf "comb" k
      return ordered / orders) = give (selected n k) := by
  rw [fallingProduct_natCast "comb" positive le, factorialOf_natCast, selected, fitting, fitting]
  by_cases fits : n.descFactorial k ≤ largestInteger
  · have orders : k ! ≤ largestInteger := Nat.le_trans (factorial_le_descFactorial le) fits
    rw [if_pos fits, if_pos fits, if_pos orders, Nat.choose_eq_descFactorial_div_factorial]
    rfl
  · rw [if_neg fits, if_neg fits]
    rfl

theorem descFactorial_mono {n k more : Nat} (fewer : k ≤ more) (le : more ≤ n) :
    n.descFactorial k ≤ n.descFactorial more := by
  have some : 0 < (n - k).descFactorial (more - k) :=
    Nat.pos_of_ne_zero fun none => absurd (Nat.descFactorial_eq_zero_iff_lt.mp none) (by omega)
  rw [← Nat.descFactorial_mul_descFactorial fewer]
  exact Nat.le_mul_of_pos_left _ some

theorem selected_symm_iff {n k : Nat} (le : k ≤ n) :
    selected n k = selected n (n - k) ↔
      (n.descFactorial k ≤ largestInteger ↔ n.descFactorial (n - k) ≤ largestInteger) := by
  rw [selected, selected, Nat.choose_symm le]
  by_cases fits : n.descFactorial k ≤ largestInteger
  · by_cases fits' : n.descFactorial (n - k) ≤ largestInteger <;> simp [fits, fits']
  · by_cases fits' : n.descFactorial (n - k) ≤ largestInteger <;> simp [fits, fits']

theorem selected_ok_iff {n k value : Nat} :
    selected n k = .ok value ↔ n.descFactorial k ≤ largestInteger ∧ value = n.choose k := by
  rw [selected]
  split
  · simp [*, eq_comm]
  · simp [*]

end Builtin

open Builtin

section Calls

variable {setting : Setting} {frame : FrameId} {s t u : Session} {arg arg' : Expr} {x y : Number}
  {product : Eval Nat} {r : Except RuntimeError Nat}

theorem ends_give {α : Type} (r : Except RuntimeError α) (s : Session) : Eval.Ends (fun _ => give r) s r s := by
  cases r with
  | ok value => exact Eval.ends_pure _ s
  | error error => exact (Eval.Costs.eventually fun _ => Eval.costs_throw error s).ends

theorem grows_give {α : Type} (r : Except RuntimeError α) : Eval.Grows fun _ => give r := by
  cases r with
  | ok value => exact Eval.grows_pure _
  | error error => exact Eval.grows_throw error

theorem ends_widened (gives : product = give r) (s : Session) :
    Eval.Ends (fun _ => product >>= fun value => return ofNat value) s (r.map ofNat) s := by
  rw [gives, give_map]
  exact ends_give _ s

theorem grows_widened (gives : product = give r) :
    Eval.Grows fun _ => product >>= fun value => (return ofNat value : Eval Number) := by
  rw [gives, give_map]
  exact grows_give _

variable (standard : setting.registry = .standard)
include standard

theorem ends_factorial (solved : Eval.Ends (setting.solve · arg frame) s (.ok x) t)
    (gives : factorialOf "factorial" x.truncate = give r) :
    Eval.Ends (setting.solve · (.call "factorial" [arg]) frame) s (r.map ofNat) t := by
  have found : setting.registry.find? "factorial" = some ⟨.exact 1, Builtin.factorial⟩ :=
    find_of_standard standard (by simp [Builtin.standardTable, Builtin.mathTable]) (by decide +kernel)
  exact (ends_handler_iff found rfl).mpr
    (solved.andThen (grows_solve standard arg frame) (grows_widened gives) (ends_widened gives t))

theorem ends_perm (solved : Eval.Ends (setting.solve · arg frame) s (.ok x) t)
    (solved' : Eval.Ends (setting.solve · arg' frame) t (.ok y) u)
    (gives : fallingProduct "perm" x.truncate y.truncate = give r) :
    Eval.Ends (setting.solve · (.call "perm" [arg, arg']) frame) s (r.map ofNat) u := by
  have found : setting.registry.find? "perm" = some ⟨.exact 2, Builtin.perm⟩ :=
    find_of_standard standard (by simp [Builtin.standardTable, Builtin.mathTable]) (by decide +kernel)
  refine (ends_handler_iff found rfl).mpr (solved.andThen (grows_solve standard arg frame) ?_ ?_)
  · refine (grows_solve standard arg' frame).andThen fun z => ?_
    obtain ⟨_, gives', -⟩ := give_fallingProduct "perm" x.truncate z.truncate
    exact grows_widened gives'
  · exact solved'.andThen (grows_solve standard arg' frame) (grows_widened gives) (ends_widened gives u)

/-- `factorial` and `perm` come to the exact number, widened, if it is one of 64 bits, to an error of evaluation
where there is none, and to a fault of the host where it is too large. No product is too large on the way to
one that is not. -/
theorem exact_or_fault :
    (∀ n : Int, ∃ r, factorialOf "factorial" n = give r ∧ ExactOrFault "factorial" (0 ≤ n) n.toNat ! r ∧
      ∀ frame arg x s t, x.truncate = n → Eval.Ends (setting.solve · arg frame) s (.ok x) t →
        Eval.Ends (setting.solve · (.call "factorial" [arg]) frame) s (r.map ofNat) t) ∧
    (∀ n k : Int, ¬(n = largestInteger ∧ k = 0) → ∃ r, fallingProduct "perm" n k = give r ∧
      ExactOrFault "perm" (0 < n ∧ 0 ≤ k ∧ k ≤ n) (n.toNat ! / (n - k).toNat !) r ∧
      ∀ frame arg arg' x y s t u, x.truncate = n → y.truncate = k →
        Eval.Ends (setting.solve · arg frame) s (.ok x) t → Eval.Ends (setting.solve · arg' frame) t (.ok y) u →
          Eval.Ends (setting.solve · (.call "perm" [arg, arg']) frame) s (r.map ofNat) u) ∧
    (∀ first count part, 0 < first → part ≤ count → first.ascFactorial count ≤ largestInteger →
      productFrom? first part 1 = some (first.ascFactorial part)) := by
  refine ⟨fun n => ?_, fun n k _ => ?_, fun _ _ _ => productFrom?_part⟩
  · obtain ⟨r, gives, exact⟩ := give_factorialOf "factorial" n
    refine ⟨r, gives, exact, fun frame arg x s t truncated solved => ?_⟩
    exact ends_factorial standard solved (truncated ▸ gives)
  · obtain ⟨r, gives, exact⟩ := give_fallingProduct "perm" n k
    refine ⟨r, gives, exact, fun frame arg arg' x y s t u first second solved solved' => ?_⟩
    exact ends_perm standard solved solved' (first ▸ second ▸ gives)

end Calls

/-- The largest factorial of 64 bits, and the least number of selections that has more. -/
theorem exact_or_fault_largest :
    let setting : Setting := ⟨.standard, true⟩
    let s := (Engine.new .standard (.withInput .buffer [])).session.push .main
    let arg := Expr.constant (.ofNat 20)
    let arg' := Expr.constant (.ofNat 21)
    (ofNat 20).truncate = 20 ∧ (ofNat 21).truncate = 21 ∧
      Eval.Ends (setting.solve · arg 0) s (.ok (.ofNat 20)) s ∧
      Eval.Ends (setting.solve · arg' 0) s (.ok (.ofNat 21)) s ∧
      Eval.Ends (setting.solve · (.call "factorial" [arg]) 0) s (.ok (.ofNat 2432902008176640000)) s ∧
      ∃ message, Eval.Ends (setting.solve · (.call "perm" [arg', arg]) 0) s (.error (.host message)) s := by
  intro setting s arg arg'
  have standard : setting.registry = .standard := rfl
  have twenty : (ofNat 20).truncate = 20 := by decide +kernel
  have more : (ofNat 21).truncate = 21 := by decide +kernel
  have given : Eval.Ends (setting.solve · arg 0) s (.ok (.ofNat 20)) s := (gives_constant _).ends
  have given' : Eval.Ends (setting.solve · arg' 0) s (.ok (.ofNat 21)) s := (gives_constant _).ends
  obtain ⟨factorials, selections, -⟩ := exact_or_fault standard
  obtain ⟨r, -, exact, called⟩ := factorials 20
  obtain ⟨r', -, fault, called'⟩ := selections 21 20 (by decide)
  refine ⟨twenty, more, given, given', ?_, ?_⟩
  · have calls := called 0 arg _ s s twenty given
    cases exact with
    | exact => exact calls
    | refused missing => exact absurd (by decide) missing
    | overflow _ large => exact absurd large (by decide +kernel)
  · have calls := called' 0 arg' arg _ _ s s s more twenty given' given
    cases fault with
    | exact _ fits => exact absurd fits (by decide +kernel)
    | refused missing => exact absurd (by decide) missing
    | overflow _ _ message => exact ⟨message, calls⟩

section Selections

variable {setting : Setting} {frame : FrameId} {s t u : Session} {arg arg' : Expr} {x y : Number}

theorem comb_widened (n k : Int) :
    (fallingProduct "comb" n k >>= fun ordered => factorialOf "comb" k >>= fun orders =>
        (return ofNat (ordered / orders) : Eval Number)) =
      (do
        let ordered ← fallingProduct "comb" n k
        let orders ← factorialOf "comb" k
        return ordered / orders) >>= fun value => return ofNat value := by
  simp only [bind_assoc, pure_bind]

theorem grows_comb (n k : Int) :
    Eval.Grows fun _ => fallingProduct "comb" n k >>= fun ordered => factorialOf "comb" k >>= fun orders =>
      (return ofNat (ordered / orders) : Eval Number) := by
  obtain ⟨products, gives, -⟩ := give_fallingProduct "comb" n k
  obtain ⟨factorials, gives', -⟩ := give_factorialOf "comb" k
  rw [gives, gives']
  exact (grows_give products).andThen fun _ => (grows_give factorials).andThen fun _ => Eval.grows_pure _

variable (standard : setting.registry = .standard)
include standard

theorem ends_comb {n k : Nat} (positive : 0 < n) (le : k ≤ n) (first : x.truncate = n) (second : y.truncate = k)
    (solved : Eval.Ends (setting.solve · arg frame) s (.ok x) t)
    (solved' : Eval.Ends (setting.solve · arg' frame) t (.ok y) u) :
    Eval.Ends (setting.solve · (.call "comb" [arg, arg']) frame) s ((selected n k).map ofNat) u := by
  have found : setting.registry.find? "comb" = some ⟨.exact 2, Builtin.comb⟩ :=
    find_of_standard standard (by simp [Builtin.standardTable, Builtin.mathTable]) (by decide +kernel)
  have rest := comb_widened n k ▸ ends_widened (give_selected positive le) u
  refine (ends_handler_iff found rfl).mpr (solved.andThen (grows_solve standard arg frame) ?_ ?_)
  · exact (grows_solve standard arg' frame).andThen fun z => grows_comb x.truncate z.truncate
  · refine solved'.andThen (grows_solve standard arg' frame) (grows_comb x.truncate y.truncate) ?_
    rw [first, second]
    exact rest

/-- `comb` comes to the binomial coefficient, widened, if the ordered selections are a number of 64 bits, and to a
fault of the host otherwise. So it fails wherever the coefficient is too large, but not only there. Choosing the
others instead comes to the same unless the ordered selections are too many in one of the two cases, which
is the one where more are chosen. -/
theorem coefficient_or_fault :
    ∀ n k : Nat, 0 < n → k ≤ n → n ≠ largestInteger →
      (∀ frame arg arg' x y s t u, x.truncate = (n : Int) → y.truncate = (k : Int) →
        Eval.Ends (setting.solve · arg frame) s (.ok x) t → Eval.Ends (setting.solve · arg' frame) t (.ok y) u →
          Eval.Ends (setting.solve · (.call "comb" [arg, arg']) frame) s ((selected n k).map ofNat) u) ∧
      (n.descFactorial k ≤ largestInteger → selected n k = .ok (n.choose k)) ∧
      (largestInteger < n.descFactorial k →
        selected n k = .error (.host "Arithmetic overflow in \"comb\".")) ∧
      (largestInteger < n.choose k → largestInteger < n.descFactorial k) ∧
      (selected n k = selected n (n - k) ↔
        (n.descFactorial k ≤ largestInteger ↔ n.descFactorial (n - k) ≤ largestInteger)) ∧
      (k ≤ n - k → ∀ value, selected n (n - k) = .ok value → selected n k = .ok value) := by
  intro n k positive le _
  refine ⟨?_, ?_, ?_, ?_, selected_symm_iff le, ?_⟩
  · intro frame arg arg' x y s t u first second solved solved'
    exact ends_comb standard positive le first second solved solved'
  · exact fun fits => if_pos fits
  · exact fun large => if_neg (Nat.not_le.mpr large)
  · exact fun large => Nat.lt_of_lt_of_le large (choose_le_descFactorial n k)
  · intro fewer value chosen
    obtain ⟨fits, rfl⟩ := selected_ok_iff.mp chosen
    exact selected_ok_iff.mpr ⟨Nat.le_trans (descFactorial_mono fewer (Nat.sub_le n k)) fits, Nat.choose_symm le⟩

end Selections

/-- Two out of thirty are chosen in as many ways as twenty-eight are, but there are too many orders for these. -/
theorem coefficient_or_fault_pair :
    let setting : Setting := ⟨.standard, true⟩
    let s := (Engine.new .standard (.withInput .buffer [])).session.push .main
    let choose (k : Nat) := Expr.call "comb" [.constant (ofNat 30), .constant (ofNat k)]
    (ofNat 30).truncate = 30 ∧ (ofNat 2).truncate = 2 ∧ (ofNat 28).truncate = 28 ∧ 30 ≠ largestInteger ∧
      (∀ k, Eval.Ends (setting.solve · (.constant (ofNat k)) 0) s (.ok (ofNat k)) s) ∧
      Eval.Ends (setting.solve · (choose 2) 0) s (.ok (ofNat 435)) s ∧
      Eval.Ends (setting.solve · (choose 28) 0) s (.error (.host "Arithmetic overflow in \"comb\".")) s ∧
      selected 30 2 ≠ selected 30 (30 - 2) := by
  intro setting s choose
  have standard : setting.registry = .standard := rfl
  have thirty : (ofNat 30).truncate = 30 := by decide +kernel
  have two : (ofNat 2).truncate = 2 := by decide +kernel
  have others : (ofNat 28).truncate = 28 := by decide +kernel
  have given (k : Nat) : Eval.Ends (setting.solve · (.constant (ofNat k)) 0) s (.ok (ofNat k)) s :=
    (gives_constant _).ends
  have inside : 30 ≠ largestInteger := by decide
  obtain ⟨ends, fits, -, -, same, -⟩ := coefficient_or_fault standard 30 2 (by decide) (by decide) inside
  obtain ⟨ends', -, large, -⟩ := coefficient_or_fault standard 30 28 (by decide) (by decide) inside
  have few : Nat.descFactorial 30 2 ≤ largestInteger := by decide
  have many : largestInteger < Nat.descFactorial 30 28 := by decide +kernel
  refine ⟨thirty, two, others, inside, given, ?_, ?_, ?_⟩
  · have chosen := ends 0 _ _ _ _ s s s thirty two (given 30) (given 2)
    rw [fits few] at chosen
    exact chosen
  · have chosen := ends' 0 _ _ _ _ s s s thirty others (given 30) (given 28)
    rw [large many] at chosen
    exact chosen
  · exact fun equal => absurd ((same.mp equal).mp few) (Nat.not_le.mpr many)

theorem ends_comb_constants {setting : Setting} {s : Session} (standard : setting.registry = .standard) {n k : Nat}
    (positive : 0 < n) (le : k ≤ n) (first : (ofNat n).truncate = n) (second : (ofNat k).truncate = k) :
    Eval.Ends (setting.solve · (.call "comb" [.constant (ofNat n), .constant (ofNat k)]) 0) s
      ((selected n k).map ofNat) s :=
  ends_comb standard positive le first second (gives_constant _).ends (gives_constant _).ends

/-- There is one way to choose all of twenty-one, and one to choose none of them, but the ways to choose all of
them in order are too many. -/
theorem choosing_all_refused :
    let setting : Setting := ⟨.standard, true⟩
    let s := (Engine.new .standard (.withInput .buffer [])).session.push .main
    let choose (k : Nat) := Expr.call "comb" [.constant (ofNat 21), .constant (ofNat k)]
    Nat.choose 21 21 = 1 ∧ 1 ≤ largestInteger ∧
      Eval.Ends (setting.solve · (choose 21) 0) s (.error (.host "Arithmetic overflow in \"comb\".")) s ∧
      Eval.Ends (setting.solve · (choose (21 - 21)) 0) s (.ok (ofNat 1)) s := by
  intro setting s choose
  have standard : setting.registry = .standard := rfl
  have some : (ofNat 21).truncate = (21 : Nat) := by decide +kernel
  have none : (ofNat 0).truncate = (0 : Nat) := by decide +kernel
  refine ⟨Nat.choose_self 21, by decide, ?_, ?_⟩
  · exact ends_comb_constants standard (by decide) (Nat.le_refl 21) some some
  · exact ends_comb_constants standard (by decide) (Nat.zero_le 21) some none

end Calculator
