import Calculator.Proofs.Arrays.Lists

/-! Calls of the functions on arrays do to the cells what they do to the lists. -/

namespace Calculator

open Number Session CellArray

variable {setting : Setting} {frame : FrameId} {s : Session} {lists : Lists} {args : List Expr}

section Arguments

variable {arguments : List ArrayArgument}
  (spelled : ArrayArgument.AllSpelled (setting.Gives frame s) arguments args) (index : Nat)
include spelled

theorem ArrayArgument.AllSpelled.get {argument : ArrayArgument} (there : arguments[index]? = some argument) :
    ∃ arg, args[index]? = some arg ∧ argument.Spelled (setting.Gives frame s) arg := by
  induction spelled generalizing index with
  | nil => cases there
  | @cons _ arg _ _ first _ ih =>
      cases index with
      | zero =>
          cases there
          exact ⟨arg, rfl, first⟩
      | succ index => exact ih index there

theorem eventually_argument {v : Number} (there : arguments[index]? = some (.value v)) (function : String) :
    Eval.Eventually (fun fuel => Argument.solve (setting.machineAt fuel) function args index frame) s
      (.ok v) s := by
  obtain ⟨arg, found, gives⟩ := ArrayArgument.AllSpelled.get spelled index there
  simp only [Argument.solve, Argument.get, found, pure_bind]
  exact gives

theorem eventually_pointer {a : Whole} (there : arguments[index]? = some (.array a)) :
    ∃ base, setting.Gives frame s base a.number ∧ ∀ function,
      Eval.Eventually (fun _ => Argument.pointer function args index) s (.ok (.pointer base)) s := by
  obtain ⟨_, found, base, rfl, address⟩ := ArrayArgument.AllSpelled.get spelled index there
  refine ⟨base, address, fun function => ?_⟩
  simp only [Argument.pointer, Argument.getForm, Argument.get, found, pure_bind]
  exact Eval.eventually_pure _ s

end Arguments

theorem eventually_stored {values : List Number} (plain : ∀ text, args ≠ [.quote text])
    (spelled : ArrayArgument.AllSpelled (setting.Gives frame s) (values.map .value) args) :
    Eval.Eventually (fun fuel => Argument.stored (setting.machineAt fuel) args frame) s (.ok values) s := by
  have given : List.Forall₂ (setting.Gives frame s) args values :=
    (List.forall₂_map_left_iff.mp spelled).flip
  have unquoted (m : Machine) : Argument.stored m args frame = Argument.solveAll m args frame := by
    unfold Argument.stored
    split
    · exact absurd rfl (plain _)
    · rfl
  simp only [unquoted]
  exact Eval.Eventually.mapM (x := fun fuel arg => setting.solve fuel arg frame) given

theorem add_one_eq {x : Number} {i : Int} (whole : x.IsInt i) (exact : Exact i) (next : Exact (i + 1)) :
    x.add .one = .ofInt (i + 1) := by
  by_cases last : i = -1
  · subst last
    rw [whole.eq_ofInt exact (by decide)]
    decide +kernel
  · exact (whole.add isInt_one next).eq_ofInt next (by omega)

theorem costs_countUp {bound next : Number} {i j : Int} {count fuel : Nat} (bounded : bound.IsInt j)
    (last : Exact j) (whole : next.IsInt i) (first : Exact i) (counted : (j - i).toNat = count)
    (more : count < fuel) (values : List Number) :
    (Builtin.countUp bound fuel next values).Costs 0 s
      (.ok (values.reverse ++ Lists.upFrom next i count)) s := by
  induction count generalizing i next fuel values with
  | zero =>
      obtain ⟨fuel, rfl⟩ := Nat.exists_eq_add_of_lt more
      rw [Nat.zero_add, Builtin.countUp, if_neg fun less => by
        have := (whole.less_iff bounded).mp less
        omega]
      rw [Lists.upFrom, List.append_nil]
      exact Eval.costs_pure _ s
  | succ count ih =>
      obtain ⟨fuel, rfl⟩ := Nat.exists_eq_add_of_lt more
      have below : i < j := by omega
      have exact : Exact (i + 1) := ⟨by have := first.1; omega, by have := last.2; omega⟩
      rw [Builtin.countUp, if_pos ((whole.less_iff bounded).mpr below)]
      have rest := ih (whole.add isInt_one exact) exact (by omega) (show count < count + 1 + fuel by omega)
        (next :: values)
      rw [List.reverse_cons, List.append_assoc, List.singleton_append,
        add_one_eq whole first exact] at rest
      rw [add_one_eq whole first exact, Lists.upFrom]
      exact rest

def Lists.Done (x : (fuel : Nat) → Eval Number) (s : Session) (after : Except RuntimeError Number × Lists) :
    Prop :=
  ∃ t, Eval.Eventually x s after.1 t ∧ t.Holds after.2 ∧ s.Keeps t fun _ => True

section Calls

variable (holds : s.Holds lists)

include holds in
theorem Session.Holds.written {x : Nat → Eval Number} {result : Except RuntimeError Number} {a : Int}
    {values : List Number} (writes : ∃ t, Eval.Eventually x s result t ∧ s.Wrote t a values) :
    Lists.Done x s (result, lists.write a values) := by
  obtain ⟨t, comes, wrote⟩ := writes
  exact ⟨t, comes, holds.wrote wrote, wrote.keeps.mono fun _ _ => trivial⟩

include holds in
theorem Session.Holds.unchanged {x : Nat → Eval Number} {result : Except RuntimeError Number}
    (comes : Eval.Eventually x s result s) : Lists.Done x s (result, lists) :=
  ⟨s, comes, holds, .refl s _⟩

theorem Lists.Allows.written {call : ArrayCall} {a : Int} {values : List Number}
    (allows : lists.Allows call) (writes : (lists.step call).2 = lists.write a values) :
    Fits a values.length := by
  refine allows.fits a values ?_
  rw [writes]
  exact if_pos rfl

include holds

theorem done_alloc {a : Whole} {values : List Number} (allows : lists.Allows (.alloc a values))
    (plain : ∀ text, args.tail ≠ [.quote text])
    (spelled : (ArrayCall.alloc a values).InFull (setting.Gives frame s) args) :
    Lists.Done (fun fuel => Builtin.alloc (setting.machineAt fuel) args frame) s
      (lists.step (.alloc a values)) := by
  obtain ⟨base, address, pointer⟩ := eventually_pointer spelled 0 rfl
  obtain ⟨p, rest, -, others, rfl⟩ := List.forall₂_cons_left_iff.mp spelled
  obtain ⟨t, allocates, wrote⟩ := eventually_allocate address a.isInt (allows.written rfl)
  exact holds.written ⟨t, (pointer _).andThen ((eventually_stored plain others).andThen allocates), wrote⟩

theorem done_calloc {a count : Whole} (allows : lists.Allows (.calloc a count))
    (spelled : (ArrayCall.calloc a count).InFull (setting.Gives frame s) args) :
    Lists.Done (fun fuel => Builtin.calloc (setting.machineAt fuel) args frame) s
      (lists.step (.calloc a count)) := by
  obtain ⟨base, address, pointer⟩ := eventually_pointer spelled 0 rfl
  have fits := allows.written (a := a.int) rfl
  obtain ⟨t, allocates, wrote⟩ := eventually_allocate address a.isInt fits
  have counted : count.number.toCount = count.int.toNat := by
    have small := fits.count
    have largest : 2 ^ 53 ≤ largestCount := by decide
    rw [List.length_replicate] at small
    exact count.isInt.toCount (by omega)
  rw [← counted] at allocates
  exact holds.written ⟨t, (pointer _).andThen ((eventually_argument spelled 1 rfl _).andThen
    allocates), wrote⟩

theorem done_countUp {base : Expr} {a first bound : Whole} (allows : lists.Allows (.range a first bound))
    (address : setting.Gives frame s base a.number) :
    Lists.Done (fun fuel => do
        let values ← Builtin.countUp bound.number fuel first.number []
        allocate (setting.machineAt fuel) (.pointer base) values frame) s
      (lists.step (.range a first bound)) := by
  obtain ⟨exact, exact'⟩ := allows.bounds
  obtain ⟨t, allocates, wrote⟩ := eventually_allocate address a.isInt (allows.written (a := a.int) rfl)
  refine holds.written ⟨t, Eval.Eventually.andThen ?_ allocates, wrote⟩
  exact ⟨_, 0, fun fuel more =>
    costs_countUp bound.isInt exact' first.isInt exact rfl (Nat.lt_of_succ_le more) []⟩

theorem done_range {a first bound : Whole} (allows : lists.Allows (.range a first bound))
    (spelled : (ArrayCall.range a first bound).InFull (setting.Gives frame s) args) :
    Lists.Done (fun fuel => Builtin.range (setting.machineAt fuel) args frame) s
      (lists.step (.range a first bound)) := by
  obtain ⟨base, address, pointer⟩ := eventually_pointer spelled 0 rfl
  have count : args.length = 3 := spelled.length_eq.symm
  obtain ⟨t, counts, done⟩ := done_countUp holds allows address
  refine ⟨t, ?_, done⟩
  simp only [Builtin.range, count, Nat.le_refl, if_true, pure_bind]
  exact (pointer _).andThen ((eventually_argument spelled 1 rfl _).andThen
    ((eventually_argument spelled 2 rfl _).andThen counts))

theorem done_range_fromZero {a bound : Whole}
    (allows : lists.Allows (.range a ⟨.zero, 0, isInt_zero⟩ bound))
    (spelled : ArrayArgument.AllSpelled (setting.Gives frame s) [.array a, .value bound.number] args) :
    Lists.Done (fun fuel => Builtin.range (setting.machineAt fuel) args frame) s
      (lists.step (.range a ⟨.zero, 0, isInt_zero⟩ bound)) := by
  obtain ⟨base, address, pointer⟩ := eventually_pointer spelled 0 rfl
  have count : args.length = 2 := spelled.length_eq.symm
  obtain ⟨t, counts, done⟩ := done_countUp holds allows address
  refine ⟨t, ?_, done⟩
  simp only [Builtin.range, count, show ¬3 ≤ 2 by decide, if_false, pure_bind]
  exact (pointer _).andThen ((eventually_argument spelled 1 rfl _).andThen counts)

theorem done_add {a : Whole} {value : Number} (allows : lists.Allows (.add a value))
    (spelled : (ArrayCall.add a value).InFull (setting.Gives frame s) args) :
    Lists.Done (fun fuel => Builtin.add (setting.machineAt fuel) args frame) s
      (lists.step (.add a value)) := by
  obtain ⟨base, address, pointer⟩ := eventually_pointer spelled 0 rfl
  have array := holds.listAt (allows.live a (.head _))
  have fits := allows.written (a := a.int) rfl
  rw [List.length_append, List.length_singleton] at fits
  obtain ⟨t, adds, wrote⟩ := eventually_add address a.isInt array fits value
  exact holds.written ⟨t, (pointer _).andThen ((eventually_argument spelled 1 rfl _).andThen
    adds), wrote⟩

theorem done_insert {a index : Whole} {value : Number} (allows : lists.Allows (.insert a index value))
    (spelled : (ArrayCall.insert a index value).InFull (setting.Gives frame s) args) :
    Lists.Done (fun fuel => Builtin.insert (setting.machineAt fuel) args frame) s
      (lists.step (.insert a index value)) := by
  obtain ⟨base, address, pointer⟩ := eventually_pointer spelled 0 rfl
  have array := holds.listAt (allows.live a (.head _))
  have before {result t} (inserts : Eval.Eventually (fun fuel =>
      insert (setting.machineAt fuel) (.pointer base) index.number value frame) s result t) :
      Eval.Eventually (fun fuel => Builtin.insert (setting.machineAt fuel) args frame) s result t :=
    (pointer _).andThen ((eventually_argument spelled 1 rfl _).andThen
      ((eventually_argument spelled 2 rfl _).andThen inserts))
  by_cases within : 0 ≤ place index.int (lists.listAt a).length ∧
      place index.int (lists.listAt a).length ≤ (lists.listAt a).length
  · have inserted : lists.step (.insert a index value) = (.ok value, lists.write a.int
        ((lists.listAt a).insertIdx (place index.int (lists.listAt a).length).toNat value)) := if_pos within
    have fits := allows.written (congrArg Prod.snd inserted)
    rw [List.length_insertIdx_of_le_length (by omega)] at fits
    obtain ⟨t, inserts, wrote⟩ := eventually_insert address a.isInt array index.isInt within fits value
    rw [inserted]
    exact holds.written ⟨t, before inserts, wrote⟩
  · have refused : lists.step (.insert a index value) = (.error (.insertOutOfRange a.number.key
        (place (clamp index.int) (lists.listAt a).length)), lists) := if_neg within
    rw [refused]
    exact holds.unchanged (before
      (eventually_insert_outside address a.isInt array index.isInt within value))

theorem done_remove {a : Whole} {value : Number} (allows : lists.Allows (.remove a value))
    (spelled : (ArrayCall.remove a value).InFull (setting.Gives frame s) args) :
    Lists.Done (fun fuel => Builtin.remove (setting.machineAt fuel) args frame) s
      (lists.step (.remove a value)) := by
  obtain ⟨base, address, pointer⟩ := eventually_pointer spelled 0 rfl
  have array := holds.listAt (allows.live a (.head _))
  have before {removed : Bool} {t} (removes : Eval.Eventually (fun fuel =>
      remove (setting.machineAt fuel) (.pointer base) value frame) s (.ok removed) t) :
      Eval.Eventually (fun fuel => Builtin.remove (setting.machineAt fuel) args frame) s
        (.ok (.ofBool removed)) t :=
    (pointer _).andThen ((eventually_argument spelled 1 rfl _).andThen
      (removes.map Number.ofBool))
  cases found : (lists.listAt a).findIdx? (·.equal value) with
  | some position =>
      obtain ⟨t, removes, wrote⟩ := eventually_remove address a.isInt
        array found
      simp only [Lists.step, found]
      exact holds.written ⟨t, before removes, wrote⟩
  | none =>
      simp only [Lists.step, found]
      exact holds.unchanged (before (eventually_remove_none address a.isInt array found))

theorem done_clear {a : Whole} (allows : lists.Allows (.clear a))
    (spelled : (ArrayCall.clear a).InFull (setting.Gives frame s) args) :
    Lists.Done (fun fuel => Builtin.clear (setting.machineAt fuel) args frame) s
      (lists.step (.clear a)) := by
  obtain ⟨base, address, pointer⟩ := eventually_pointer spelled 0 rfl
  obtain ⟨t, allocates, wrote⟩ := eventually_allocate address a.isInt (allows.written rfl)
  exact holds.written ⟨t, (pointer _).andThen allocates, wrote⟩

theorem done_copy {source target : Whole} (allows : lists.Allows (.copy source target))
    (spelled : (ArrayCall.copy source target).InFull (setting.Gives frame s) args) :
    Lists.Done (fun fuel => Builtin.copy (setting.machineAt fuel) args frame) s
      (lists.step (.copy source target)) := by
  obtain ⟨base, address, pointer⟩ := eventually_pointer spelled 0 rfl
  obtain ⟨base', address', pointer'⟩ := eventually_pointer spelled 1 rfl
  have array := holds.listAt (allows.live source (.head _))
  obtain ⟨t, copies, wrote⟩ := eventually_copy address source.isInt array address' target.isInt
    (allows.written rfl)
  exact holds.written ⟨t, (pointer _).andThen ((pointer' _).andThen copies), wrote⟩

theorem done_concat {first second target : Whole} (allows : lists.Allows (.concat first second target))
    (spelled : (ArrayCall.concat first second target).InFull (setting.Gives frame s) args) :
    Lists.Done (fun fuel => Builtin.concat (setting.machineAt fuel) args frame) s
      (lists.step (.concat first second target)) := by
  obtain ⟨base, address, pointer⟩ := eventually_pointer spelled 0 rfl
  obtain ⟨base', address', pointer'⟩ := eventually_pointer spelled 1 rfl
  obtain ⟨base'', address'', pointer''⟩ := eventually_pointer spelled 2 rfl
  have array := holds.listAt (allows.live first (.head _))
  have array' := holds.listAt (allows.live second (.tail _ (.head _)))
  have count : args.length = 3 := spelled.length_eq.symm
  obtain ⟨t, concats, wrote⟩ := eventually_concat address first.isInt array address' second.isInt array'
    address'' target.isInt (allows.written rfl)
  refine holds.written ⟨t, ?_, wrote⟩
  simp only [Builtin.concat, count, Nat.le_refl, if_true]
  exact (pointer _).andThen ((pointer' _).andThen ((pointer'' _).andThen concats))

theorem done_concat_inPlace {first second : Whole} (allows : lists.Allows (.concat first second first))
    (spelled : ArrayArgument.AllSpelled (setting.Gives frame s) [.array first, .array second] args) :
    Lists.Done (fun fuel => Builtin.concat (setting.machineAt fuel) args frame) s
      (lists.step (.concat first second first)) := by
  obtain ⟨base, address, pointer⟩ := eventually_pointer spelled 0 rfl
  obtain ⟨base', address', pointer'⟩ := eventually_pointer spelled 1 rfl
  have array := holds.listAt (allows.live first (.head _))
  have array' := holds.listAt (allows.live second (.tail _ (.head _)))
  have count : args.length = 2 := spelled.length_eq.symm
  obtain ⟨t, concats, wrote⟩ := eventually_concat address first.isInt array address' second.isInt array'
    address first.isInt (allows.written rfl)
  refine holds.written ⟨t, ?_, wrote⟩
  simp only [Builtin.concat, count, show ¬3 ≤ 2 by decide, if_false, pure_bind]
  exact (pointer _).andThen ((pointer' _).andThen concats)

theorem done_get {a index : Whole} (allows : lists.Allows (.get a index))
    (spelled : (ArrayCall.get a index).InFull (setting.Gives frame s) args) :
    Lists.Done (fun fuel => Builtin.get (setting.machineAt fuel) args frame) s
      (lists.step (.get a index)) := by
  obtain ⟨base, address, pointer⟩ := eventually_pointer spelled 0 rfl
  obtain ⟨above, below⟩ := allows.bounds
  have array := holds.listAt (allows.live a (.head _))
  exact holds.unchanged ((pointer _).andThen ((eventually_argument spelled 1 rfl _).andThen
    (eventually_get address a.isInt array index.isInt above below)))

theorem done_set {a index : Whole} {value : Number} (allows : lists.Allows (.set a index value))
    (spelled : (ArrayCall.set a index value).InFull (setting.Gives frame s) args) :
    Lists.Done (fun fuel => Builtin.set (setting.machineAt fuel) args frame) s
      (lists.step (.set a index value)) := by
  obtain ⟨base, address, pointer⟩ := eventually_pointer spelled 0 rfl
  obtain ⟨above, below⟩ := allows.bounds
  have array := holds.listAt (allows.live a (.head _))
  obtain ⟨t, sets, wrote⟩ := eventually_set address a.isInt array index.isInt above below value
  exact holds.written ⟨t, (pointer _).andThen ((eventually_argument spelled 1 rfl _).andThen
    ((eventually_argument spelled 2 rfl _).andThen sets)), wrote⟩

theorem done_indexOf {a : Whole} {value : Number} (allows : lists.Allows (.indexOf a value))
    (spelled : (ArrayCall.indexOf a value).InFull (setting.Gives frame s) args) :
    Lists.Done (fun fuel => Builtin.indexOf (setting.machineAt fuel) args frame) s
      (lists.step (.indexOf a value)) := by
  obtain ⟨base, address, pointer⟩ := eventually_pointer spelled 0 rfl
  have array := holds.listAt (allows.live a (.head _))
  have searches := eventually_indexOf address a.isInt array value
  cases found : (lists.listAt a).findIdx? (·.equal value) with
  | some position =>
      rw [found] at searches
      simp only [Lists.step, found]
      exact holds.unchanged ((pointer _).andThen ((eventually_argument spelled 1 rfl _).andThen
        (searches.andThen (Eval.eventually_pure _ s))))
  | none =>
      rw [found] at searches
      simp only [Lists.step, found]
      exact holds.unchanged ((pointer _).andThen ((eventually_argument spelled 1 rfl _).andThen
        (searches.andThen (Eval.eventually_pure _ s))))

theorem done_contains {a : Whole} {value : Number} (allows : lists.Allows (.contains a value))
    (spelled : (ArrayCall.contains a value).InFull (setting.Gives frame s) args) :
    Lists.Done (fun fuel => Builtin.contains (setting.machineAt fuel) args frame) s
      (lists.step (.contains a value)) := by
  obtain ⟨base, address, pointer⟩ := eventually_pointer spelled 0 rfl
  have array := holds.listAt (allows.live a (.head _))
  have searches := eventually_indexOf address a.isInt array value
  exact holds.unchanged ((pointer _).andThen ((eventually_argument spelled 1 rfl _).andThen
    (searches.map fun found => Number.ofBool found.isSome)))

theorem done_builtin {call : ArrayCall} {name : String} (allows : lists.Allows call)
    (spelled : call.Spelled (setting.Gives frame s) name args) :
    Lists.Done (fun fuel => call.builtin.handler (setting.machineAt fuel) args frame) s
      (lists.step call) := by
  cases spelled with
  | fromZero _ spelled => exact done_range_fromZero holds allows spelled
  | inPlace _ spelled => exact done_concat_inPlace holds allows spelled
  | full _ plain spelled =>
      cases call with
      | alloc => exact done_alloc holds allows (plain rfl) spelled
      | calloc => exact done_calloc holds allows spelled
      | range => exact done_range holds allows spelled
      | add => exact done_add holds allows spelled
      | insert => exact done_insert holds allows spelled
      | remove => exact done_remove holds allows spelled
      | clear => exact done_clear holds allows spelled
      | copy => exact done_copy holds allows spelled
      | concat => exact done_concat holds allows spelled
      | get => exact done_get holds allows spelled
      | set => exact done_set holds allows spelled
      | indexOf => exact done_indexOf holds allows spelled
      | contains => exact done_contains holds allows spelled

theorem done_call {call : ArrayCall} {name : String} (knows : setting.registry.KnowsArrays)
    (allows : lists.Allows call) (spelled : call.Spelled (setting.Gives frame s) name args) :
    Lists.Done (setting.solve · (.call name args) frame) s (lists.step call) := by
  obtain ⟨t, handled, rest⟩ := done_builtin holds allows spelled
  exact ⟨t, eventually_call (knows.find call.mem_memoryTable spelled.named) spelled.accepts handled, rest⟩

end Calls

end Calculator
