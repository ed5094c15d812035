import Calculator.Proofs.Arrays.Cells

/-! What the operations on arrays do to the cells of the global store. -/

namespace Calculator

open Number Session

theorem ofNat_add_one {n : Nat} (small : n + 1 < 2 ^ 53) : (ofNat n).add one = ofNat (n + 1) := by
  have sum := (isInt_ofNat (Nat.lt_of_succ_lt small)).add isInt_one ⟨by omega, by omega⟩
  exact sum.eq (isInt_ofNat small) (by omega)

namespace CellArray

variable {base : Expr} {frame : FrameId} {s : Session} {a : Int} {x : Number}

theorem costs_writeCell (m : Machine) (y value : Number) :
    (m.writeCell (.pointer base) y value frame).Costs 1 s (.ok ()) (s.setVariable y.key value) :=
  Eval.costs_update (fun s => ((), s.setVariable y.key value)) s

theorem isInt_element {length : Nat} (index : Nat) (whole : x.IsInt a) (fits : Fits a length)
    (within : index < length) : (x.add (.ofNat (index + 1))).IsInt (a + index + 1) := by
  have exact := fits.exact (k := index + 1) (by omega)
  have small : index + 1 < 2 ^ 53 := Nat.lt_of_le_of_lt within fits.count
  have sum := whole.add (isInt_ofNat small) exact
  rwa [Nat.cast_succ, ← Int.add_assoc] at sum

theorem costs_storeFrom {length : Nat} (whole : x.IsInt a) (fits : Fits a length) {values : List Number}
    {index : Nat} (within : index + values.length ≤ length) :
    ∃ t, (∀ m : Machine, (storeFrom m (.pointer base) x index values frame).Costs values.length s
        (.ok ()) t) ∧ t.Stores (a + index + 1) values ∧
      s.Keeps t fun i => a + index + 1 ≤ i ∧ i < a + index + 1 + values.length := by
  induction values generalizing index s with
  | nil => exact ⟨s, fun m => Eval.costs_pure () s, stores_nil s _, .refl s _⟩
  | cons value values ih =>
      rw [List.length_cons] at within
      have element := isInt_element index whole fits (by omega)
      have exact : Exact (a + index + 1) := fits.element (by omega)
      obtain ⟨t, costs, stores, keeps⟩ :=
        @ih (s.setVariable (x.add (.ofNat (index + 1))).key value) (index + 1) (by omega)
      rw [Nat.cast_succ, ← Int.add_assoc] at stores keeps
      refine ⟨t, fun m => ?_, ?_, ?_⟩
      · rw [List.length_cons, Nat.add_comm]
        exact (costs_writeCell m _ value).andThen (costs m)
      · refine stores_cons.mpr ⟨?_, stores⟩
        rw [keeps.cell exact (by omega), cell?_setVariable element exact exact, if_pos rfl]
      · refine ((keeps_setVariable element exact value).mono ?_).trans (keeps.mono ?_)
        · rintro i rfl
          rw [List.length_cons]
          omega
        · intro i between
          rw [List.length_cons]
          omega

def walk {σ : Type} (visitor : σ → Nat → Number → ForInStep σ) (index : Nat) : List Number → σ → σ
  | [], state => state
  | value :: values, state =>
    match visitor state index value with
    | .done state => state
    | .yield state => walk visitor (index + 1) values state

theorem costs_visitElements {σ : Type} {values : List Number} {index : Nat}
    (elements : s.Elements x index values) (visitor : σ → Nat → Number → ForInStep σ) (state : σ) :
    ∃ cost, ∀ m : Machine, (visitFrom m (.pointer base) x frame
      (fun state index value => return visitor state index value) index values.length state).Costs cost s
        (.ok (walk visitor index values state)) s := by
  induction values generalizing index state with
  | nil => exact ⟨0, fun m => Eval.costs_pure state s⟩
  | cons value values ih =>
      obtain ⟨here, others⟩ := elements
      have read (m : Machine) : (m.readCell (.pointer base) (x.add (.ofNat (index + 1))) frame).Costs 1 s
          (.ok value) s := costs_readCell m here
      cases visited : visitor state index value with
      | done last =>
          refine ⟨1 + (0 + 0), fun m => (read m).andThen ((Eval.costs_pure _ s).andThen ?_)⟩
          rw [walk, visited]
          exact Eval.costs_pure last s
      | yield next =>
          obtain ⟨cost, costs⟩ := ih others next
          refine ⟨1 + (0 + cost), fun m => (read m).andThen ((Eval.costs_pure _ s).andThen ?_)⟩
          rw [walk, visited]
          exact costs m

theorem elements_of_stores {length : Nat} (whole : x.IsInt a) (fits : Fits a length)
    {values : List Number} {index : Nat} (within : index + values.length ≤ length)
    (stores : s.Stores (a + index + 1) values) : s.Elements x index values := by
  induction values generalizing index with
  | nil => trivial
  | cons value values ih =>
      rw [List.length_cons] at within
      obtain ⟨here, others⟩ := stores_cons.mp stores
      have element := isInt_element index whole fits (by omega)
      have key : (x.add (.ofNat (index + 1))).key = (ofInt (a + index + 1)).key :=
        element.key_ofInt (fits.element (by omega))
      refine ⟨by rwa [elementKey, key], ih (by omega) ?_⟩
      rwa [Nat.cast_succ, ← Int.add_assoc]

theorem walk_collect (index : Nat) (values front : List Number) :
    walk (fun elements _ element => .yield (element :: elements)) index values front =
      values.reverse ++ front := by
  induction values generalizing index front with
  | nil => rfl
  | cons value values ih =>
      rw [walk]
      simp only [ih, List.reverse_cons, List.append_assoc, List.singleton_append]

theorem reverse_walk_collect (values : List Number) :
    (walk (fun elements _ element => .yield (element :: elements)) 0 values []).reverse = values := by
  rw [walk_collect, List.append_nil, List.reverse_reverse]

theorem walk_search (found : Number → Bool) (index : Nat) (values : List Number) :
    walk (fun _ index element => if found element then .done (some index) else .yield none) index values
      none = (values.findIdx? found).map (· + index) := by
  induction values generalizing index with
  | nil => rfl
  | cons value values ih =>
      rw [walk, List.findIdx?_cons]
      cases found value with
      | true => simp
      | false =>
          simp only [Bool.false_eq_true, if_false, ih, Option.map_map]
          congr 1
          funext k
          exact (Nat.add_right_comm k 1 index).symm

theorem walk_search_all (found : Number → Bool) (values : List Number) :
    walk (fun _ index element => if found element then .done (some index) else .yield none) 0 values none =
      values.findIdx? found := by
  rw [walk_search, show (· + 0) = id from rfl, Option.map_id_fun, id]

/-- The position that an index names; a negative one counts from the end. -/
def place (index : Int) (length : Nat) : Int := if index < 0 then index + length else index

def clamp (index : Int) : Int := Max.max (Min.min index largestInteger) leastInteger

theorem place_clamp (index : Int) {length : Nat} (small : length < 2 ^ 53) :
    place (clamp index) length = place index length ∨
      ¬(0 ≤ place (clamp index) length ∧ place (clamp index) length ≤ length) ∧
        ¬(0 ≤ place index length ∧ place index length ≤ length) := by
  have least : leastInteger = -2 ^ 63 := rfl
  have largest : largestInteger = 2 ^ 63 - 1 := rfl
  unfold place clamp
  split <;> split <;> omega

section Read

variable {setting : Setting} {values : List Number} (address : setting.Gives frame s base x)
  (cells : s.HasCells x values)
include address cells

theorem eventually_lengthCell :
    Eval.Eventually (fun fuel => length (setting.machineAt fuel) (.pointer base) frame) s
      (.ok (.ofNat values.length)) s := by
  exact address.andThen (Eval.Costs.eventually fun fuel => costs_readCell _ cells.length)

variable (small : values.length < 2 ^ 53)
include small

theorem eventually_visitCells {σ : Type} (visitor : σ → Nat → Number → ForInStep σ) (state : σ) :
    Eval.Eventually (fun fuel => visit (setting.machineAt fuel) (.pointer base) frame state
      fun state index value => return visitor state index value) s (.ok (walk visitor 0 values state)) s := by
  obtain ⟨cost, costs⟩ := @costs_visitElements base frame s x σ _ _ cells.elements visitor state
  refine address.andThen ((Eval.Costs.eventually fun fuel => costs_readCell _ cells.length).andThen ?_)
  simp only [toCount_ofNat small]
  exact Eval.Costs.eventually fun fuel => costs _

theorem eventually_listCells :
    Eval.Eventually (fun fuel => toList (setting.machineAt fuel) (.pointer base) frame) s (.ok values) s := by
  have visited := @eventually_visitCells base frame s x setting values address cells small _
    (fun elements _ element => .yield (element :: elements)) []
  have collected := visited.map List.reverse
  rwa [reverse_walk_collect] at collected

end Read

theorem hasCells {values : List Number} (array : s.HasArray a values) (whole : x.IsInt a) :
    s.HasCells x values := by
  obtain ⟨held, stores⟩ := stores_cons.mp array.stores
  refine ⟨?_, elements_of_stores whole array.fits (by omega) ?_⟩
  · rwa [whole.key_ofInt array.fits.first]
  · rwa [Nat.cast_zero, Int.add_zero]

section Operations

variable {setting : Setting} (address : setting.Gives frame s base x) (whole : x.IsInt a)
  {values : List Number}

include address whole

theorem eventually_allocate (fits : Fits a values.length) :
    ∃ t, Eval.Eventually (fun fuel => allocate (setting.machineAt fuel) (.pointer base) values frame) s
      (.ok x) t ∧ s.Wrote t a values := by
  have exact := fits.first
  obtain ⟨t, costs, stores, keeps⟩ := @costs_storeFrom base frame
    (s.setVariable x.key (.ofNat values.length)) a x _ whole fits values 0 (by omega)
  rw [Nat.cast_zero, Int.add_zero] at stores keeps
  refine ⟨t, ?_, ⟨fits, stores_cons.mpr ⟨?_, stores⟩⟩, ?_⟩
  · refine address.andThen ?_
    refine (Eval.Costs.eventually fun fuel => costs_writeCell _ x _).andThen ?_
    exact (Eval.Costs.eventually fun fuel => costs _).andThen (Eval.eventually_pure x t)
  · rw [keeps.cell exact (by omega), cell?_setVariable whole exact exact, if_pos rfl]
  · refine ((keeps_setVariable whole exact _).mono ?_).trans (keeps.mono ?_)
    · rintro i rfl
      omega
    · intro i between
      omega

variable (array : s.HasArray a values)
include array

theorem eventually_visit {σ : Type} (visitor : σ → Nat → Number → ForInStep σ) (state : σ) :
    Eval.Eventually (fun fuel => visit (setting.machineAt fuel) (.pointer base) frame state
      fun state index value => return visitor state index value) s (.ok (walk visitor 0 values state)) s :=
  eventually_visitCells address (hasCells array whole) array.fits.count visitor state

theorem eventually_toList :
    Eval.Eventually (fun fuel => toList (setting.machineAt fuel) (.pointer base) frame) s (.ok values) s :=
  eventually_listCells address (hasCells array whole) array.fits.count

theorem eventually_indexOf (value : Number) :
    Eval.Eventually (fun fuel => indexOf? (setting.machineAt fuel) (.pointer base) value frame) s
      (.ok (values.findIdx? (·.equal value))) s := by
  have visited := @eventually_visit base frame s a x setting address whole values array _
    (fun _ index element => if element.equal value then .done (some index) else .yield none) none
  rwa [walk_search_all (·.equal value)] at visited

theorem eventually_length :
    Eval.Eventually (fun fuel => length (setting.machineAt fuel) (.pointer base) frame) s
      (.ok (.ofNat values.length)) s :=
  eventually_lengthCell address (hasCells array whole)

section Indexed

variable {y : Number} {index : Int} (indexed : y.IsInt index) (above : -values.length ≤ index)
  (below : index < values.length)
include indexed above below

theorem eventually_cell :
    ∃ (k : Nat) (z : Number), k = place index values.length ∧ k < values.length ∧ z.IsInt (a + k + 1) ∧
      Eval.Eventually (fun fuel => cell (setting.machineAt fuel) (.pointer base) y frame) s (.ok z) s := by
  have small := array.fits.count
  obtain ⟨k, position⟩ : ∃ k : Nat, (k : Int) = place index values.length :=
    ⟨(place index values.length).toNat, by unfold place; split <;> omega⟩
  have within : k < values.length := by
    unfold place at position
    split at position <;> omega
  -- What is left to do once the position is known.
  have rest {w : Number} (isPosition : w.IsInt k) : ((x.add w).add .one).IsInt (a + k + 1) ∧
      Eval.Eventually (fun fuel => do
        let base ← (setting.machineAt fuel).address (.pointer base) frame
        return (base.add w).add .one) s (.ok ((x.add w).add .one)) s :=
    ⟨(whole.add isPosition (array.fits.exact (by omega))).add isInt_one (array.fits.element within),
      address.map fun base => (base.add w).add .one⟩
  by_cases negative : index < 0
  · rw [place, if_pos negative] at position
    have isPosition : ((ofNat values.length).add y).IsInt k := by
      rw [position, Int.add_comm]
      exact (isInt_ofNat small).add indexed ⟨by omega, by omega⟩
    obtain ⟨isCell, evaluates⟩ := rest isPosition
    refine ⟨k, _, by rw [position, place, if_pos negative], within, isCell, ?_⟩
    simp only [cell, if_pos ((indexed.less_iff isInt_zero).mpr negative)]
    exact (eventually_length address whole array).andThen evaluates
  · rw [place, if_neg negative] at position
    obtain ⟨isCell, evaluates⟩ := rest (position ▸ indexed)
    refine ⟨k, _, by rw [position, place, if_neg negative], within, isCell, ?_⟩
    simp only [cell, if_neg fun less => negative ((indexed.less_iff isInt_zero).mp less)]
    exact evaluates

theorem eventually_get :
    Eval.Eventually (fun fuel => get (setting.machineAt fuel) (.pointer base) y frame) s
      (.ok (values.getD (place index values.length).toNat .zero)) s := by
  obtain ⟨k, z, position, within, cell, evaluates⟩ :=
    eventually_cell address whole array indexed above below
  have exact := array.fits.element within
  have held := (stores_cons.mp array.stores).2 k values[k] (List.getElem?_eq_getElem within)
  rw [Int.add_right_comm] at held
  rw [← position, Int.toNat_natCast, List.getD_eq_getElem?_getD, List.getElem?_eq_getElem within]
  exact evaluates.andThen (Eval.Costs.eventually fun fuel => costs_readCell _ (held_of_cell cell exact held))

theorem eventually_set (value : Number) :
    ∃ t, Eval.Eventually (fun fuel => set (setting.machineAt fuel) (.pointer base) y value frame) s
      (.ok value) t ∧ s.Wrote t a (values.set (place index values.length).toNat value) := by
  obtain ⟨k, z, position, within, cell, evaluates⟩ :=
    eventually_cell address whole array indexed above below
  have exact := array.fits.element within
  refine ⟨s.setVariable z.key value, ?_, ?_⟩
  · exact evaluates.andThen ((Eval.Costs.eventually fun fuel => costs_writeCell _ z value).andThen
      (Eval.eventually_pure value _))
  · have isCell : z.IsInt (a + (k + 1 : Nat)) := by rwa [Nat.cast_succ, ← Int.add_assoc]
    have exactCells (i : Nat) (inside : i < (ofNat values.length :: values).length) : Exact (a + i) :=
      array.fits.exact (Nat.le_of_lt inside)
    rw [← position, Int.toNat_natCast]
    refine ⟨⟨?_, ?_⟩, (keeps_setVariable cell exact value).mono ?_⟩
    · rw [List.length_set]
      exact array.fits
    · rw [List.length_set, ← List.set_cons_succ]
      exact array.stores.set isCell (Nat.succ_lt_succ within) exactCells value
    · rintro i rfl
      rw [List.length_set]
      omega

end Indexed

theorem eventually_add (fits : Fits a (values.length + 1)) (value : Number) :
    ∃ t, Eval.Eventually (fun fuel => add (setting.machineAt fuel) (.pointer base) value frame) s
      (.ok value) t ∧ s.Wrote t a (values ++ [value]) := by
  obtain ⟨held, -⟩ := stores_cons.mp array.stores
  have grown := ofNat_add_one fits.count
  have exact := fits.first
  have element := isInt_element values.length whole fits (Nat.lt_succ_self _)
  have exactElement := fits.element (Nat.lt_succ_self values.length)
  have isCell : (x.add (ofNat (values.length + 1))).IsInt
      (a + (ofNat (values.length + 1) :: values).length) := by
    rwa [List.length_cons, Nat.cast_succ, ← Int.add_assoc]
  have counted : (s.setVariable x.key (.ofNat (values.length + 1))).Stores a
      (.ofNat (values.length + 1) :: values) :=
    array.stores.set (k := 0) (by rwa [Nat.cast_zero, Int.add_zero]) (Nat.succ_pos _)
      (fun i inside => array.fits.exact (Nat.le_of_lt inside)) _
  refine ⟨(s.setVariable x.key (.ofNat (values.length + 1))).setVariable
    (x.add (.ofNat (values.length + 1))).key value, ?_, ⟨?_, ?_⟩, ?_⟩
  · refine address.andThen ?_
    refine (Eval.Costs.eventually fun fuel => costs_readCell _ (held_of_cell whole exact held)).andThen ?_
    simp only [grown]
    refine (Eval.Costs.eventually fun fuel => costs_writeCell _ x _).andThen ?_
    refine (Eval.Costs.eventually fun fuel => costs_writeCell _ _ value).andThen ?_
    exact Eval.eventually_pure value _
  · rwa [List.length_append, List.length_singleton]
  · rw [List.length_append, List.length_singleton]
    exact counted.concat isCell (fun i inside => fits.exact (Nat.le_succ_of_le inside)) value
  · rw [List.length_append, List.length_singleton]
    refine ((keeps_setVariable whole exact _).mono ?_).trans
      ((keeps_setVariable element exactElement value).mono ?_)
    · rintro i rfl
      omega
    · rintro i rfl
      omega

theorem eventually_copy {target : Expr} {y : Number} {b : Int}
    (address' : setting.Gives frame s target y) (whole' : y.IsInt b) (fits : Fits b values.length) :
    ∃ t, Eval.Eventually (fun fuel => copy (setting.machineAt fuel) (.pointer base) (.pointer target) frame)
      s (.ok y) t ∧ s.Wrote t b values := by
  obtain ⟨t, allocates, wrote⟩ := eventually_allocate address' whole' fits
  exact ⟨t, (eventually_toList address whole array).andThen allocates, wrote⟩

theorem eventually_concat {second target : Expr} {y z : Number} {b c : Int} {more : List Number}
    (address' : setting.Gives frame s second y) (whole' : y.IsInt b) (array' : s.HasArray b more)
    (address'' : setting.Gives frame s target z) (whole'' : z.IsInt c)
    (fits : Fits c (values ++ more).length) :
    ∃ t, Eval.Eventually (fun fuel => concat (setting.machineAt fuel) (.pointer base) (.pointer second)
      (.pointer target) frame) s (.ok z) t ∧ s.Wrote t c (values ++ more) := by
  obtain ⟨t, allocates, wrote⟩ := eventually_allocate address'' whole'' fits
  exact ⟨t, (eventually_toList address whole array).andThen
    ((eventually_toList address' whole' array').andThen allocates), wrote⟩

theorem eventually_remove {value : Number} {position : Nat}
    (found : values.findIdx? (·.equal value) = some position) :
    ∃ t, Eval.Eventually (fun fuel => remove (setting.machineAt fuel) (.pointer base) value frame) s
      (.ok true) t ∧ s.Wrote t a (values.eraseIdx position) := by
  have fewer : (values.eraseIdx position).length ≤ values.length := List.length_eraseIdx_le ..
  obtain ⟨t, allocates, wrote⟩ := eventually_allocate address whole (array.fits.mono fewer)
  refine ⟨t, (eventually_toList address whole array).andThen ?_, wrote⟩
  simp only [found]
  exact allocates.map fun _ => true

theorem eventually_remove_none {value : Number} (none : values.findIdx? (·.equal value) = none) :
    Eval.Eventually (fun fuel => remove (setting.machineAt fuel) (.pointer base) value frame) s
      (.ok false) s := by
  refine (eventually_toList address whole array).andThen ?_
  simp only [none]
  exact Eval.eventually_pure false s

section Insert

variable {y : Number} {index : Int} (indexed : y.IsInt index)

omit address whole array in
theorem insert_eq (m : Machine) (pointer : Expr) : insert m pointer y value frame = (do
    let values ← toList m pointer frame
    if 0 ≤ place y.truncate values.length && place y.truncate values.length ≤ values.length then
      let _ ← allocate m pointer (values.insertIdx (place y.truncate values.length).toNat value) frame
      return value
    else
      let base ← m.address pointer frame
      throw (.insertOutOfRange base.key (place y.truncate values.length))) := rfl

include indexed

theorem eventually_insert
    (within : 0 ≤ place index values.length ∧ place index values.length ≤ values.length)
    (fits : Fits a (values.length + 1)) (value : Number) :
    ∃ t, Eval.Eventually (fun fuel => insert (setting.machineAt fuel) (.pointer base) y value frame) s
      (.ok value) t ∧ s.Wrote t a (values.insertIdx (place index values.length).toNat value) := by
  have same : place y.truncate values.length = place index values.length := by
    rw [indexed.truncate]
    exact (place_clamp index array.fits.count).resolve_right fun outside => outside.2 within
  have position : (place index values.length).toNat ≤ values.length := by omega
  have fits' : Fits a (values.insertIdx (place index values.length).toNat value).length := by
    rwa [List.length_insertIdx_of_le_length position]
  obtain ⟨t, allocates, wrote⟩ := eventually_allocate address whole fits'
  refine ⟨t, ?_, wrote⟩
  simp only [insert_eq]
  refine (eventually_toList address whole array).andThen ?_
  simp only [same, within, decide_true, Bool.and_self, if_true]
  exact allocates.map fun _ => value

theorem eventually_insert_outside
    (outside : ¬(0 ≤ place index values.length ∧ place index values.length ≤ values.length))
    (value : Number) :
    Eval.Eventually (fun fuel => insert (setting.machineAt fuel) (.pointer base) y value frame) s
      (.error (.insertOutOfRange x.key (place (clamp index) values.length))) s := by
  have beyond : ¬(0 ≤ place y.truncate values.length ∧ place y.truncate values.length ≤ values.length) := by
    rw [indexed.truncate]
    rcases place_clamp index array.fits.count with same | ⟨clamped, -⟩
    · exact fun within => outside (same ▸ within)
    · exact clamped
  have truncated : y.truncate = clamp index := indexed.truncate
  simp only [insert_eq]
  refine (eventually_toList address whole array).andThen ?_
  simp only [← Bool.decide_and, decide_eq_true_eq, if_neg beyond]
  rw [truncated]
  exact address.andThen (Eval.Costs.eventually fun _ => Eval.costs_throw _ s)

end Insert

end Operations

end CellArray

end Calculator
