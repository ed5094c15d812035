import Calculator.Eval.CellArray
import Calculator.Proofs.Costs
import Calculator.Proofs.Number.Key

/-!
Arrays in the cells of the global store.

The cell at an integer address is the variable whose name is the address. An array takes the cells from
its address on: its length, and then its elements.
-/

namespace Calculator

open Number

namespace Session

variable {s t u : Session} {a i j : Int} {x : Number}

def cell? (s : Session) (i : Int) : Option Number := s.globals[Text.fold (ofInt i).key]?

theorem cell?_setVariable (whole : x.IsInt i) (exact : Exact i) (exact' : Exact j) (value : Number) :
    (s.setVariable x.key value).cell? j = if i = j then some value else s.cell? j := by
  have other := isInt_ofInt exact'
  unfold cell? setVariable
  rw [Std.TreeMap.getElem?_insert, whole.fold_key, other.fold_key]
  simp only [Std.LawfulEqCmp.compare_eq_iff_eq]
  by_cases same : i = j
  · subst same
    rw [if_pos (whole.key_ofInt exact), if_pos rfl]
  · rw [if_neg fun keys => same (whole.key_injective other keys), if_neg same]

theorem held_of_cell (whole : x.IsInt i) (exact : Exact i) {value : Number}
    (held : s.cell? i = some value) : s.globals[Text.fold x.key]? = some value := by
  rwa [whole.key_ofInt exact]

def Named (name : String) : Prop := (Text.fold name).toList.any (0x41 ≤ ·.toNat) = true

instance (name : String) : Decidable (Named name) :=
  inferInstanceAs (Decidable ((Text.fold name).toList.any (0x41 ≤ ·.toNat) = true))

theorem Named.ne_key {name : String} (named : Named name) (whole : x.IsInt i) : Text.fold name ≠ x.key := by
  obtain ⟨c, mem, high⟩ := List.any_eq_true.mp named
  intro same
  have low := whole.key_low c (same ▸ mem)
  have high := of_decide_eq_true high
  omega

theorem cell?_setVariable_name {name : String} (named : Named name) (exact : Exact j) (value : Number) :
    (s.setVariable name value).cell? j = s.cell? j := by
  have numeral := isInt_ofInt exact
  unfold cell? setVariable
  rw [Std.TreeMap.getElem?_insert, numeral.fold_key, if_neg]
  rw [Std.LawfulEqCmp.compare_eq_iff_eq]
  exact named.ne_key numeral

structure Keeps (s t : Session) (changed : Int → Prop) : Prop where
  cell {i : Int} : Exact i → ¬changed i → t.cell? i = s.cell? i
  named {name : String} : Named name → t.globals[Text.fold name]? = s.globals[Text.fold name]?
  rest : t = { s with globals := t.globals }

theorem Keeps.refl (s : Session) (changed : Int → Prop) : s.Keeps s changed :=
  ⟨fun _ _ => rfl, fun _ => rfl, rfl⟩

theorem Keeps.trans {changed : Int → Prop} (first : s.Keeps t changed) (second : t.Keeps u changed) :
    s.Keeps u changed where
  cell exact other := (second.cell exact other).trans (first.cell exact other)
  named letter := (second.named letter).trans (first.named letter)
  rest := by
    rw [second.rest, first.rest]

theorem Keeps.mono {changed more : Int → Prop} (keeps : s.Keeps t changed)
    (implies : ∀ i, changed i → more i) : s.Keeps t more :=
  ⟨fun exact other => keeps.cell exact fun here => other (implies _ here), keeps.named, keeps.rest⟩

theorem keeps_setVariable (whole : x.IsInt i) (exact : Exact i) (value : Number) :
    s.Keeps (s.setVariable x.key value) (· = i) where
  cell exact' other := by rw [cell?_setVariable whole exact exact', if_neg (Ne.symm other)]
  named letter := by
    rw [setVariable, Std.TreeMap.getElem?_insert, whole.fold_key, if_neg]
    rw [Std.LawfulEqCmp.compare_eq_iff_eq]
    exact (letter.ne_key whole).symm
  rest := rfl

def Stores (s : Session) (a : Int) (values : List Number) : Prop :=
  ∀ (k : Nat) value, values[k]? = some value → s.cell? (a + k) = some value

theorem stores_nil (s : Session) (a : Int) : s.Stores a [] := by
  intro k value found
  cases found

theorem stores_cons {value : Number} {values : List Number} :
    s.Stores a (value :: values) ↔ s.cell? a = some value ∧ s.Stores (a + 1) values := by
  constructor
  · intro stores
    refine ⟨by simpa using stores 0 value rfl, fun k v found => ?_⟩
    have held := stores (k + 1) v found
    rwa [Nat.cast_succ, ← Int.add_assoc, Int.add_right_comm] at held
  · rintro ⟨here, others⟩ k v found
    cases k with
    | zero =>
        cases found
        simpa using here
    | succ k =>
        rw [Nat.cast_succ, ← Int.add_assoc, Int.add_right_comm]
        exact others k v found

theorem Stores.kept {values : List Number} {changed : Int → Prop} (stores : s.Stores a values)
    (keeps : s.Keeps t changed)
    (apart : ∀ k : Nat, k < values.length → Exact (a + k) ∧ ¬changed (a + k)) : t.Stores a values := by
  intro k value found
  obtain ⟨exact, other⟩ := apart k (List.getElem?_eq_some_iff.mp found).1
  rw [keeps.cell exact other]
  exact stores k value found

theorem Stores.set {values : List Number} {k : Nat} (stores : s.Stores a values)
    (whole : x.IsInt (a + k)) (within : k < values.length)
    (exact : ∀ i : Nat, i < values.length → Exact (a + i)) (value : Number) :
    (s.setVariable x.key value).Stores a (values.set k value) := by
  intro i v found
  have inside : i < values.length := by
    have := (List.getElem?_eq_some_iff.mp found).1
    rwa [List.length_set] at this
  rw [cell?_setVariable whole (exact k within) (exact i inside)]
  rw [List.getElem?_set] at found
  by_cases same : k = i
  · rw [if_pos same, if_pos within] at found
    rw [if_pos (by rw [same]), found]
  · rw [if_neg same] at found
    rw [if_neg (by omega)]
    exact stores i v found

theorem Stores.concat {values : List Number} (stores : s.Stores a values)
    (whole : x.IsInt (a + values.length)) (exact : ∀ i : Nat, i ≤ values.length → Exact (a + i))
    (value : Number) : (s.setVariable x.key value).Stores a (values ++ [value]) := by
  intro i v found
  have inside : i < values.length + 1 := by
    have := (List.getElem?_eq_some_iff.mp found).1
    rwa [List.length_append, List.length_singleton] at this
  rw [cell?_setVariable whole (exact _ (Nat.le_refl _)) (exact i (by omega))]
  by_cases last : i = values.length
  · subst last
    rw [List.getElem?_concat_length] at found
    rw [if_pos rfl, found]
  · rw [List.getElem?_append_left (by omega)] at found
    rw [if_neg (by omega)]
    exact stores i v found

def elementKey (x : Number) (index : Nat) : String := (x.add (.ofNat (index + 1))).key

def Elements (s : Session) (x : Number) : Nat → List Number → Prop
  | _, [] => True
  | index, value :: values =>
    s.globals[Text.fold (elementKey x index)]? = some value ∧ s.Elements x (index + 1) values

/-- The cells of an array at an address have exact addresses, and its length is exact as well. -/
structure Fits (a : Int) (length : Nat) : Prop where
  first : Exact a
  behind : Exact (a + length + 1)
  count : length < 2 ^ 53

theorem Fits.exact {length k : Nat} (fits : Fits a length) (within : k ≤ length + 1) : Exact (a + k) := by
  obtain ⟨⟨low, _⟩, ⟨_, high⟩, _⟩ := fits
  exact ⟨by omega, by omega⟩

theorem Fits.mono {length length' : Nat} (fits : Fits a length) (le : length' ≤ length) :
    Fits a length' := by
  have behind := fits.exact (Nat.succ_le_succ le)
  rw [Nat.cast_succ, ← Int.add_assoc] at behind
  exact ⟨fits.first, behind, Nat.lt_of_le_of_lt le fits.count⟩

theorem Fits.element {length k : Nat} (fits : Fits a length) (within : k < length) : Exact (a + k + 1) := by
  have exact := fits.exact (Nat.le_succ_of_le within)
  rwa [Nat.cast_succ, ← Int.add_assoc] at exact

structure HasArray (s : Session) (a : Int) (values : List Number) : Prop where
  fits : Fits a values.length
  stores : s.Stores a (.ofNat values.length :: values)

structure HasCells (s : Session) (x : Number) (values : List Number) : Prop where
  length : s.globals[Text.fold x.key]? = some (.ofNat values.length)
  elements : s.Elements x 0 values

structure Wrote (s t : Session) (a : Int) (values : List Number) : Prop where
  array : t.HasArray a values
  keeps : s.Keeps t fun i => a ≤ i ∧ i ≤ a + values.length

end Session

end Calculator
