import Calculator.Proofs.Arrays.Pointers

/-!
Arrays behind any pointer: what is read of them, and what is there once one was read, changed and written back.
-/

namespace Calculator

open Number Session

namespace Session

def elementCells (x : Number) (index : Nat) : List Number → List (String × Number)
  | [] => []
  | value :: values => (elementKey x index, value) :: elementCells x (index + 1) values

def arrayCells (x : Number) (values : List Number) : List (String × Number) :=
  (x.key, .ofNat values.length) :: elementCells x 0 values

variable {x : Number} {values : List Number}

theorem map_elementCells (x : Number) (index : Nat) (values : List Number) :
    (elementCells x index values).map Prod.fst = elementKeys x index values.length := by
  induction values generalizing index with
  | nil => rfl
  | cons value values ih => rw [elementCells, List.map_cons, ih, List.length_cons, elementKeys_succ]

theorem map_arrayCells (x : Number) (values : List Number) :
    (arrayCells x values).map Prod.fst = arrayKeys x values.length :=
  congrArg (x.key :: ·) (map_elementCells x 0 values)

theorem key_of_mem_arrayKeys {key : String} {count : Nat} (mem : key ∈ arrayKeys x count) :
    ∃ y : Number, key = y.key := by
  rcases List.mem_cons.mp mem with rfl | element
  · exact ⟨x, rfl⟩
  · obtain ⟨index, -, rfl⟩ := List.mem_map.mp element
    exact ⟨_, rfl⟩

theorem pairwise_arrayCells (apart : (arrayKeys x values.length).Nodup) :
    (arrayCells x values).Pairwise fun c d => Text.fold c.1 ≠ Text.fold d.1 := by
  rw [← map_arrayCells, List.nodup_iff_pairwise_ne, List.pairwise_map] at apart
  refine apart.imp_of_mem fun mem mem' different folds => ?_
  have named {c : String × Number} (mem : c ∈ arrayCells x values) : ∃ y : Number, c.1 = y.key :=
    key_of_mem_arrayKeys (map_arrayCells x values ▸ List.mem_map_of_mem mem)
  obtain ⟨y, key⟩ := named mem
  obtain ⟨z, key'⟩ := named mem'
  rw [key, key'] at folds different
  exact different (fold_key_injective folds)

theorem arrayKeys_sublist {n m : Nat} (le : n ≤ m) : (arrayKeys x n).Sublist (arrayKeys x m) := by
  obtain ⟨k, rfl⟩ := Nat.le.dest le
  refine List.Sublist.cons_cons _ (List.Sublist.map _ ?_)
  rw [← List.range'_append_1]
  exact List.sublist_append_left _ _

/-- There are not more elements with names of their own than can be counted. -/
theorem toCount_of_apart {n : Nat} (apart : (arrayKeys x n).Nodup) : (ofNat n).toCount = n := by
  have most : n ≤ 2 ^ 53 := by
    refine Nat.not_lt.mp fun more => ?_
    -- The offsets of two elements in a row round to one number.
    have elements : ((List.range' 0 n).map (elementKey x)).Nodup := (List.nodup_cons.mp apart).2
    have rounds : ofNat (2 ^ 53 + 1) = ofNat (2 ^ 53 - 1 + 1) := by decide +kernel
    have same : elementKey x (2 ^ 53) = elementKey x (2 ^ 53 - 1) := by
      rw [elementKey, rounds, elementKey]
    have member {index : Nat} (le : index ≤ 2 ^ 53) : index ∈ List.range' 0 n :=
      List.mem_range'_1.mpr ⟨Nat.zero_le _, by omega⟩
    have indices := List.inj_on_of_nodup_map elements (member (Nat.le_refl _)) (member (Nat.sub_le _ _)) same
    omega
  rcases Nat.lt_or_eq_of_le most with small | rfl
  · exact toCount_ofNat small
  · decide +kernel

end Session

namespace Pointer

variable {p : Pointer} {s t : Session} {x : Number} {values : List Number} {cells : List (String × Number)}
  {keys : List String}

/-- An address has an array, as it is read: the length cell tells how many elements there are. -/
structure Shows (p : Pointer) (s : Session) (x : Number) (values : List Number) : Prop where
  length : ∃ count, p.cell? s x.key = some count ∧ count.toCount = values.length
  elements : ∀ c ∈ elementCells x 0 values, p.cell? s c.1 = some c.2

/-- An array has a cell of its own for its length and for each of its elements. Where two of them are one cell,
as at addresses too large to count on from, no list is kept: what is written to one is read in the other. -/
structure HasArray (p : Pointer) (s : Session) (x : Number) (values : List Number) : Prop
    extends p.Shows s x values where
  apart : (arrayKeys x values.length).Nodup

theorem Shows.congr (shown : p.Shows s x values) (same : s.SameReadings t) : p.Shows t x values where
  length := by rw [cell?_congr same]; exact shown.length
  elements c mem := by rw [cell?_congr same]; exact shown.elements c mem

theorem valueOf_of_cell {key : String} {value : Number} (global : p.store = .global)
    (holds : p.cell? s key = some value) : s.valueOf key = value := by
  rw [cell?, global] at holds
  exact Option.some.inj holds

theorem elementsFrom_of_cells {index : Nat} (global : p.store = .global)
    (cells : ∀ c ∈ elementCells x index values, p.cell? s c.1 = some c.2) :
    s.elementsFrom x index values.length = values := by
  induction values generalizing index with
  | nil => rfl
  | cons value values ih =>
      obtain ⟨here, others⟩ := List.forall_mem_cons.mp cells
      rw [List.length_cons, elementsFrom_succ, valueOf_of_cell global here, ih others]

theorem Shows.readsArray (shown : p.Shows s x values) (global : p.store = .global) : s.ReadsArray x values := by
  obtain ⟨count, holds, counted⟩ := shown.length
  refine readsArray_of_eq ?_
  rw [Session.elements, Session.count, valueOf_of_cell global holds, counted]
  exact elementsFrom_of_cells global shown.elements

def setCells (p : Pointer) (s : Session) (cells : List (String × Number)) : Session :=
  cells.foldl (fun s c => p.setCell s c.1 c.2) s

theorem later_setCells (within : cells.map Prod.fst ⊆ keys) : p.Later keys s (p.setCells s cells) := by
  induction cells generalizing s with
  | nil => exact .refl
  | cons c cells ih =>
      obtain ⟨mem, others⟩ := List.cons_subset.mp within
      exact Later.trans (.write .refl mem c.2) (ih others)

theorem skeleton_setCells (p : Pointer) (s : Session) (cells : List (String × Number)) :
    (p.setCells s cells).skeleton = s.skeleton := by
  induction cells generalizing s with
  | nil => rfl
  | cons c cells ih => exact (ih _).trans (p.skeleton_setCell s c.1 c.2)

theorem held_setCells_other {key : String} {value : Number}
    (absent : ∀ c ∈ cells, Text.fold key ≠ Text.fold c.1) (held : p.Held s key value) :
    p.Held (p.setCells s cells) key value := by
  induction cells generalizing s with
  | nil => exact held
  | cons c cells ih =>
      obtain ⟨different, others⟩ := List.forall_mem_cons.mp absent
      exact ih others (held_setCell_other different.symm held)

theorem held_setCells (apart : cells.Pairwise fun c d => Text.fold c.1 ≠ Text.fold d.1) (s : Session) :
    ∀ c ∈ cells, p.Held (p.setCells s cells) c.1 c.2 := by
  induction apart generalizing s with
  | nil => exact List.forall_mem_nil _
  | @cons c cells absent _ ih =>
      have here : p.Held (p.setCells (p.setCell s c.1 c.2) cells) c.1 c.2 :=
        held_setCells_other absent (p.held_setCell s c.1 c.2)
      exact List.forall_mem_cons.mpr ⟨here, ih _⟩

theorem readings_setCells (held : ∀ c ∈ cells, p.Held s c.1 c.2) : s.SameReadings (p.setCells s cells) := by
  induction cells generalizing s with
  | nil => exact .refl s
  | cons c cells ih =>
      obtain ⟨here, others⟩ := List.forall_mem_cons.mp held
      exact here.readings_setCell.trans (ih fun d mem => here.held_setCell (others d mem))

theorem hasArray_of_held (apart : (arrayKeys x values.length).Nodup)
    (held : ∀ c ∈ arrayCells x values, p.Held s c.1 c.2) (live : p.Live s) : p.HasArray s x values where
  length := ⟨_, (held _ List.mem_cons_self).cell? live, toCount_of_apart apart⟩
  elements c mem := (held c (List.mem_cons_of_mem _ mem)).cell? live
  apart := apart

theorem live_setCells (live : p.Live s) (cells : List (String × Number)) : p.Live (p.setCells s cells) :=
  (live_congr (p.skeleton_setCells s cells)).mpr live

theorem hasArray_setCells (apart : (arrayKeys x values.length).Nodup) (live : p.Live s) :
    p.HasArray (p.setCells s (arrayCells x values)) x values :=
  hasArray_of_held apart (p.held_setCells (pairwise_arrayCells apart) s) (live_setCells live _)

theorem Shows.eq_nil (shown : p.Shows s x values) (gone : ¬p.Live s) : values = [] := by
  obtain ⟨count, reads, counted⟩ := shown.length
  rw [cell?_of_not_live gone] at reads
  cases reads
  exact List.length_eq_zero_iff.mp (counted.symm.trans (by decide +kernel))

section Rewritten

variable {values' : List Number} (same : s.SameValues t)
include same

theorem later_rewritten (within : arrayKeys x values'.length ⊆ keys) :
    p.Later keys s (p.setCells t (arrayCells x values')) :=
  Later.trans (.read .refl same) (later_setCells ((map_arrayCells x values').symm ▸ within))

theorem Shows.rewritten (shown : p.Shows s x values) (shorter : values'.length ≤ values.length)
    (apart : (arrayKeys x values'.length).Nodup) :
    p.HasArray (p.setCells t (arrayCells x values')) x values' := by
  by_cases live : p.Live t
  · exact hasArray_setCells apart live
  · -- Nothing is written, but there was no element to begin with.
    have gone : ¬p.Live s := fun here => live ((live_congr same.readings.skeleton).mpr here)
    have gone' : ¬p.Live (p.setCells t (arrayCells x values')) := fun here =>
      live ((live_congr (p.skeleton_setCells t _)).mp here)
    have none : values' = [] := by
      have empty := List.length_eq_zero_iff.mpr (shown.eq_nil gone)
      exact List.length_eq_zero_iff.mp (Nat.le_zero.mp (empty ▸ shorter))
    rw [none] at gone' apart ⊢
    exact ⟨⟨⟨_, cell?_of_not_live gone' _, by decide +kernel⟩, List.forall_mem_nil _⟩, apart⟩

end Rewritten

end Pointer

namespace PointsTo

variable {setting : Setting} {frame : FrameId} {expr : Expr} {p : Pointer} {x : Number} {keys : List String}
  {s : Session} {values : List Number}

section Reading

variable (points : PointsTo setting frame expr p x keys s)
include points

theorem eventually_visitFrom {σ : Type} (visitor : σ → Nat → Number → ForInStep σ) {index : Nat}
    (elements : ∀ c ∈ elementCells x index values, p.cell? s c.1 = some c.2) (state : σ) :
    ∃ t, Eval.Eventually (fun fuel => CellArray.visitFrom (setting.machineAt fuel) expr x frame
        (fun state index value => return visitor state index value) index values.length state) s
          (.ok (CellArray.walk visitor index values state)) t ∧ s.SameValues t := by
  induction values generalizing index state s with
  | nil => exact ⟨s, Eval.eventually_pure state s, .refl s⟩
  | cons value values ih =>
      obtain ⟨here, others⟩ := List.forall_mem_cons.mp elements
      obtain ⟨u, reads, same⟩ := points.eventually_readCell (y := x.add (.ofNat (index + 1))) here
      cases visited : visitor state index value with
      | done last =>
          refine ⟨u, reads.andThen ((Eval.eventually_pure _ u).andThen ?_), same⟩
          rw [CellArray.walk, visited]
          exact Eval.eventually_pure last u
      | yield next =>
          have others (c : String × Number) (mem : c ∈ elementCells x (index + 1) values) :
              p.cell? u c.1 = some c.2 := (Pointer.cell?_congr same.readings c.1).trans (others c mem)
          obtain ⟨t, visits, same'⟩ := ih (points.read same) others next
          refine ⟨t, reads.andThen ((Eval.eventually_pure _ u).andThen ?_), same.trans same'⟩
          rw [CellArray.walk, visited]
          exact visits

variable (shown : p.Shows s x values)
include shown

theorem eventually_visit {σ : Type} (visitor : σ → Nat → Number → ForInStep σ) (state : σ) :
    ∃ t, Eval.Eventually (fun fuel => CellArray.visit (setting.machineAt fuel) expr frame state
        fun state index value => return visitor state index value) s
          (.ok (CellArray.walk visitor 0 values state)) t ∧ s.SameValues t := by
  obtain ⟨u, addressed, same⟩ := points.eventually_address
  obtain ⟨count, held, counted⟩ := (shown.congr same.readings).length
  obtain ⟨v, reads, same'⟩ := (points.read same).eventually_readCell held
  have kept := same.trans same'
  obtain ⟨t, visits, same''⟩ := (points.read kept).eventually_visitFrom visitor
    (shown.congr kept.readings).elements state
  refine ⟨t, addressed.andThen (reads.andThen ?_), kept.trans same''⟩
  simpa only [counted] using visits

theorem eventually_toList :
    ∃ t, Eval.Eventually (fun fuel => CellArray.toList (setting.machineAt fuel) expr frame) s (.ok values) t ∧
      s.SameValues t := by
  obtain ⟨t, visits, same⟩ := points.eventually_visit shown
    (fun elements _ element => .yield (element :: elements)) []
  have collected := visits.map List.reverse
  rw [CellArray.reverse_walk_collect] at collected
  exact ⟨t, collected, same⟩

theorem eventually_indexOf (value : Number) :
    ∃ t, Eval.Eventually (fun fuel => CellArray.indexOf? (setting.machineAt fuel) expr value frame) s
      (.ok (values.findIdx? (·.equal value))) t ∧ s.SameValues t := by
  obtain ⟨t, visits, same⟩ := points.eventually_visit shown
    (fun _ index element => if element.equal value then .done (some index) else .yield none) none
  rw [CellArray.walk_search_all (·.equal value)] at visits
  exact ⟨t, visits, same⟩

end Reading

section Writing

variable (points : PointsTo setting frame expr p x keys s)
include points

theorem eventually_storeFrom {index : Nat} (within : elementKeys x index values.length ⊆ keys) :
    Eval.Eventually (fun fuel => CellArray.storeFrom (setting.machineAt fuel) expr x index values frame) s
      (.ok ()) (p.setCells s (elementCells x index values)) := by
  induction values generalizing index s with
  | nil => exact Eval.eventually_pure () s
  | cons value values ih =>
      rw [List.length_cons, elementKeys_succ] at within
      obtain ⟨mem, others⟩ := List.cons_subset.mp within
      exact (points.eventually_writeCell _ value).andThen (ih (points.later (.write .refl mem value)) others)

theorem eventually_allocate (within : arrayKeys x values.length ⊆ keys) :
    ∃ u, s.SameValues u ∧ Eval.Eventually (fun fuel =>
      CellArray.allocate (setting.machineAt fuel) expr values frame) s (.ok x)
        (p.setCells u (arrayCells x values)) := by
  obtain ⟨mem, elements⟩ := List.cons_subset.mp within
  obtain ⟨u, addressed, same⟩ := points.eventually_address
  have points' := points.read same
  have stores := (points'.later (.write .refl mem (.ofNat values.length))).eventually_storeFrom elements
  exact ⟨u, same, addressed.andThen ((points'.eventually_writeCell x _).andThen
    (stores.andThen (Eval.eventually_pure x _)))⟩

end Writing

theorem eventually_rewrite (points : PointsTo setting frame expr p x keys s) (shown : p.Shows s x values)
    {change : List Number → List Number} (within : arrayKeys x (change values).length ⊆ keys) :
    ∃ u, s.SameValues u ∧ Eval.Eventually (fun fuel => do
      let values ← CellArray.toList (setting.machineAt fuel) expr frame
      CellArray.allocate (setting.machineAt fuel) expr (change values) frame) s (.ok x)
        (p.setCells u (arrayCells x (change values))) := by
  obtain ⟨u, lists, same⟩ := points.eventually_toList shown
  obtain ⟨v, same', allocates⟩ := (points.read same).eventually_allocate within
  exact ⟨v, same.trans same', lists.andThen allocates⟩

end PointsTo

end Calculator
