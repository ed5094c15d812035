import Calculator.Proofs.Arrays.Text
import Calculator.Proofs.Places

/-!
Arrays as they are read.

Any number may stand in the length cell, and cells that were never written count as zero. So every address
has an array, and reading it creates the cells that are missing but changes the value of none.
-/

namespace Calculator

open Number Session

namespace Session

variable {s t u : Session}

/-- One session comes from the other by reading variables. -/
structure SameValues (s t : Session) : Prop where
  values : ∀ name, t.valueOf name = s.valueOf name
  rest : t = { s with globals := t.globals }

theorem SameValues.refl (s : Session) : s.SameValues s := ⟨fun _ => rfl, rfl⟩

theorem SameValues.trans (first : s.SameValues t) (second : t.SameValues u) : s.SameValues u where
  values name := (second.values name).trans (first.values name)
  rest := by rw [second.rest, first.rest]

theorem sameValues_readVariable (s : Session) (name : String) :
    s.SameValues (s.readVariable name).2 where
  values := s.valueOf_readVariable name
  rest := by
    unfold readVariable
    split
    · rfl
    · rfl

def elementsFrom (s : Session) (x : Number) (index count : Nat) : List Number :=
  (List.range' index count).map fun index => s.valueOf (elementKey x index)

def count (s : Session) (x : Number) : Nat := (s.valueOf x.key).toCount

def elements (s : Session) (x : Number) : List Number := s.elementsFrom x 0 (s.count x)

theorem elementsFrom_succ (s : Session) (x : Number) (index count : Nat) :
    s.elementsFrom x index (count + 1) =
      s.valueOf (elementKey x index) :: s.elementsFrom x (index + 1) count := by
  rw [elementsFrom, List.range'_succ, List.map_cons]
  rfl

theorem length_elements (s : Session) (x : Number) : (s.elements x).length = s.count x := by
  rw [elements, elementsFrom, List.length_map, List.length_range']

theorem SameValues.elementsFrom (same : s.SameValues t) (x : Number) (index count : Nat) :
    t.elementsFrom x index count = s.elementsFrom x index count :=
  List.map_congr_left fun _ _ => same.values _

theorem Elements.elementsFrom_eq {x : Number} {values : List Number} {index : Nat}
    (elements : s.Elements x index values) : s.elementsFrom x index values.length = values := by
  induction values generalizing index with
  | nil => rfl
  | cons value values ih =>
      obtain ⟨here, others⟩ := elements
      rw [List.length_cons, elementsFrom_succ, ih others, valueOf, here]
      rfl

theorem HasCells.elements_eq {x : Number} {values : List Number} (cells : s.HasCells x values)
    (small : values.length < 2 ^ 53) : s.elements x = values := by
  have counted : s.count x = values.length := by
    rw [count, valueOf, cells.length, Option.getD_some, toCount_ofNat small]
  rw [Session.elements, counted, cells.elements.elementsFrom_eq]

def storedFrom (s : Session) (x : Number) (index : Nat) : List Number → Session
  | [] => s
  | value :: values => (s.setVariable (elementKey x index) value).storedFrom x (index + 1) values

def stored (s : Session) (x : Number) (values : List Number) : Session :=
  (s.setVariable x.key (.ofNat values.length)).storedFrom x 0 values

/-- What reading the array at an address comes to, on every engine with these variables. -/
def ReadsArray (s : Session) (x : Number) (values : List Number) : Prop :=
  ∀ engine : Engine, engine.session.globals = s.globals → ∃ enough, ∀ fuel, enough ≤ fuel →
    ∃ after, engine.readArray fuel x = some (values, after)

theorem ReadsArray.unique {x : Number} {values values' : List Number} (reads : s.ReadsArray x values)
    (reads' : s.ReadsArray x values') : values = values' := by
  let engine : Engine := ⟨.standard, .standard, s⟩
  obtain ⟨enough, runs⟩ := reads engine rfl
  obtain ⟨enough', runs'⟩ := reads' engine rfl
  obtain ⟨after, ran⟩ := runs (max enough enough') (Nat.le_max_left _ _)
  obtain ⟨after', ran'⟩ := runs' (max enough enough') (Nat.le_max_right _ _)
  rw [ran] at ran'
  exact congrArg Prod.fst (Option.some.inj ran')

end Session

namespace CellArray

variable {frame : FrameId} {s : Session} {x : Number} {setting : Setting}

theorem costs_readValue (m : Machine) (base : Expr) (y : Number) :
    (m.readCell (.pointer base) y frame).Costs 1 s (.ok (s.valueOf y.key)) (s.readVariable y.key).2 := by
  rw [← s.readVariable_value]
  exact Eval.costs_update (·.readVariable y.key) s

section Visit

variable {σ : Type} {m : Machine} {base : Expr} {visitor : σ → Nat → Number → Eval (ForInStep σ)}

def afterVisit (m : Machine) (base : Expr) (x : Number) (frame : FrameId)
    (visitor : σ → Nat → Number → Eval (ForInStep σ)) (index count : Nat) : ForInStep σ → Eval σ
  | .done state => return state
  | .yield state => visitFrom m (.pointer base) x frame visitor index count state

theorem visitFrom_succ (index count : Nat) (state : σ) :
    visitFrom m (.pointer base) x frame visitor index (count + 1) state =
      Eval.readVariable (elementKey x index) >>= fun element =>
        visitor state index element >>= afterVisit m base x frame visitor (index + 1) count := by
  refine congrArg (Eval.readVariable (elementKey x index) >>= ·) (funext fun element => ?_)
  refine congrArg (visitor state index element >>= ·) (funext fun step => ?_)
  cases step with
  | done state => rfl
  | yield state => rfl

end Visit

theorem costs_visitValues {σ : Type} {base : Expr} (visitor : σ → Nat → Number → ForInStep σ)
    (index count : Nat) (state : σ) :
    ∃ cost t, (∀ m : Machine, (visitFrom m (.pointer base) x frame
      (fun state index value => return visitor state index value) index count state).Costs cost s
        (.ok (walk visitor index (s.elementsFrom x index count) state)) t) ∧ s.SameValues t := by
  induction count generalizing index s state with
  | zero => exact ⟨0, s, fun m => Eval.costs_pure state s, .refl s⟩
  | succ count ih =>
      have read (m : Machine) := @costs_readValue frame s m base (x.add (.ofNat (index + 1)))
      have kept := s.sameValues_readVariable (elementKey x index)
      rw [elementsFrom_succ, walk]
      cases visited : visitor state index (s.valueOf (elementKey x index)) with
      | done last =>
          refine ⟨1 + (0 + 0), _, fun m => (read m).andThen ((Eval.costs_pure _ _).andThen ?_), kept⟩
          rw [← elementKey, visited]
          exact Eval.costs_pure last _
      | yield next =>
          obtain ⟨cost, t, costs, same⟩ := ih (s := (s.readVariable (elementKey x index)).2) (index + 1) next
          rw [kept.elementsFrom] at costs
          refine ⟨1 + (0 + cost), t, fun m => (read m).andThen ((Eval.costs_pure _ _).andThen ?_),
            kept.trans same⟩
          rw [← elementKey, visited]
          exact costs m

theorem eventually_lengthValue (s : Session) (x : Number) :
    Eval.Eventually (fun fuel => length (setting.machineAt fuel) (cellAt x) frame) s
      (.ok (s.valueOf x.key)) (s.readVariable x.key).2 :=
  (Place.eventually_address x).andThen (Eval.Costs.eventually fun _ => costs_readValue _ _ x)

section Forward

variable {base : Expr} {y : Number} (address : setting.Gives frame s base x)
  (forward : ¬y.less zero = true)
include address forward

theorem eventually_cellForward :
    Eval.Eventually (fun fuel => cell (setting.machineAt fuel) (.pointer base) y frame) s
      (.ok ((x.add y).add one)) s := by
  have asked : Eval.Eventually (fun fuel => (setting.machineAt fuel).address (.pointer base) frame) s
    (.ok x) s := address
  simp only [cell, if_neg forward]
  exact asked.map fun base => (base.add y).add one

theorem eventually_setForward (value : Number) :
    Eval.Eventually (fun fuel => set (setting.machineAt fuel) (.pointer base) y value frame) s (.ok value)
      (s.setVariable ((x.add y).add one).key value) :=
  (eventually_cellForward address forward).andThen
    ((Eval.Costs.eventually fun _ => costs_writeCell _ _ value).andThen (Eval.eventually_pure value _))

end Forward

theorem not_less_ofNat (n : Nat) : ¬(ofNat n).less zero = true := by
  intro less
  have below : (ofNat n).position < zero.position := by
    simp only [Number.less, Bool.and_eq_true, decide_eq_true_eq] at less
    exact less.2
  have least : 0 ≤ (ofNat n).position := Int.natCast_nonneg _
  exact absurd below (Int.not_lt.mpr least)

theorem eventually_elements :
    ∃ t, Eval.Eventually (fun fuel => toList (setting.machineAt fuel) (cellAt x) frame) s
      (.ok (s.elements x)) t ∧ s.SameValues t := by
  have kept := s.sameValues_readVariable x.key
  obtain ⟨cost, t, costs, same⟩ := @costs_visitValues frame (s.readVariable x.key).2 x _ (.constant x)
    (fun elements _ element => .yield (element :: elements)) 0 (s.count x) []
  rw [kept.elementsFrom] at costs
  have visits : Eval.Eventually (fun fuel => visit (setting.machineAt fuel) (cellAt x) frame []
      fun elements _ element => return .yield (element :: elements)) s _ t :=
    (Place.eventually_address x).andThen ((Eval.Costs.eventually fun fuel => costs_readValue _ _ x).andThen
      (Eval.Costs.eventually fun fuel => costs _))
  have collected := visits.map List.reverse
  rw [reverse_walk_collect] at collected
  exact ⟨t, collected, kept.trans same⟩

theorem costs_stored {base : Expr} (m : Machine) (s : Session) (values : List Number) (index : Nat) :
    (storeFrom m (.pointer base) x index values frame).Costs values.length s (.ok ())
      (s.storedFrom x index values) := by
  induction values generalizing s index with
  | nil => exact Eval.costs_pure () s
  | cons value values ih =>
      rw [List.length_cons, Nat.add_comm]
      exact (costs_writeCell m _ value).andThen (ih _ (index + 1))

theorem eventually_allocateStored {base : Expr} (address : setting.Gives frame s base x)
    (values : List Number) :
    Eval.Eventually (fun fuel => allocate (setting.machineAt fuel) (.pointer base) values frame) s (.ok x)
      (s.stored x values) := by
  have asked : Eval.Eventually (fun fuel => (setting.machineAt fuel).address (.pointer base) frame) s
    (.ok x) s := address
  refine asked.andThen ?_
  refine (Eval.Costs.eventually fun _ => costs_writeCell _ x _).andThen ?_
  exact (Eval.Costs.eventually fun _ => costs_stored _ _ values 0).andThen (Eval.eventually_pure x _)

end CellArray

theorem Session.readsArray_elements (s : Session) (x : Number) : s.ReadsArray x (s.elements x) := by
  intro engine globals
  have same (name : String) : (engine.session.push .main).valueOf name = s.valueOf name := by
    rw [valueOf, valueOf, ← globals]
    rfl
  have elements : (engine.session.push .main).elements x = s.elements x := by
    rw [Session.elements, Session.elements, count, count, same]
    exact List.map_congr_left fun _ _ => same _
  obtain ⟨t, lists, kept⟩ := @CellArray.eventually_elements engine.session.frames.size
    (engine.session.push .main) x engine.setting
  rw [elements] at lists
  obtain ⟨enough, reads⟩ := engine.eventually_inMainFrame
    (x := fun fuel => CellArray.toList (engine.setting.machineAt fuel) (cellAt x)) lists kept.rest
  refine ⟨enough, fun fuel most => ⟨engine.withGlobals t.globals, ?_⟩⟩
  unfold Engine.readArray
  simp only [reads fuel most]
  rfl

theorem Session.readsArray_of_eq {s : Session} {x : Number} {values : List Number}
    (same : s.elements x = values) : s.ReadsArray x values := same ▸ s.readsArray_elements x

theorem Session.readsArray_stored (s : Session) {x : Number} {values : List Number}
    (apart : (arrayKeys x values.length).Nodup) (small : values.length < 2 ^ 53) :
    (s.stored x values).ReadsArray x values := by
  let setting : Setting := ⟨.standard, true⟩
  have address : setting.Gives 0 s (.constant x) x := gives_constant x
  obtain ⟨t, allocates, cells, _⟩ := CellArray.eventually_allocateCells address apart
  obtain ⟨-, rfl⟩ := allocates.unique (CellArray.eventually_allocateStored address values)
  exact readsArray_of_eq (cells.elements_eq small)

end Calculator
