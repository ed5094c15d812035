import Calculator.Eval.CellArray
import Calculator.Proofs.Correspondence.Machine

/-! Arrays on machines that evaluate alike. -/

namespace Calculator

namespace Correspondence

variable {C : Correspondence} {w : C.World} {f f' : FrameId} {p p' : Expr}

namespace Machines

variable {m m' : Machine} (h : C.Machines m m')
include h

section Array

variable (pointers : C.expr p p') (frames : C.frame w f f')
include pointers frames

theorem storeFrom (base : Number) (index : Nat) (values : List Number) :
    C.Related w Eq (CellArray.storeFrom m p base index values f)
      (CellArray.storeFrom m' p' base index values f') := by
  induction values generalizing index with
  | nil => exact .value rfl
  | cons value values ih =>
      exact (h.writeCell _ value pointers frames).andThenSame fun _ => ih (index + 1)

theorem allocate (values : List Number) :
    C.Related w Eq (CellArray.allocate m p values f) (CellArray.allocate m' p' values f') := by
  apply (h.address pointers frames).andThenSame
  intro base
  apply (h.writeCell base _ pointers frames).andThenSame
  intro _
  exact (h.storeFrom pointers frames base 0 values).andThenSame fun _ => .value rfl

theorem arrayLength : C.Related w Eq (CellArray.length m p f) (CellArray.length m' p' f') :=
  (h.address pointers frames).andThenSame fun base => h.readCell base pointers frames

theorem arrayCell (index : Number) :
    C.Related w Eq (CellArray.cell m p index f) (CellArray.cell m' p' index f') := by
  have at_index : ∀ index : Number,
      C.Related w Eq (do let base ← m.address p f; return (base.add index).add .one)
        (do let base ← m'.address p' f'; return (base.add index).add .one) :=
    fun index => (h.address pointers frames).andThenSame fun base => .value rfl
  unfold CellArray.cell
  split
  · simp only [pure_bind]
    exact (h.arrayLength pointers frames).andThenSame fun length => at_index _
  · exact at_index index

theorem arrayGet (index : Number) :
    C.Related w Eq (CellArray.get m p index f) (CellArray.get m' p' index f') :=
  (h.arrayCell pointers frames index).andThenSame fun cell => h.readCell cell pointers frames

theorem arraySet (index value : Number) :
    C.Related w Eq (CellArray.set m p index value f) (CellArray.set m' p' index value f') := by
  apply (h.arrayCell pointers frames index).andThenSame
  intro cell
  exact (h.writeCell cell value pointers frames).andThenSame fun _ => .value rfl

theorem arrayAdd (value : Number) :
    C.Related w Eq (CellArray.add m p value f) (CellArray.add m' p' value f') := by
  apply (h.address pointers frames).andThenSame
  intro base
  apply (h.readCell base pointers frames).andThenSame
  intro length
  apply (h.writeCell base _ pointers frames).andThenSame
  intro _
  exact (h.writeCell _ value pointers frames).andThenSame fun _ => .value rfl

section Visit

variable {σ : Type} {look look' : σ → Nat → Number → Eval (ForInStep σ)}
  (visits : ∀ state index element,
    C.Related w Eq (look state index element) (look' state index element))
include visits

theorem visitFrom (base : Number) (index count : Nat) (state : σ) :
    C.Related w Eq (CellArray.visitFrom m p base f look index count state)
      (CellArray.visitFrom m' p' base f' look' index count state) := by
  induction count generalizing index state with
  | zero => exact .value rfl
  | succ count ih =>
      apply (h.readCell _ pointers frames).andThenSame
      intro element
      apply (visits state index element).andThenSame
      intro next
      cases next with
      | done state => exact .value rfl
      | yield state => exact ih (index + 1) state

theorem visit (state : σ) :
    C.Related w Eq (CellArray.visit m p f state look) (CellArray.visit m' p' f' state look') := by
  apply (h.address pointers frames).andThenSame
  intro base
  apply (h.readCell base pointers frames).andThenSame
  intro length
  exact h.visitFrom pointers frames visits base 0 _ state

end Visit

theorem toList : C.Related w Eq (CellArray.toList m p f) (CellArray.toList m' p' f') :=
  (h.visit pointers frames (fun _ _ _ => .value rfl) []).andThenSame fun _ => .value rfl

theorem arrayInsert (index value : Number) :
    C.Related w Eq (CellArray.insert m p index value f)
      (CellArray.insert m' p' index value f') := by
  apply (h.toList pointers frames).andThenSame
  intro values
  dsimp only
  generalize (if index.truncate < 0 then _ else _) = position
  split
  · exact (h.allocate pointers frames _).andThenSame fun _ => .value rfl
  · exact (h.address pointers frames).andThenSame fun base => .fault (C.fault_refl _ fun _ => id)

theorem arrayRemove (value : Number) :
    C.Related w Eq (CellArray.remove m p value f) (CellArray.remove m' p' value f') := by
  apply (h.toList pointers frames).andThenSame
  intro values
  cases values.findIdx? (·.equal value) with
  | none => exact .value rfl
  | some position => exact (h.allocate pointers frames _).andThenSame fun _ => .value rfl

theorem indexOf (value : Number) :
    C.Related w Eq (CellArray.indexOf? m p value f) (CellArray.indexOf? m' p' value f') :=
  h.visit pointers frames (fun _ _ _ => .value rfl) none

theorem setify : C.Related w Eq (CellArray.setify m p f) (CellArray.setify m' p' f') :=
  (h.toList pointers frames).andThenSame fun _ => h.allocate pointers frames _

theorem sort : C.Related w Eq (CellArray.sort m p f) (CellArray.sort m' p' f') :=
  (h.toList pointers frames).andThenSame fun _ => h.allocate pointers frames _

end Array

theorem copy {q q' : Expr} (sources : C.expr p p') (targets : C.expr q q')
    (frames : C.frame w f f') :
    C.Related w Eq (CellArray.copy m p q f) (CellArray.copy m' p' q' f') :=
  (h.toList sources frames).andThenSame fun values => h.allocate targets frames values

theorem concat {q q' r r' : Expr} (firsts : C.expr p p') (seconds : C.expr q q')
    (targets : C.expr r r') (frames : C.frame w f f') :
    C.Related w Eq (CellArray.concat m p q r f) (CellArray.concat m' p' q' r' f') := by
  apply (h.toList firsts frames).andThenSame
  intro values
  apply (h.toList seconds frames).andThenSame
  intro more
  exact h.allocate targets frames (values ++ more)

end Machines

end Correspondence

end Calculator
