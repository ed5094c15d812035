import Calculator.Engine
import Calculator.Proofs.Costs
import Calculator.Proofs.Number.Key
import Calculator.Proofs.Variables

/-!
Variables and the cells of the global store as places for a number.

Both are kept in one table, so what a place is called decides which places are the same.
-/

namespace Calculator

open Eval

/-- A variable, or the cell of the global store at an address. -/
inductive Place where
  | named (name : String)
  | cell (address : Number)

namespace Place

def expr : Place → Expr
  | named name => .globalVar name
  | cell address => .pointer (.constant address)

def name : Place → String
  | named name => name
  | cell address => address.key

/-- A variable has a name that starts with a letter. -/
def Lettered : Place → Prop
  | named name => name.toList.head?.any Text.isLetter = true
  | cell _ => True

instance : (p : Place) → Decidable p.Lettered
  | named name => inferInstanceAs (Decidable (name.toList.head?.any Text.isLetter = true))
  | cell _ => inferInstanceAs (Decidable True)

/-- Variables are the same if their names differ in case alone, and cells if their addresses are equal or
both not a number. The cell at infinity is the variable `inf`, and the cell at what is not a number is the
variable `nan`; no other cell is a variable. -/
def Same : Place → Place → Prop
  | named name, named other => Text.fold name = Text.fold other
  | cell address, cell other => address.SameAddress other
  | named name, cell address | cell address, named name =>
    address = .infinity ∧ Text.fold name = "inf" ∨ address.isNaN = true ∧ Text.fold name = "nan"

variable {setting : Setting} {frame : FrameId} {s t : Session} {p q : Place} {value x : Number}

theorem same_iff (hp : p.Lettered) (hq : q.Lettered) : p.Same q ↔ Text.fold p.name = Text.fold q.name := by
  cases p with
  | named name =>
      cases q with
      | named other => exact Iff.rfl
      | cell address => exact (Number.fold_name_eq_iff hp).symm
  | cell address =>
      cases q with
      | named name => exact (Number.fold_name_eq_iff hq).symm.trans eq_comm
      | cell other => exact Number.fold_key_eq_iff.symm

def Reads (setting : Setting) (frame : FrameId) (s : Session) (p : Place) (value : Number) : Prop :=
  ∃ after, Eventually (setting.solve · p.expr frame) s (.ok value) after

def Writes (setting : Setting) (frame : FrameId) (s : Session) (p : Place) (value : Number)
    (after : Session) : Prop :=
  Eventually (setting.solve · (.assign p.expr (.constant value)) frame) s (.ok value) after

theorem eventually_address (address : Number) :
    Eventually (fun fuel => (setting.machineAt fuel).address (.pointer (.constant address)) frame) s
      (.ok address) s := gives_constant address

theorem eventually_read (p : Place) (s : Session) :
    Eventually (setting.solve · p.expr frame) s (.ok (s.valueOf p.name)) (s.readVariable p.name).2 := by
  rw [← Session.readVariable_value]
  refine eventually_solve ?_
  have read := Costs.eventually fun _ => costs_update (·.readVariable p.name) s
  cases p with
  | named name => exact read
  | cell address => exact (eventually_address address).andThen read

theorem eventually_write (p : Place) (s : Session) (value : Number) :
    Writes setting frame s p value (s.setVariable p.name value) := by
  refine eventually_solve ?_
  have given : setting.Gives frame s (.constant value) value := gives_constant value
  have source := given.map Binding.value
  have write := (Costs.eventually fun _ => costs_update (fun s => ((), s.setVariable p.name value)) s).andThen
    (f := fun _ _ => pure value) (eventually_pure value (s.setVariable p.name value))
  cases p with
  | named name => exact source.andThen write
  | cell address => exact source.andThen ((eventually_address address).andThen write)

theorem reads_iff : Reads setting frame s p value ↔ value = s.valueOf p.name := by
  constructor
  · rintro ⟨after, reads⟩
    exact Except.ok.inj (reads.unique (eventually_read p s)).1
  · rintro rfl
    exact ⟨_, eventually_read p s⟩

theorem writes_iff : Writes setting frame s p value t ↔ t = s.setVariable p.name value := by
  constructor
  · intro writes
    exact (writes.unique (eventually_write p s value)).2
  · rintro rfl
    exact eventually_write p s value

/-- What is written at a place is read at the same place, whatever was there before, and nowhere else.
Writing and reading always succeed. -/
theorem written_read (setting : Setting) (frame : FrameId) (hp : p.Lettered) (hq : q.Lettered) :
    (∀ s value, ∃ t, Writes setting frame s p value t) ∧
    (∀ s, ∃ value, ∀ x, Reads setting frame s q x ↔ x = value) ∧
    ((∀ s value t, Writes setting frame s p value t → Reads setting frame t q value) ↔ p.Same q) ∧
    (¬p.Same q → ∀ s value t, Writes setting frame s p value t →
      ∀ x, Reads setting frame t q x ↔ Reads setting frame s q x) := by
  have there (same : p.Same q) (s : Session) (value : Number) :
      (s.setVariable p.name value).valueOf q.name = value := by
    rw [Session.valueOf_setVariable, if_pos ((same_iff hp hq).mp same)]
  have elsewhere (other : ¬p.Same q) (s : Session) (value : Number) :
      (s.setVariable p.name value).valueOf q.name = s.valueOf q.name := by
    rw [Session.valueOf_setVariable, if_neg fun folds => other ((same_iff hp hq).mpr folds)]
  refine ⟨fun s value => ⟨_, eventually_write p s value⟩, fun s => ⟨_, fun x => reads_iff⟩, ?_, ?_⟩
  · constructor
    · intro reads
      by_contra other
      let s : Session := ⟨∅, ∅, #[], .withInput .buffer []⟩
      have missing : s.valueOf q.name = .zero := by simp [s, Session.valueOf]
      have one := reads_iff.mp (reads s .one _ (eventually_write p s .one))
      rw [elsewhere other, missing] at one
      cases one
    · intro same s value t writes
      rw [writes_iff.mp writes, reads_iff, there same]
  · intro other s value t writes x
    rw [writes_iff.mp writes, reads_iff, reads_iff, elsewhere other]

/-- Writing to the cell at 1 leaves `PI` as it was. -/
theorem written_read_pi :
    ¬(cell .one).Same (named "PI") ∧
      ∀ s value t, Writes ⟨.standard, true⟩ 0 s (cell .one) value t →
        ∀ x, Reads ⟨.standard, true⟩ 0 t (named "PI") x ↔ Reads ⟨.standard, true⟩ 0 s (named "PI") x := by
  have other : ¬(cell .one).Same (named "PI") := by
    rintro (⟨infinite, _⟩ | ⟨nan, _⟩)
    · cases infinite
    · cases nan
  exact ⟨other, (written_read ⟨.standard, true⟩ 0 (p := cell .one) (q := named "PI") trivial
    (by decide +kernel)).2.2.2 other⟩

/-- What 0/0 gives is an address as well: writing to its cell changes `NAN`. -/
theorem nan_cell_not_apart :
    let setting : Setting := ⟨.standard, true⟩
    let s := (Engine.new .standard (.withInput .buffer [])).session.push .main
    (named "NAN").Lettered ∧ Reads setting 0 s (named "NAN") .nan ∧
      ∃ t, Writes setting 0 s (cell .invalid) .one t ∧ Reads setting 0 t (named "NAN") .one ∧
        ¬Reads setting 0 t (named "NAN") .nan := by
  intro setting s
  have seeded : s.valueOf "NAN" = .nan := by decide +kernel
  have folds : Text.fold (cell .invalid).name = Text.fold "NAN" := by decide +kernel
  have one : (s.setVariable (cell .invalid).name .one).valueOf "NAN" = .one := by
    rw [Session.valueOf_setVariable, if_pos folds]
  refine ⟨by decide +kernel, reads_iff.mpr seeded.symm, _, eventually_write _ s .one, ?_, ?_⟩
  · exact reads_iff.mpr one.symm
  · rw [reads_iff, show (named "NAN").name = "NAN" from rfl, one]
    decide

end Place

end Calculator
