import Calculator.Engine
import Calculator.Proofs.Arrays.Operations

/-! Calls of the functions on arrays, and what they do to a model that knows of lists only. -/

namespace Calculator

open Number Session CellArray

structure Whole where
  number : Number
  int : Int
  isInt : number.IsInt int

inductive ArrayCall where
  | alloc (a : Whole) (values : List Number)
  | calloc (a count : Whole)
  | range (a first bound : Whole)
  | add (a : Whole) (value : Number)
  | insert (a index : Whole) (value : Number)
  | remove (a : Whole) (value : Number)
  | clear (a : Whole)
  | copy (source target : Whole)
  | concat (first second target : Whole)
  | get (a index : Whole)
  | set (a index : Whole) (value : Number)
  | indexOf (a : Whole) (value : Number)
  | contains (a : Whole) (value : Number)

abbrev Lists := Int → Option (List Number)

namespace Lists

def overlap (a : Int) (length : Nat) (b : Int) (length' : Nat) : Bool :=
  a ≤ b + length' && b ≤ a + length

/-- Writes a list; others that it overlaps are there no longer. -/
def write (lists : Lists) (a : Int) (values : List Number) : Lists := fun b =>
  if b = a then some values
  else (lists b).filter fun other => !overlap a values.length b other.length

def listAt (lists : Lists) (a : Whole) : List Number := (lists a.int).getD []

def upFrom (first : Number) (i : Int) : (count : Nat) → List Number
  | 0 => []
  | count + 1 => first :: upFrom (.ofInt (i + 1)) (i + 1) count

/-- What a call comes to, and the lists after it. -/
def step (lists : Lists) : ArrayCall → Except RuntimeError Number × Lists
  | .alloc a values => (.ok a.number, lists.write a.int values)
  | .calloc a count => (.ok a.number, lists.write a.int (.replicate count.int.toNat .zero))
  | .range a first bound =>
    (.ok a.number, lists.write a.int (upFrom first.number first.int (bound.int - first.int).toNat))
  | .add a value => (.ok value, lists.write a.int (lists.listAt a ++ [value]))
  | .insert a index value =>
    let values := lists.listAt a
    if 0 ≤ place index.int values.length ∧ place index.int values.length ≤ values.length then
      (.ok value, lists.write a.int (values.insertIdx (place index.int values.length).toNat value))
    else (.error (.insertOutOfRange a.number.key (place (clamp index.int) values.length)), lists)
  | .remove a value =>
    match (lists.listAt a).findIdx? (·.equal value) with
    | some position => (.ok .one, lists.write a.int ((lists.listAt a).eraseIdx position))
    | none => (.ok .zero, lists)
  | .clear a => (.ok a.number, lists.write a.int [])
  | .copy source target => (.ok target.number, lists.write target.int (lists.listAt source))
  | .concat first second target =>
    (.ok target.number, lists.write target.int (lists.listAt first ++ lists.listAt second))
  | .get a index =>
    (.ok ((lists.listAt a).getD (place index.int (lists.listAt a).length).toNat .zero), lists)
  | .set a index value =>
    (.ok value, lists.write a.int
      ((lists.listAt a).set (place index.int (lists.listAt a).length).toNat value))
  | .indexOf a value =>
    match (lists.listAt a).findIdx? (·.equal value) with
    | some position => (.ok (.ofNat position), lists)
    | none => (.ok .negativeOne, lists)
  | .contains a value => (.ok (.ofBool ((lists.listAt a).findIdx? (·.equal value)).isSome), lists)

end Lists

namespace ArrayCall

def uses : ArrayCall → List Whole
  | .alloc .. | .calloc .. | .range .. | .clear _ => []
  | .add a _ | .insert a .. | .remove a _ | .get a _ | .set a .. | .indexOf a _ | .contains a _ => [a]
  | .copy source _ => [source]
  | .concat first second _ => [first, second]

/-- The bounds of a range are exact, and an index to read or write is one of the array. -/
def InBounds (lists : Lists) : ArrayCall → Prop
  | .range _ first bound => Exact first.int ∧ Exact bound.int
  | .get a index | .set a index _ =>
    -(lists.listAt a).length ≤ index.int ∧ index.int < (lists.listAt a).length
  | _ => True

end ArrayCall

def Lists.AllFit (lists : Lists) : Prop := ∀ a values, lists a = some values → Fits a values.length

theorem Lists.AllFit.write {lists : Lists} (before : lists.AllFit) {a : Int} {values : List Number}
    (fits : Fits a values.length) : (lists.write a values).AllFit := by
  intro b other found
  unfold Lists.write at found
  split at found
  · rename_i same
    cases found
    exact same ▸ fits
  · exact before b other (Option.filter_eq_some_iff.mp found).1

/-- A call may be made: the arrays that it uses are there, its numbers are in bounds, and so are the
addresses of the arrays after it. -/
structure Lists.Allows (lists : Lists) (call : ArrayCall) : Prop where
  live : ∀ a ∈ call.uses, (lists a.int).isSome
  bounds : call.InBounds lists
  fits : (lists.step call).2.AllFit

inductive ArrayArgument where
  | array (a : Whole)
  | value (value : Number)

namespace ArrayArgument

def Spelled (gives : Expr → Number → Prop) : ArrayArgument → Expr → Prop
  | .array a, arg => ∃ base, arg = .pointer base ∧ gives base a.number
  | .value v, arg => gives arg v

abbrev AllSpelled (gives : Expr → Number → Prop) : List ArrayArgument → List Expr → Prop :=
  List.Forall₂ (Spelled gives)

theorem Spelled.mono {gives gives' : Expr → Number → Prop} (more : ∀ e v, gives e v → gives' e v)
    (argument : ArrayArgument) (arg : Expr) (spelled : argument.Spelled gives arg) :
    argument.Spelled gives' arg := by
  cases argument with
  | value v => exact more arg v spelled
  | array a =>
      obtain ⟨base, same, given⟩ := spelled
      exact ⟨base, same, more base _ given⟩

end ArrayArgument

namespace ArrayCall

def name : ArrayCall → String
  | .alloc .. => "alloc"
  | .calloc .. => "calloc"
  | .range .. => "range"
  | .add .. => "add"
  | .insert .. => "insert"
  | .remove .. => "remove"
  | .clear _ => "clear"
  | .copy .. => "copy"
  | .concat .. => "concat"
  | .get .. => "get"
  | .set .. => "set"
  | .indexOf .. => "indexof"
  | .contains .. => "contains"

def builtin : ArrayCall → Builtin
  | .alloc .. => ⟨.atLeast 1, Builtin.alloc⟩
  | .calloc .. => ⟨.exact 2, Builtin.calloc⟩
  | .range .. => ⟨.oneOf [2, 3], Builtin.range⟩
  | .add .. => ⟨.exact 2, Builtin.add⟩
  | .insert .. => ⟨.exact 3, Builtin.insert⟩
  | .remove .. => ⟨.exact 2, Builtin.remove⟩
  | .clear _ => ⟨.exact 1, Builtin.clear⟩
  | .copy .. => ⟨.exact 2, Builtin.copy⟩
  | .concat .. => ⟨.oneOf [2, 3], Builtin.concat⟩
  | .get .. => ⟨.exact 2, Builtin.get⟩
  | .set .. => ⟨.exact 3, Builtin.set⟩
  | .indexOf .. => ⟨.exact 2, Builtin.indexOf⟩
  | .contains .. => ⟨.exact 2, Builtin.contains⟩

theorem mem_memoryTable (call : ArrayCall) : (call.name, call.builtin) ∈ Builtin.memoryTable := by
  cases call <;> simp [Builtin.memoryTable, name, builtin]

def arguments : ArrayCall → List ArrayArgument
  | .alloc a values => .array a :: values.map .value
  | .calloc a count => [.array a, .value count.number]
  | .range a first bound => [.array a, .value first.number, .value bound.number]
  | .add a value | .remove a value | .indexOf a value | .contains a value => [.array a, .value value]
  | .insert a index value | .set a index value => [.array a, .value index.number, .value value]
  | .clear a => [.array a]
  | .copy source target => [.array source, .array target]
  | .concat first second target => [.array first, .array second, .array target]
  | .get a index => [.array a, .value index.number]

abbrev InFull (call : ArrayCall) (gives : Expr → Number → Prop) (args : List Expr) : Prop :=
  ArrayArgument.AllSpelled gives call.arguments args

/-- How a call is written. A range may do without its zero, and what is appended in place without the
target. A new array is given by its values, and not by a text. -/
inductive Spelled (gives : Expr → Number → Prop) : ArrayCall → String → List Expr → Prop
  | full {call : ArrayCall} {name : String} {args : List Expr} (named : Text.fold name = call.name)
      (plain : call.name = "alloc" → ∀ text, args.tail ≠ [.quote text])
      (spelled : call.InFull gives args) : Spelled gives call name args
  | fromZero {a bound : Whole} {name : String} {args : List Expr} (named : Text.fold name = "range")
      (spelled : ArrayArgument.AllSpelled gives [.array a, .value bound.number] args) :
      Spelled gives (.range a ⟨.zero, 0, isInt_zero⟩ bound) name args
  | inPlace {first second : Whole} {name : String} {args : List Expr}
      (named : Text.fold name = "concat")
      (spelled : ArrayArgument.AllSpelled gives [.array first, .array second] args) :
      Spelled gives (.concat first second first) name args

namespace Spelled

variable {gives gives' : Expr → Number → Prop} {call : ArrayCall} {name : String} {args : List Expr}

theorem mono (spelled : call.Spelled gives name args) (more : ∀ e v, gives e v → gives' e v) :
    call.Spelled gives' name args := by
  cases spelled with
  | full named plain spelled => exact .full named plain (spelled.imp (ArrayArgument.Spelled.mono more))
  | fromZero named spelled => exact .fromZero named (spelled.imp (ArrayArgument.Spelled.mono more))
  | inPlace named spelled => exact .inPlace named (spelled.imp (ArrayArgument.Spelled.mono more))

theorem named (spelled : call.Spelled gives name args) : Text.fold name = call.name := by
  cases spelled with
  | full named => exact named
  | fromZero named => exact named
  | inPlace named => exact named

theorem accepts (spelled : call.Spelled gives name args) :
    call.builtin.arity.accepts args.length = true := by
  cases spelled with
  | full _ _ spelled =>
      rw [← spelled.length_eq]
      cases call with
      | alloc a values => exact decide_eq_true (Nat.succ_pos (values.map ArrayArgument.value).length)
      | _ => rfl
  | fromZero _ spelled =>
      rw [← spelled.length_eq]
      rfl
  | inPlace _ spelled =>
      rw [← spelled.length_eq]
      rfl

end Spelled

end ArrayCall

def Registry.KnowsArrays (registry : Registry) : Prop :=
  ∀ name builtin, (name, builtin) ∈ Builtin.memoryTable → registry[name]? = some builtin

theorem Registry.KnowsArrays.find {registry : Registry} (knows : registry.KnowsArrays) {key name : String}
    {builtin : Builtin} (mem : (key, builtin) ∈ Builtin.memoryTable) (named : Text.fold name = key) :
    registry.find? name = some builtin := by
  rw [Registry.find?, named]
  exact knows key builtin mem

def Session.Holds (s : Session) (lists : Lists) : Prop :=
  ∀ a values, lists a = some values → s.HasArray a values

namespace Session

variable {s t : Session} {lists : Lists}

theorem holds_none (s : Session) : s.Holds fun _ => none := by
  intro a values found
  cases found

theorem Holds.wrote (holds : s.Holds lists) {a : Int} {values : List Number}
    (wrote : s.Wrote t a values) : t.Holds (lists.write a values) := by
  intro b other found
  unfold Lists.write at found
  split at found
  · rename_i same
    cases found
    exact same ▸ wrote.array
  · obtain ⟨found, apart⟩ := Option.filter_eq_some_iff.mp found
    have array := holds b other found
    refine ⟨array.fits, array.stores.kept wrote.keeps ?_⟩
    intro k within
    rw [List.length_cons] at within
    refine ⟨array.fits.exact (Nat.le_of_lt within), ?_⟩
    simp only [Lists.overlap, Bool.not_eq_true', Bool.and_eq_false_iff, decide_eq_false_iff_not] at apart
    omega

theorem Holds.congr (holds : s.Holds lists) (same : t.globals = s.globals) : t.Holds lists := by
  intro a values found
  obtain ⟨fits, stores⟩ := holds a values found
  refine ⟨fits, fun k value there => ?_⟩
  rw [cell?, same]
  exact stores k value there

theorem Holds.answered (holds : s.Holds lists) (value : Number) :
    (s.setVariable Parsed.answer value).Holds lists := by
  intro a values found
  obtain ⟨fits, stores⟩ := holds a values found
  refine ⟨fits, fun k element there => ?_⟩
  have within := (List.getElem?_eq_some_iff.mp there).1
  rw [cell?_setVariable_name (by decide) (fits.exact (Nat.le_of_lt within))]
  exact stores k element there

theorem Holds.listAt (holds : s.Holds lists) {a : Whole} (live : (lists a.int).isSome) :
    s.HasArray a.int (lists.listAt a) := by
  obtain ⟨values, found⟩ := Option.isSome_iff_exists.mp live
  rw [Lists.listAt, found]
  exact holds a.int values found

end Session

end Calculator
