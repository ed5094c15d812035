import Calculator.Proofs.Arrays.Values
import Calculator.Proofs.Frames.Deep

/-!
Arrays behind any pointer.

A pointer comes down to an address in the global store or in a frame. The operations on arrays are the
same for both stores: they see of a store what its cells hold, and what is read after a cell was written.
-/

namespace Calculator

open Number Session

namespace Session

variable {s t : Session} {folded : String}

def seen (folded : String) (frame : Frame) : Option Binding × Bool × Option FrameId :=
  (frame.locals[folded]?, frame.captures, frame.parent)

theorem lookupFolded_congr {frames frames' : Array Frame}
    (same : ∀ id : FrameId, frames[id]?.map (seen folded) = frames'[id]?.map (seen folded)) (id : FrameId) :
    lookupFolded frames folded id = lookupFolded frames' folded id := by
  refine (lookupFolded_rel (P := Eq) (R := fun _ => Eq) ?_ (fun _ _ _ _ _ bindings => bindings) rfl).eq
  rintro id _ rfl
  have here := same id
  cases top : frames[id]? with
  | none =>
      rw [top, Option.map_none] at here
      rw [Option.map_eq_none_iff.mp here.symm]
      exact .none
  | some frame =>
      rw [top, Option.map_some] at here
      obtain ⟨frame', top', view⟩ := Option.map_eq_some_iff.mp here.symm
      obtain ⟨locals, captures, parent⟩ : frame'.locals[folded]? = frame.locals[folded]? ∧
          frame'.captures = frame.captures ∧ frame'.parent = frame.parent := by
        simpa [seen] using view
      rw [top']
      refine .some ⟨?_, captures.symm, fun _ => ?_⟩
      · rw [locals]
        exact .of_mem fun _ _ => rfl
      · rw [parent]
        exact .of_mem fun _ _ => ⟨Iff.rfl, fun _ => rfl⟩

variable {name other : String} {binding : Binding} {target : FrameId}

theorem lookup_bind_again (bound : ∀ frame, s.frames[target]? = some frame →
    frame.locals[Text.fold name]? = some binding) (other : String) (id : FrameId) :
    (s.bind name binding target).lookup other id = s.lookup other id := by
  refine lookupFolded_congr (fun id => ?_) id
  rw [getElem?_bind]
  split
  · rename_i here
    subst here
    cases top : s.frames[target]? with
    | none => rfl
    | some frame =>
        refine congrArg some (congrArg (·, _) ?_)
        by_cases same : Text.fold name = Text.fold other
        · rw [← same]
          exact (Frame.locals_bind_same binding rfl).trans (bound frame top).symm
        · exact Frame.locals_bind_other binding same
  · rfl

/-- Nothing that can be read in one session is different in the other. -/
structure SameReadings (s t : Session) : Prop where
  values : ∀ name, t.valueOf name = s.valueOf name
  locals : ∀ name id, t.lookup name id = s.lookup name id
  skeleton : t.skeleton = s.skeleton
  macros : t.macros = s.macros
  console : t.console = s.console

theorem SameReadings.refl (s : Session) : s.SameReadings s := ⟨fun _ => rfl, fun _ _ => rfl, rfl, rfl, rfl⟩

theorem SameReadings.trans {u : Session} (first : s.SameReadings t) (second : t.SameReadings u) :
    s.SameReadings u where
  values name := (second.values name).trans (first.values name)
  locals name id := (second.locals name id).trans (first.locals name id)
  skeleton := second.skeleton.trans first.skeleton
  macros := second.macros.trans first.macros
  console := second.console.trans first.console

theorem SameValues.frames (same : s.SameValues t) : t.frames = s.frames := by rw [same.rest]

theorem SameValues.readings (same : s.SameValues t) : s.SameReadings t where
  values := same.values
  locals name id := by rw [lookup, same.frames, lookup]
  skeleton := by rw [Session.skeleton, same.frames, Session.skeleton]
  macros := by rw [same.rest]
  console := by rw [same.rest]

end Session

namespace Pointer

variable {p : Pointer} {s t u : Session} {key other : String} {value value' x : Number}

/-- What the cell of a name holds. A cell that was never written holds zero; a cell of a frame may also stand
for an expression, as an argument does, and then it holds no number. -/
def cell? (p : Pointer) (s : Session) (key : String) : Option Number :=
  match p.store with
  | .global => some (s.valueOf key)
  | .frame =>
    match s.lookup key p.frame with
    | none => some .zero
    | some (.value value) => some value
    | some (.reference ..) => none

def setCell (p : Pointer) (s : Session) (key : String) (value : Number) : Session :=
  match p.store with
  | .global => s.setVariable key value
  | .frame => s.bind key (.value value) p.frame

def Live (p : Pointer) (s : Session) : Prop := p.store = .frame → p.frame < s.frames.size

def Held (p : Pointer) (s : Session) (key : String) (value : Number) : Prop :=
  match p.store with
  | .global => s.valueOf key = value
  | .frame => ∀ frame, s.frames[p.frame]? = some frame → frame.locals[Text.fold key]? = some (.value value)

theorem cell?_congr (same : s.SameReadings t) (key : String) : p.cell? t key = p.cell? s key := by
  rw [cell?, same.values, same.locals, cell?]

theorem held_congr (same : s.SameValues t) (held : p.Held s key value) : p.Held t key value := by
  obtain ⟨_ | _, base, id⟩ := p
  · exact (same.values key).trans held
  · intro frame top
    rw [same.frames] at top
    exact held frame top

theorem live_congr (same : t.skeleton = s.skeleton) : p.Live t ↔ p.Live s := by
  rw [Live, Live, ← length_skeleton, same, length_skeleton]

theorem skeleton_setCell (p : Pointer) (s : Session) (key : String) (value : Number) :
    (p.setCell s key value).skeleton = s.skeleton := by
  unfold setCell
  split
  · rfl
  · exact s.skeleton_bind ..

theorem Held.cell? (held : p.Held s key value) (live : p.Live s) : p.cell? s key = some value := by
  obtain ⟨_ | _, base, id⟩ := p
  · exact congrArg some held
  · have top := Array.getElem?_eq_getElem (live rfl)
    simp only [Pointer.cell?, lookup_here top (held _ top)]

theorem held_setCell (p : Pointer) (s : Session) (key : String) (value : Number) :
    p.Held (p.setCell s key value) key value := by
  obtain ⟨_ | _, base, id⟩ := p
  · exact (s.valueOf_setVariable key key value).trans (if_pos rfl)
  · intro frame top
    rw [setCell, getElem?_bind, if_pos rfl] at top
    obtain ⟨frame, -, rfl⟩ := Option.map_eq_some_iff.mp top
    exact Frame.locals_bind_same (.value value) rfl

theorem held_setCell_other (different : Text.fold key ≠ Text.fold other) (held : p.Held s other value') :
    p.Held (p.setCell s key value) other value' := by
  obtain ⟨_ | _, base, id⟩ := p
  · exact ((s.valueOf_setVariable key other value).trans (if_neg different)).trans held
  · intro frame top
    rw [setCell, getElem?_bind, if_pos rfl] at top
    obtain ⟨frame, here, rfl⟩ := Option.map_eq_some_iff.mp top
    exact (Frame.locals_bind_other (.value value) different).trans (held frame here)

theorem Held.held_setCell (held : p.Held s key value) (held' : p.Held s other value') :
    p.Held (p.setCell s key value) other value' := by
  by_cases same : Text.fold key = Text.fold other
  · obtain ⟨_ | _, base, id⟩ := p
    · refine ((s.valueOf_setVariable key other value).trans (if_pos same)).trans ?_
      have one : s.valueOf key = s.valueOf other := by rw [valueOf, same, valueOf]
      exact held.symm.trans (one.trans held')
    · intro frame top
      rw [setCell, getElem?_bind, if_pos rfl] at top
      obtain ⟨frame, here, rfl⟩ := Option.map_eq_some_iff.mp top
      have one := held frame here
      rw [same, held' frame here] at one
      rw [one]
      exact Frame.locals_bind_same (.value value) same
  · exact held_setCell_other same held'

theorem Held.readings_setCell (held : p.Held s key value) : s.SameReadings (p.setCell s key value) := by
  obtain ⟨_ | _, base, id⟩ := p
  · refine ⟨fun name => ?_, fun _ _ => rfl, rfl, rfl, rfl⟩
    refine (s.valueOf_setVariable key name value).trans ?_
    split
    · rename_i same
      rw [← held, valueOf, same, valueOf]
    · rfl
  · exact ⟨fun _ => rfl, lookup_bind_again held, s.skeleton_bind .., rfl, rfl⟩

theorem cell?_of_not_live (gone : ¬p.Live s) (key : String) : p.cell? s key = some .zero := by
  obtain ⟨framed, out⟩ := Classical.not_imp.mp gone
  have missing : s.lookup key p.frame = none := by
    rw [lookup, lookupFolded, Array.getElem?_eq_none (Nat.le_of_not_lt out)]
  simp only [cell?, framed, missing]

/-- A session comes from another one by reading variables and writing cells of some names. -/
inductive Later (p : Pointer) (keys : List String) (s : Session) : Session → Prop
  | refl : Later p keys s s
  | read {t u : Session} (later : Later p keys s t) (same : t.SameValues u) : Later p keys s u
  | write {t : Session} {key : String} (later : Later p keys s t) (mem : key ∈ keys) (value : Number) :
    Later p keys s (p.setCell t key value)

theorem Later.trans {keys : List String} (first : p.Later keys s t) (second : p.Later keys t u) :
    p.Later keys s u := by
  induction second with
  | refl => exact first
  | read _ same ih => exact ih.read same
  | write _ mem value ih => exact ih.write mem value

end Pointer

/-- The expression is the pointer, whose address is `x`, and stays so while variables are read and cells of some
names are written. -/
structure PointsTo (setting : Setting) (frame : FrameId) (expr : Expr) (p : Pointer) (x : Number)
    (keys : List String) (s : Session) : Prop where
  follows : ∀ t, p.Later keys s t →
    Eval.Eventually (fun fuel => (setting.machineAt fuel).pointer expr frame) t (.ok p) t
  address : ∀ t, p.Later keys s t →
    ∃ u, Eval.Eventually (setting.solve · p.base p.frame) t (.ok x) u ∧ t.SameValues u

theorem pointsTo_of_gives {setting : Setting} {frame : FrameId} {expr : Expr} {p : Pointer} {x : Number}
    {keys : List String} {s : Session} (direct : Pointer.ofExpr? expr frame = some p)
    (gives : ∀ t, p.Later keys s t → setting.Gives p.frame t p.base x) :
    PointsTo setting frame expr p x keys s where
  follows t _ := by
    cases expr with
    | pointer | localPointer =>
        cases direct
        exact Eval.eventually_pure _ t
    | _ => cases direct
  address t later := ⟨t, gives t later, .refl t⟩

namespace PointsTo

variable {setting : Setting} {frame : FrameId} {expr : Expr} {p : Pointer} {x y value : Number}
  {keys : List String} {s t : Session} (points : PointsTo setting frame expr p x keys s)
include points

theorem later (later : p.Later keys s t) : PointsTo setting frame expr p x keys t :=
  ⟨fun u more => points.follows u (later.trans more), fun u more => points.address u (later.trans more)⟩

theorem read (same : s.SameValues t) : PointsTo setting frame expr p x keys t := points.later (.read .refl same)

theorem eventually_address :
    ∃ t, Eval.Eventually (fun fuel => (setting.machineAt fuel).address expr frame) s (.ok x) t ∧
      s.SameValues t := by
  obtain ⟨t, solves, same⟩ := points.address s .refl
  exact ⟨t, (points.follows s .refl).andThen solves, same⟩

theorem eventually_readCell (holds : p.cell? s y.key = some value) :
    ∃ t, Eval.Eventually (fun fuel => (setting.machineAt fuel).readCell expr y frame) s (.ok value) t ∧
      s.SameValues t := by
  obtain ⟨_ | _, base, id⟩ := p
  · have read := Eval.Costs.eventually fun _ => Eval.costs_update (·.readVariable y.key) s
    rw [readVariable_value, Option.some.inj holds] at read
    exact ⟨_, (points.follows s .refl).andThen read, s.sameValues_readVariable y.key⟩
  · refine ⟨s, (points.follows s .refl).andThen ?_, .refl s⟩
    dsimp only
    refine (Eval.Costs.eventually fun _ => Eval.costs_session s).andThen ?_
    simp only [Pointer.cell?] at holds
    cases found : s.lookup y.key id with
    | none =>
        rw [found] at holds
        cases holds
        exact Eval.eventually_pure _ s
    | some binding =>
        rw [found] at holds
        cases binding with
        | reference => cases holds
        | value =>
            cases holds
            exact Eval.eventually_pure _ s

theorem eventually_writeCell (y value : Number) :
    Eval.Eventually (fun fuel => (setting.machineAt fuel).writeCell expr y value frame) s (.ok ())
      (p.setCell s y.key value) := by
  obtain ⟨_ | _, base, id⟩ := p
  · exact (points.follows s .refl).andThen
      (Eval.Costs.eventually fun _ => Eval.costs_update (fun s => ((), s.setVariable y.key value)) s)
  · exact (points.follows s .refl).andThen
      (Eval.Costs.eventually fun _ => Eval.costs_update (fun s => ((), s.bind y.key (.value value) id)) s)

theorem isAddressable : expr.isAddressable = true := by
  obtain ⟨enough, cost, costs⟩ := points.follows s .refl
  have ran := costs enough (Nat.le_refl enough) 0
  cases expr with
  | pointer | localPointer | localVar => rfl
  | _ => cases ran

theorem eventually_pointer (function : String) (others : List Expr) :
    Eval.Eventually (fun _ => Argument.pointer function (expr :: others) 0) s (.ok expr) s := by
  have given : Argument.pointer function (expr :: others) 0 = pure expr := if_pos points.isAddressable
  rw [given]
  exact Eval.eventually_pure expr s

theorem eventually_pointsToMemory :
    Eval.Eventually (fun fuel => (setting.machineAt fuel).pointsToMemory expr frame) s (.ok true) s := by
  cases expr with
  | pointer | localPointer => exact Eval.eventually_pure true s
  | localVar name =>
      obtain ⟨enough, cost, costs⟩ := points.follows s .refl
      refine ⟨enough, cost, fun fuel most spare => ?_⟩
      have ran := costs fuel most spare
      simp only [Machine.pointer, Machine.pointsToMemory, Eval.run_bind] at ran ⊢
      simp only [Machine.referent, Eval.run_session] at ran ⊢
      cases followed : s.follow? (setting.machineAt fuel).fuel name frame with
      | none =>
          rw [followed] at ran
          cases ran
      | some referent =>
          rw [followed] at ran
          cases referent with
          | unbound | value => cases ran
          | expr last target origin =>
              cases direct : Pointer.ofExpr? target origin with
              | none =>
                  simp only [Eval.run_pure, direct] at ran
                  cases ran
              | some q =>
                  simp only [Eval.run_pure, direct] at ran ⊢
                  exact congrArg (Prod.mk _) (congrArg Prod.snd ran)
  | _ => cases points.isAddressable

end PointsTo

end Calculator
