import Calculator.Eval.Argument
import Calculator.Proofs.Frames.Cycle
import Mathlib.Data.Finite.Prod
import Mathlib.Order.WellFounded

/-! Where following a local ends.

A local may stand for another one, which is looked up in another frame, and so on. Where no local is read
while it is read, this comes to an end, and evaluating the local, using it as memory and calling it all
come down to that end. -/

namespace Calculator

namespace Session

variable {s : Session} {hops : Nat} {name : String} {id : FrameId} {referent : Referent}

/-- A local is followed to its end over a number of references to other locals. -/
inductive LeadsTo (s : Session) : Nat → String → FrameId → Referent → Prop
  | unbound {name : String} {id : FrameId} (free : s.lookup name id = none) :
      LeadsTo s 0 name id (.unbound name id)
  | value {name : String} {id : FrameId} {value : Number}
      (bound : s.lookup name id = some (.value value)) : LeadsTo s 0 name id (.value name value)
  | expr {name : String} {id : FrameId} {target : Expr} {frame : FrameId}
      (bound : s.lookup name id = some (.reference target frame))
      (last : ∀ next, target ≠ .localVar next) : LeadsTo s 0 name id (.expr name target frame)
  | onward {hops : Nat} {name next : String} {id frame : FrameId} {referent : Referent}
      (bound : s.lookup name id = some (.reference (.localVar next) frame))
      (rest : LeadsTo s hops next frame referent) : LeadsTo s (hops + 1) name id referent

theorem LeadsTo.follow? (leads : s.LeadsTo hops name id referent) {steps : Nat}
    (enough : hops < steps) : s.follow? steps name id = some referent := by
  obtain ⟨more, rfl⟩ : ∃ more, steps = more + 1 := Nat.exists_eq_add_one.mpr (by omega)
  induction leads generalizing more with
  | unbound free => simp only [Session.follow?, free]
  | value bound => simp only [Session.follow?, bound]
  | expr bound last =>
      simp only [Session.follow?, bound]
  | onward bound rest ih =>
      obtain ⟨fewer, rfl⟩ : ∃ fewer, more = fewer + 1 := Nat.exists_eq_add_one.mpr (by omega)
      simp only [Session.follow?, bound]
      exact ih fewer (by omega)

theorem LeadsTo.unique {hops' : Nat} {referent' : Referent}
    (leads : s.LeadsTo hops name id referent) (leads' : s.LeadsTo hops' name id referent') :
    hops = hops' ∧ referent = referent' := by
  induction leads generalizing hops' with
  | unbound free =>
      cases leads' with
      | unbound => exact ⟨rfl, rfl⟩
      | value bound' | expr bound' _ | onward bound' _ => cases free.symm.trans bound'
  | value bound =>
      cases leads' with
      | value bound' =>
          cases bound.symm.trans bound'
          exact ⟨rfl, rfl⟩
      | unbound bound' | expr bound' _ | onward bound' _ => cases bound.symm.trans bound'
  | expr bound last =>
      cases leads' with
      | expr bound' _ =>
          cases bound.symm.trans bound'
          exact ⟨rfl, rfl⟩
      | onward bound' _ =>
          cases bound.symm.trans bound'
          exact absurd rfl (last _)
      | unbound bound' | value bound' => cases bound.symm.trans bound'
  | onward bound rest ih =>
      cases leads' with
      | onward bound' rest' =>
          cases bound.symm.trans bound'
          obtain ⟨same, ends⟩ := ih rest'
          exact ⟨congrArg (· + 1) same, ends⟩
      | expr bound' last =>
          cases bound.symm.trans bound'
          exact absurd rfl (last _)
      | unbound bound' | value bound' => cases bound.symm.trans bound'

def Binds (s : Session) (x : FrameId × String) : Prop :=
  ∃ frame binding, s.frames[x.1]? = some frame ∧ frame.locals[x.2]? = some binding

theorem exists_foundIn {key : String} {binding : Binding}
    (looked : lookupFolded s.frames key id = some binding) :
    ∃ target frame, s.FoundIn key id target ∧ s.frames[target]? = some frame ∧
      frame.locals[key]? = some binding := by
  fun_induction Session.lookupFolded s.frames key id with
  | case1 id missing => cases looked
  | case2 id frame top found bound =>
      obtain rfl := Option.some.inj looked
      exact ⟨id, frame, .here top bound, top, bound⟩
  | case3 id frame top free parent link captures below ih =>
      obtain ⟨target, holder, found, there, bound⟩ := ih looked
      exact ⟨target, holder, .parent top free captures link found, there, bound⟩
  | case4 => cases looked
  | case5 => cases looked

theorem finite_binds (s : Session) : {x | s.Binds x}.Finite := by
  let keys := s.frames.toList.flatMap fun frame => frame.locals.keys
  apply (Finset.finite_toSet (Finset.range s.frames.size ×ˢ keys.toFinset)).subset
  rintro ⟨id, key⟩ ⟨frame, binding, top, bound⟩
  have inside : id < s.frames.size := (Array.getElem?_eq_some_iff.mp top).1
  have among : frame ∈ s.frames.toList := Array.mem_toList_iff.mpr (Array.mem_of_getElem? top)
  have listed : key ∈ frame.locals.keys :=
    Std.TreeMap.mem_keys.mpr (Std.TreeMap.mem_iff_isSome_getElem?.mpr (bound ▸ rfl))
  simp only [Finset.coe_product, Set.mem_prod, Finset.mem_coe, Finset.mem_range, List.mem_toFinset]
  exact ⟨inside, List.mem_flatMap.mpr ⟨frame, among, listed⟩⟩

theorem Acyclic.wellFounded (acyclic : s.Acyclic) :
    WellFounded fun y x : {x // s.Binds x} => s.Edge x y := by
  have : Finite {x // s.Binds x} := s.finite_binds
  let later (y x : {x // s.Binds x}) : Prop := Relation.TransGen s.Edge x y
  have trans : IsTrans _ later := ⟨fun _ _ _ first second => second.trans first⟩
  have irrefl : Std.Irrefl later := ⟨fun x => acyclic x⟩
  exact Subrelation.wf (fun edge => .single edge) (Finite.wellFounded_of_trans_of_irrefl later)

theorem Acyclic.leadsTo_of_bound (acyclic : s.Acyclic) (x : {x // s.Binds x}) :
    ∀ name id frame binding, s.lookup name id = some binding → s.frames[x.1.1]? = some frame →
      frame.locals[x.1.2]? = some binding → ∃ hops referent, s.LeadsTo hops name id referent := by
  induction x using acyclic.wellFounded.induction with
  | _ x ih =>
      intro name id frame binding looked top bound
      match binding with
      | .value value => exact ⟨0, _, .value looked⟩
      | .reference target origin =>
          by_cases onward : ∃ next, target = .localVar next
          · obtain ⟨next, rfl⟩ := onward
            cases further : s.lookup next origin with
            | none => exact ⟨1, _, .onward looked (.unbound further)⟩
            | some binding' =>
                obtain ⟨place, holder, found, there, bound'⟩ := exists_foundIn further
                have mentions : (Expr.localVar next).mentions (Text.fold next) = true :=
                  beq_self_eq_true _
                obtain ⟨hops, referent, rest⟩ := ih
                  ⟨(place, Text.fold next), holder, binding', there, bound'⟩
                  ⟨frame, _, origin, top, bound, mentions, found⟩ next origin holder binding' further
                  there bound'
                exact ⟨hops + 1, referent, .onward looked rest⟩
          · exact ⟨0, _, .expr looked fun next same => onward ⟨next, same⟩⟩

theorem Acyclic.leadsTo (acyclic : s.Acyclic) (name : String) (id : FrameId) :
    ∃ hops referent, s.LeadsTo hops name id referent := by
  cases looked : s.lookup name id with
  | none => exact ⟨0, _, .unbound looked⟩
  | some binding =>
      obtain ⟨place, frame, _, there, bound⟩ := exists_foundIn looked
      exact acyclic.leadsTo_of_bound ⟨(place, Text.fold name), frame, binding, there, bound⟩ name id
        frame binding looked there bound

end Session

namespace Expr

def isMemory : Expr → Bool
  | .pointer _ | .localPointer _ => true
  | _ => false

def isCallee : Expr → Bool
  | .lambda .. | .macroRef .. => true
  | _ => false

end Expr

namespace Session.Referent

variable {α : Type}

def isMemory : Referent → Bool
  | .expr _ target _ => target.isMemory
  | _ => false

def evaluate (solve : Expr → FrameId → Eval Number) : Referent → Eval Number
  | .unbound last frame => Eval.failUnbound last frame
  | .value _ number => return number
  | .expr _ target frame => solve target frame

/-- Uses what a local refers to, where this is only possible with expressions of some kind. -/
def use (usable : Expr → Bool) (refusal : String → RuntimeError) (onto : Expr → FrameId → Eval α) :
    Referent → Eval α
  | .unbound last frame => Eval.failUnbound last frame
  | .value last _ => throw (refusal (Expr.localVar last).describe)
  | .expr last target frame =>
    if usable target then onto target frame else throw (refusal (Expr.localVar last).describe)

abbrev access (onto : Expr → FrameId → Eval α) : Referent → Eval α :=
  use Expr.isMemory RuntimeError.notAddressable onto

abbrev invoke (onto : Expr → FrameId → Eval α) : Referent → Eval α :=
  use Expr.isCallee RuntimeError.notCallable onto

end Session.Referent

namespace Eval

variable {s : Session} {name : String} {id : FrameId}

theorem run_session {α : Type} (next : Session → Eval α) (start : Run) :
    (session >>= next).run start = (next start.session).run start := rfl

theorem run_require_bound {binding : Binding} (bound : s.lookup name id = some binding)
    (steps : Nat) : (require name id).run ⟨steps, s⟩ = (.value binding, ⟨steps, s⟩) := by
  rw [require, run_session]
  simp only [bound]
  rfl

theorem run_require_free (free : s.lookup name id = none) (steps : Nat) :
    (require name id).run ⟨steps, s⟩ =
      (.fault (.unknownLocal name (s.frameName id)), ⟨steps, s⟩) := by
  rw [require, run_session]
  simp only [free]
  rfl

end Eval

theorem Setting.run_localVar (setting : Setting) (fuel steps : Nat) (s : Session) (name : String)
    (id : FrameId) :
    (setting.solve (fuel + 1) (.localVar name) id).run ⟨steps + 1, s⟩ =
      (Eval.require name id >>= (setting.machine fuel (setting.solve fuel)).resolve).run ⟨steps, s⟩ :=
  rfl

namespace Session.LeadsTo

variable {α : Type} {s : Session} {hops : Nat} {name : String} {id : FrameId}
  {referent : Session.Referent}

theorem run_solve (leads : s.LeadsTo hops name id referent) (setting : Setting)
    (fuel steps : Nat) :
    (setting.solve (fuel + hops + 1) (.localVar name) id).run ⟨steps + hops + 1, s⟩ =
      (referent.evaluate (setting.solve fuel)).run ⟨steps, s⟩ := by
  induction leads with
  | unbound free =>
      rw [setting.run_localVar, Eval.run_bind, Eval.run_require_free free]
      rfl
  | value bound | expr bound last =>
      rw [setting.run_localVar, Eval.run_bind, Eval.run_require_bound bound]
      rfl
  | @onward hops name next id frame referent bound rest ih =>
      rw [setting.run_localVar, Eval.run_bind, Eval.run_require_bound bound]
      exact ih

section Machine

variable (leads : s.LeadsTo hops name id referent) {m : Machine} (enough : hops < m.fuel)
include leads enough

theorem run_referent (steps : Nat) :
    (m.referent name id).run ⟨steps, s⟩ = (.value referent, ⟨steps, s⟩) := by
  rw [Machine.referent, Eval.run_session]
  simp only [leads.follow? enough]
  rfl

theorem run_pointsToMemory (steps : Nat) :
    (m.pointsToMemory (.localVar name) id).run ⟨steps, s⟩ =
      (.value referent.isMemory, ⟨steps, s⟩) := by
  rw [Machine.pointsToMemory, Eval.run_bind, leads.run_referent enough]
  cases referent with
  | unbound | value => rfl
  | expr last target frame => cases target <;> rfl

theorem run_pointer (next : Pointer → Eval α) (steps : Nat) :
    (m.pointer (.localVar name) id >>= next).run ⟨steps, s⟩ =
      (referent.access fun target frame => m.pointer target frame >>= next).run ⟨steps, s⟩ := by
  rw [Machine.pointer, bind_assoc, Eval.run_bind, leads.run_referent enough]
  cases referent with
  | unbound | value => rfl
  | expr last target frame => cases target <;> rfl

theorem run_call (args : List Expr) (invoker : FrameId) (steps : Nat) :
    (m.call (.localVar name) args invoker id).run ⟨steps, s⟩ =
      (referent.invoke fun target frame => m.call target args invoker frame).run ⟨steps, s⟩ := by
  rw [Machine.call, Eval.run_bind, leads.run_referent enough]
  cases referent with
  | unbound | value => rfl
  | expr last target frame => cases target <;> rfl

end Machine

end Session.LeadsTo

/-- An evaluation that comes to a value in such a session only, and that does not fail because something
stands for no memory. -/
structure Eval.Calm {α : Type} (fine : Session → Prop) (x : Eval α) (s : Session) : Prop where
  value : ∀ {steps a after}, x.run ⟨steps, s⟩ = (.value a, after) → fine after.session
  fault : ∀ {steps what after}, x.run ⟨steps, s⟩ ≠ (.fault (.notAddressable what), after)

namespace Eval

variable {α β : Type} {fine : Session → Prop} {s : Session}

theorem calm_pure (a : α) (kept : fine s) : (pure a : Eval α).Calm fine s where
  value := by
    intro steps b after ran
    cases ran
    exact kept
  fault := by
    intro steps what after ran
    cases ran

theorem calm_update (change : Session → α × Session) (kept : fine (change s).2) :
    (update change).Calm fine s where
  value := by
    intro steps a after ran
    cases steps with
    | zero => cases ran
    | succ steps =>
        obtain rfl := (Prod.mk.inj ran).2
        exact kept
  fault := by
    intro steps what after ran
    cases steps <;> cases ran

theorem Calm.andThen {x : Eval α} {f : α → Eval β} (first : x.Calm fine s)
    (second : ∀ a t, fine t → (f a).Calm fine t) : (x >>= f).Calm fine s where
  value := by
    intro steps b after ran
    rw [run_bind] at ran
    split at ran
    · rename_i a between first'
      exact (second a between.session (first.value first')).value ran
    · cases ran
    · cases ran
  fault := by
    intro steps what after ran
    rw [run_bind] at ran
    split at ran
    · rename_i a between first'
      exact (second a between.session (first.value first')).fault ran
    · rename_i error between first'
      cases ran
      exact first.fault first'
    · cases ran

theorem Calm.congr {x y : Eval α} (calm : y.Calm fine s)
    (same : ∀ steps, x.run ⟨steps, s⟩ = y.run ⟨steps, s⟩) : x.Calm fine s where
  value ran := calm.value ((same _).symm.trans ran)
  fault ran := calm.fault ((same _).symm.trans ran)

end Eval

namespace Machine

variable {fine : Session → Prop} {m : Machine} {s : Session} {name : String} {id : FrameId}

inductive CellsCalm (m : Machine) (fine : Session → Prop) (s : Session) : Expr → FrameId → Prop
  | pointer {base : Expr} {frame : FrameId}
      (cells : ∀ address : Number, fine (s.readVariable address.key).2) :
      CellsCalm m fine s (.pointer base) frame
  | localPointer {base : Expr} {frame : FrameId}
      (cells : ∀ (address : Number) (expr : Expr) (origin : FrameId),
        s.lookup address.key frame = some (.reference expr origin) →
          (m.solve expr origin).Calm fine s) :
      CellsCalm m fine s (.localPointer base) frame

/-- Working out the address that a local leads to, and reading cells there one after the other, leaves
the local leading to memory. -/
structure Undisturbed (m : Machine) (fine : Session → Prop) (name : String) (id : FrameId)
    (s : Session) : Prop where
  address : ∃ hops last target frame, s.LeadsTo hops name id (.expr last target frame) ∧
    hops < m.fuel ∧ target.isMemory = true ∧ (m.address target frame).Calm fine s
  cells : ∀ t, fine t → ∃ hops last target frame, t.LeadsTo hops name id (.expr last target frame) ∧
    hops < m.fuel ∧ m.CellsCalm fine t target frame

theorem CellsCalm.isMemory {target : Expr} {frame : FrameId}
    (calm : m.CellsCalm fine s target frame) : target.isMemory = true := by
  cases calm <;> rfl

theorem CellsCalm.readCell {target : Expr} {frame : FrameId}
    (calm : m.CellsCalm fine s target frame) (kept : fine s) (address : Number) :
    (m.readCell target address frame).Calm fine s := by
  cases calm with
  | pointer cells => exact Eval.calm_update (·.readVariable address.key) (cells address)
  | @localPointer base _ cells =>
      have ran (steps : Nat) : (m.readCell (.localPointer base) address frame).run ⟨steps, s⟩ =
          ((s.lookup address.key frame).elim (pure .zero) m.resolve).run ⟨steps, s⟩ := by
        simp only [Machine.readCell, Machine.pointer, Pointer.ofExpr?, pure_bind, Eval.run_session]
        cases s.lookup address.key frame <;> rfl
      refine Eval.Calm.congr ?_ ran
      cases looked : s.lookup address.key frame with
      | none => exact Eval.calm_pure _ kept
      | some binding =>
          cases binding with
          | value value => exact Eval.calm_pure _ kept
          | reference expr origin => exact cells address expr origin looked

namespace Undisturbed

variable (undisturbed : m.Undisturbed fine name id s)
include undisturbed

theorem calm_address : (m.address (.localVar name) id).Calm fine s := by
  obtain ⟨hops, last, target, frame, leads, enough, memory, calm⟩ := undisturbed.address
  refine calm.congr fun steps => (leads.run_pointer enough _ steps).trans ?_
  rw [Session.Referent.access, Session.Referent.use, if_pos memory]
  rfl

theorem calm_readCell (address : Number) {t : Session} (kept : fine t) :
    (m.readCell (.localVar name) address id).Calm fine t := by
  obtain ⟨hops, last, target, frame, leads, enough, calm⟩ := undisturbed.cells t kept
  refine (calm.readCell kept address).congr fun steps => (leads.run_pointer enough _ steps).trans ?_
  rw [Session.Referent.access, Session.Referent.use, if_pos calm.isMemory]
  rfl

theorem calm_visitFrom {σ : Type} (base : Number) {visit : σ → Nat → Number → Eval (ForInStep σ)}
    (calm : ∀ state index element t, fine t → (visit state index element).Calm fine t)
    (count : Nat) : ∀ (index : Nat) (state : σ) (t : Session), fine t →
      (CellArray.visitFrom m (.localVar name) base id visit index count state).Calm fine t := by
  induction count with
  | zero => exact fun _ state _ kept => Eval.calm_pure state kept
  | succ count ih =>
      intro index state t kept
      apply (undisturbed.calm_readCell _ kept).andThen
      intro element t kept
      apply (calm state index element t kept).andThen
      intro step t kept
      cases step with
      | done state => exact Eval.calm_pure state kept
      | yield state => exact ih (index + 1) state t kept

theorem calm_toList : (CellArray.toList m (.localVar name) id).Calm fine s := by
  have visited : (CellArray.visit m (.localVar name) id ([] : List Number)
      fun elements _ element => return .yield (element :: elements)).Calm fine s := by
    apply undisturbed.calm_address.andThen
    intro base t kept
    apply (undisturbed.calm_readCell base kept).andThen
    intro length t kept
    exact undisturbed.calm_visitFrom base (fun _ _ _ _ kept => Eval.calm_pure _ kept) _ 0 [] t kept
  exact visited.andThen fun _ _ kept => Eval.calm_pure _ kept

theorem chooses {α : Type} (next : Bool → Eval α) (steps : Nat) :
    (m.pointsToMemory (.localVar name) id >>= next).run ⟨steps, s⟩ = (next true).run ⟨steps, s⟩ := by
  obtain ⟨hops, last, target, frame, leads, enough, memory, _⟩ := undisturbed.address
  rw [Eval.run_bind, leads.run_pointsToMemory enough, Session.Referent.isMemory, memory]

theorem calm_values (rest : List Expr) :
    (Argument.values m (.localVar name :: rest) id).Calm fine s :=
  undisturbed.calm_toList.congr (undisturbed.chooses _)

theorem calm_text {function : String} {args : List Expr} {index : Nat}
    (arg : args[index]? = some (.localVar name)) :
    (Argument.text m function args index id).Calm fine s := by
  have read := undisturbed.calm_toList.andThen fun values t kept =>
    Eval.calm_pure (Text.ofCells values) kept
  refine read.congr fun steps => ?_
  rw [Argument.text, Argument.get, arg]
  exact undisturbed.chooses _ steps

end Undisturbed

end Machine

/-- All users of a local follow it to one and the same end. Evaluating it evaluates what stands there, in
the frame found with it; it points to memory if what stands there is memory, and only then can cells be
read and written through it, namely those there; and it can be called if what stands there can be, which
is then called with that frame as the one of its definition. Arrays that were found to be in memory are
read there, as long as what is evaluated meanwhile leaves the local leading to memory. -/
theorem local_users_agree {s : Session} (acyclic : s.Acyclic) (name : String) (id : FrameId) :
    ∃ hops referent, s.LeadsTo hops name id referent ∧
      (∀ (setting : Setting) (fuel steps : Nat),
        (setting.solve (fuel + hops + 1) (.localVar name) id).run ⟨steps + hops + 1, s⟩ =
          (referent.evaluate (setting.solve fuel)).run ⟨steps, s⟩) ∧
      ∀ (m : Machine) (steps : Nat), hops < m.fuel →
        (m.pointsToMemory (.localVar name) id).run ⟨steps, s⟩ =
            (.value referent.isMemory, ⟨steps, s⟩) ∧
          (m.address (.localVar name) id).run ⟨steps, s⟩ =
            (referent.access fun target frame => m.address target frame).run ⟨steps, s⟩ ∧
          (∀ address, (m.readCell (.localVar name) address id).run ⟨steps, s⟩ =
            (referent.access fun target frame => m.readCell target address frame).run ⟨steps, s⟩) ∧
          (∀ address value, (m.writeCell (.localVar name) address value id).run ⟨steps, s⟩ =
            (referent.access fun target frame =>
              m.writeCell target address value frame).run ⟨steps, s⟩) ∧
          (∀ args invoker, (m.call (.localVar name) args invoker id).run ⟨steps, s⟩ =
            (referent.invoke fun target frame =>
              m.call target args invoker frame).run ⟨steps, s⟩) ∧
          ∀ fine, m.Undisturbed fine name id s → ∀ what,
            (∀ rest, ((Argument.values m (.localVar name :: rest) id).run ⟨steps, s⟩).1 ≠
              .fault (.notAddressable what)) ∧
            ∀ function args index, args[index]? = some (.localVar name) →
              ((Argument.text m function args index id).run ⟨steps, s⟩).1 ≠
                .fault (.notAddressable what) := by
  obtain ⟨hops, referent, leads⟩ := acyclic.leadsTo name id
  refine ⟨hops, referent, leads, leads.run_solve, fun m steps enough => ?_⟩
  refine ⟨leads.run_pointsToMemory enough steps, leads.run_pointer enough _ steps,
    fun _ => leads.run_pointer enough _ steps, fun _ _ => leads.run_pointer enough _ steps,
    fun args invoker => leads.run_call enough args invoker steps,
    fun fine undisturbed what => ⟨fun rest failed => ?_, fun function args index arg failed => ?_⟩⟩
  · exact (undisturbed.calm_values rest).fault (Prod.ext failed rfl)
  · exact (undisturbed.calm_text arg).fault (Prod.ext failed rfl)

theorem local_users_agree_two_macros :
    let s : Session := Session.bind (Session.bind
        ⟨∅, ∅, #[.main, .ofMacro "f" 0, .ofMacro "g" 1], .withInput .buffer []⟩ "p"
          (.reference (.pointer (.constant .one)) 0) 1) "x" (.reference (.localVar "p") 1) 2
    let setting : Setting := ⟨.standard, true⟩
    let m := setting.machine 2 (setting.solve 2)
    s.Acyclic ∧ m.Undisturbed (·.frames = s.frames) "x" 2 s ∧
      (m.address (.localVar "x") 2).run ⟨2, s⟩ = (.value .one, ⟨1, s⟩) ∧
      ((Argument.values m [.localVar "x"] 2).run ⟨2, s⟩).1 ≠ .fault (.notAddressable "#p") := by
  intro s setting m
  have ordered : s.OrderedBy False := by
    have empty : Session.OrderedBy False ⟨∅, ∅, #[], .withInput .buffer []⟩ := .of_noFrames rfl
    have main : Frame.main.OrderedAt False 0 := orderedAt_noLocals rfl fun _ link => by cases link
    have above : ∀ name parent, (Frame.ofMacro name parent).OrderedAt False (parent + 1) :=
      fun name parent => orderedAt_noLocals rfl fun _ link =>
        Option.some.inj link ▸ Nat.lt_succ_self parent
    have stacked := ((empty.push main).push (above "f" 0)).push (above "g" 1)
    have below : ∀ expr parent, (Binding.reference expr parent).Below False (parent + 1) :=
      fun _ parent => Binding.below_reference (.inl (Nat.lt_succ_self parent))
    exact (stacked.bind (below _ 0)).bind (below _ 1)
  have leads : ∀ t : Session, t.frames = s.frames →
      t.LeadsTo 1 "x" 2 (.expr "p" (.pointer (.constant .one)) 0) := by
    intro t same
    have g : t.frames[2]? = some
        { Frame.ofMacro "g" 1 with
          locals := (∅ : Std.TreeMap String Binding).insert (Text.fold "x")
            (.reference (.localVar "p") 1) } := by
      rw [same, Session.getElem?_bind, Session.getElem?_bind]
      rfl
    have f : t.frames[1]? = some
        { Frame.ofMacro "f" 0 with
          locals := (∅ : Std.TreeMap String Binding).insert (Text.fold "p")
            (.reference (.pointer (.constant .one)) 0) } := by
      rw [same, Session.getElem?_bind, Session.getElem?_bind]
      rfl
    exact .onward (Session.lookup_here g Std.TreeMap.getElem?_insert_self)
      (.expr (Session.lookup_here f Std.TreeMap.getElem?_insert_self) fun _ other => by cases other)
  have undisturbed : m.Undisturbed (·.frames = s.frames) "x" 2 s := by
    have ticked : Eval.Calm (·.frames = s.frames) Eval.tick s :=
      Eval.calm_update (fun s => ((), s)) rfl
    refine ⟨⟨1, "p", _, 0, leads s rfl, by decide, rfl,
      ticked.andThen fun _ _ kept => Eval.calm_pure _ kept⟩, fun t same => ?_⟩
    exact ⟨1, "p", _, 0, leads t same, by decide,
      .pointer fun address => (t.frames_readVariable address.key).trans same⟩
  obtain ⟨hops, referent, leads', _, users⟩ := local_users_agree ordered.acyclic "x" 2
  obtain ⟨rfl, rfl⟩ := leads'.unique (leads s rfl)
  obtain ⟨_, address, _, _, _, arrays⟩ := users m 2 (by decide)
  exact ⟨ordered.acyclic, undisturbed, address, (arrays _ undisturbed "#p").1 []⟩

def Ending.error? {α : Type} : Ending α → Option RuntimeError
  | .fault error => some error
  | _ => none

/-- A sum over memory may find that its argument is none: here the address of the array is worked out by
an expression that binds the local anew. -/
theorem memory_lost_while_read :
    let address : Expr := .binary .sequence
      (.assign (.localPointer (.constant (.ofNat 5))) (.constant (.ofNat 7))) (.constant (.ofNat 3))
    let s : Session := Session.bind ⟨∅, ∅, #[.main], .withInput .buffer []⟩ "5"
      (.reference (.pointer address) 0) 0
    let setting : Setting := ⟨.standard, true⟩
    s.Acyclic ∧
      ((setting.machine 20 (setting.solve 20)).pointsToMemory (.localVar "5") 0).run ⟨20, s⟩ =
        (.value true, ⟨20, s⟩) ∧
      ((setting.solve 20 (.call "sum" [.localVar "5"]) 0).run ⟨20, s⟩).1.error? =
        some (.notAddressable "#5") := by
  intro address s setting
  have noEdge : ∀ x y, ¬s.Edge x y := by
    rintro ⟨id, key⟩ y ⟨frame, expr, origin, top, bound, mentions, _⟩
    cases id with
    | zero =>
        have bound : ((∅ : Std.TreeMap String Binding).insert (Text.fold "5")
            (.reference (.pointer address) 0))[key]? = some (.reference expr origin) :=
          (congrArg (fun frame : Frame => frame.locals[key]?) (Option.some.inj top)).trans bound
        rw [Std.TreeMap.getElem?_insert] at bound
        split at bound
        · cases bound
          cases mentions
        · cases bound
    | succ id =>
        rw [Session.getElem?_bind, if_neg (Nat.succ_ne_zero id).symm] at top
        cases top
  have acyclic : s.Acyclic := by
    intro x cycle
    obtain ⟨y, edge, _⟩ := Relation.TransGen.head'_iff.mp cycle
    exact noEdge x y edge
  refine ⟨acyclic, ?_, by decide +kernel⟩
  have leads : s.LeadsTo 0 "5" 0 (.expr "5" (.pointer address) 0) :=
    .expr (Session.lookup_here rfl Std.TreeMap.getElem?_insert_self) fun _ other => by cases other
  exact leads.run_pointsToMemory (by decide) 20

end Calculator
