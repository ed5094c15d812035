import Calculator.Proofs.Calls.Frame
import Calculator.Proofs.Costs
import Calculator.Proofs.Frames.Chain
import Calculator.Proofs.Registry

/-!
Assignment to what a target refers to.

`deepval` follows a local to what it is bound to and a macro to its body, and assigns to the last of
these. Evaluating the target follows the same references, but in a frame of its own for a macro, while
`deepval` stays in the frame of the call. So what was assigned is read back, unless a macro stands for a
local, which is not the same one in the two frames.
-/

namespace Calculator

abbrev Target := Expr × FrameId

namespace Expr

def constantValue? : Expr → Option Number
  | .constant value => some value
  | .binary (.value op) left right => do
    return op.apply (← left.constantValue?) (← right.constantValue?)
  | .unary op operand => operand.constantValue?.map op.apply
  | _ => none

def isLocal : Expr → Bool
  | .localVar _ | .localPointer _ => true
  | _ => false

end Expr

namespace Session

section Bind

variable (s : Session) (name : String) (binding : Binding)

theorem lookup_bind {id : FrameId} (live : id < s.frames.size) :
    (s.bind name binding id).lookup name id = some binding := by
  have here : (s.bind name binding id).frames[id]? = some (s.frames[id].bind name binding) := by
    rw [getElem?_bind, if_pos rfl, Array.getElem?_eq_getElem live]
    rfl
  exact lookup_here here (Frame.locals_bind_same binding rfl)

theorem lookup_push {frame : Frame} (bound : frame.locals[Text.fold name]? = some binding) :
    (s.push frame).lookup name s.frames.size = some binding :=
  lookup_here ((s.getElem?_push frame _).trans (if_pos rfl)) bound

theorem frame_bind (other : String) (target : FrameId) {id : FrameId} {frame : Frame}
    (top : s.frames[id]? = some frame) :
    ∃ frame', (s.bind name binding target).frames[id]? = some frame' ∧
      frame'.captures = frame.captures ∧ frame'.parent = frame.parent ∧
      (frame'.locals[Text.fold other]? = some binding ∨
        frame'.locals[Text.fold other]? = frame.locals[Text.fold other]?) := by
  by_cases here : target = id
  · refine ⟨frame.bind name binding, ?_, rfl, rfl, ?_⟩
    · rw [getElem?_bind, if_pos here, top]
      rfl
    · by_cases same : Text.fold name = Text.fold other
      · exact .inl (Frame.locals_bind_same binding same)
      · exact .inr (Frame.locals_bind_other binding same)
  · refine ⟨frame, ?_, rfl, rfl, .inr rfl⟩
    rw [getElem?_bind, if_neg here, top]

theorem lookup_bind_cases (other : String) (target id : FrameId) :
    (s.bind name binding target).lookup other id = some binding ∨
      (s.bind name binding target).lookup other id = s.lookup other id := by
  induction id using Nat.strongRecOn with
  | ind id ih =>
      unfold lookup at ih ⊢
      rw [lookupFolded, lookupFolded.eq_def s.frames]
      cases top : s.frames[id]? with
      | none =>
          have top' : (s.bind name binding target).frames[id]? = none := by
            rw [getElem?_bind, top, Option.map_none, ite_self]
          rw [top']
          exact .inr rfl
      | some frame =>
          obtain ⟨frame', top', captures, parent, bound | same⟩ :=
            s.frame_bind name binding other target top
          · rw [top']
            dsimp only
            rw [bound]
            exact .inl rfl
          · rw [top']
            dsimp only
            rw [same, captures, parent]
            cases frame.locals[Text.fold other]? with
            | some found => exact .inr rfl
            | none =>
                dsimp only
                split
                · split
                  · rename_i below
                    exact ih _ below
                  · exact .inr rfl
                · exact .inr rfl

end Bind

/-- Assigning to what the first target refers to is assigning to what the second one refers to. -/
inductive Onward (s : Session) : Target → Target → Prop
  | binding {name : String} {id origin : FrameId} {expr : Expr}
      (bound : s.lookup name id = some (.reference expr origin))
      (further : expr.isAssignable = true) : Onward s (.localVar name, id) (expr, origin)
  | body {name : String} {args : List Expr} {definable : Bool} {id : FrameId}
      {definition : MacroDefinition} (defined : s.macro? name = some definition)
      (further : definition.body.isAssignable = true) :
      Onward s (.macroRef name args definable, id) (definition.body, id)

/-- The target refers to nothing else that can be assigned to. -/
def Innermost (s : Session) (target : Target) : Prop := ∀ next, ¬s.Onward target next

/-- Evaluating the expression leads to where assigning to it leads: its address is constant, and it is
no macro that stands for a local. -/
def Steady (s : Session) : Expr → Prop
  | .pointer address | .localPointer address => address.constantValue?.isSome
  | .macroRef name _ _ => ∀ definition, s.macro? name = some definition → ¬definition.body.isLocal
  | _ => True

inductive Assigned (s : Session) (value : Number) : Target → Session → Prop
  | globalVar {name : String} {id : FrameId} :
      Assigned s value (.globalVar name, id) (s.setVariable name value)
  | pointer {address : Expr} {x : Number} {id : FrameId} (constant : address.constantValue? = some x) :
      Assigned s value (.pointer address, id) (s.setVariable x.key value)
  | localVar {name : String} {id : FrameId} :
      Assigned s value (.localVar name, id) (s.bind name (.value value) id)
  | localPointer {address : Expr} {x : Number} {id : FrameId}
      (constant : address.constantValue? = some x) :
      Assigned s value (.localPointer address, id) (s.bind x.key (.value value) id)
  | macroRef {name : String} {args : List Expr} {id : FrameId} :
      Assigned s value (.macroRef name args true, id)
        (s.defineMacro name ⟨.constant value, args.filterMap Expr.alias?⟩)

variable {s t : Session} {value : Number} {target next last : Target}

theorem Onward.le {own : Prop} (ordered : s.OrderedBy own) (onward : s.Onward target next) :
    next.2 ≤ target.2 := by
  cases onward with
  | binding bound _ =>
      rcases ordered.lookup bound _ _ rfl with lower | ⟨_, same⟩
      · exact Nat.le_of_lt lower
      · exact Nat.le_of_eq same
  | body => exact Nat.le_refl _

theorem OrderedBy.onward_le {own : Prop} (ordered : s.OrderedBy own)
    (path : Relation.ReflTransGen s.Onward target last) : last.2 ≤ target.2 := by
  induction path with
  | refl => exact Nat.le_refl _
  | tail _ onward ih => exact Nat.le_trans (onward.le ordered) ih

theorem Assigned.lookup (assigned : s.Assigned value last t) (name : String) (id : FrameId) :
    t.lookup name id = some (.value value) ∨ t.lookup name id = s.lookup name id := by
  cases assigned with
  | localVar | localPointer => exact s.lookup_bind_cases _ _ _ _ _
  | _ => exact .inr rfl

theorem Assigned.macro_kept (assigned : s.Assigned value last t) (innermost : s.Innermost last)
    {name : String} {definition : MacroDefinition} (defined : s.macro? name = some definition)
    (further : definition.body.isAssignable = true) : t.macro? name = some definition := by
  cases assigned with
  | @macroRef other =>
      have different : Text.fold other ≠ Text.fold name := by
        intro same
        rw [macro?, ← same] at defined
        exact innermost _ (.body defined further)
      rw [macro?, defineMacro, Std.TreeMap.getElem?_insert, if_neg]
      · exact defined
      · exact fun same => different (Std.LawfulEqCmp.eq_of_compare same)
  | _ => exact defined

end Session

section Assign

open Session

variable {setting : Setting} {s t : Session} {value : Number} {id origin : FrameId} {steps fuel : Nat}
  {target next : Expr}

theorem deepAssign_onward (m : Machine) (onward : s.Onward (target, id) (next, origin)) :
    (m.deepAssignWithin m.settle (fuel + 1) target (.value value) id).run ⟨steps, s⟩ =
      (m.deepAssignWithin m.settle fuel next (.value value) origin).run ⟨steps, s⟩ := by
  cases onward with
  | @binding name _ _ _ bound further =>
      rw [Machine.deepAssignWithin, Eval.run_session]
      dsimp only
      rw [bound]
      dsimp only
      rw [if_pos further]
      rfl
  | @body name _ _ _ _ defined further =>
      rw [Machine.deepAssignWithin, Eval.run_session]
      dsimp only
      rw [defined]
      dsimp only
      rw [if_pos further]

theorem deepAssign_innermost (m : Machine) (innermost : s.Innermost (target, id)) :
    (m.deepAssignWithin m.settle (fuel + 1) target (.value value) id).run ⟨steps, s⟩ =
      (m.assign target (.value value) id).run ⟨steps, s⟩ := by
  cases target with
  | localVar name =>
      rw [Machine.deepAssignWithin, Eval.run_session]
      dsimp only
      split
      · rename_i expr origin bound
        rw [if_neg fun further => innermost _ (.binding bound further)]
      · rfl
  | macroRef name args definable =>
      rw [Machine.deepAssignWithin, Eval.run_session]
      dsimp only
      split
      · rename_i definition defined
        rw [if_neg fun further => innermost _ (.body defined further)]
      · rfl
  | _ => rfl

theorem deepAssign_finishes {m : Machine} {result : Except RuntimeError Number}
    (finishes : (m.deepAssignWithin m.settle fuel target (.value value) id).Finishes steps s result t) :
    ∃ last, Relation.ReflTransGen s.Onward (target, id) last ∧ s.Innermost last ∧
      (m.assign last.1 (.value value) last.2).Finishes steps s result t := by
  induction fuel generalizing target id with
  | zero =>
      obtain ⟨left, ran⟩ := finishes
      cases result <;> cases ran
  | succ fuel ih =>
      obtain ⟨left, ran⟩ := finishes
      by_cases onward : ∃ next, s.Onward (target, id) next
      · obtain ⟨⟨next, origin⟩, onward⟩ := onward
        rw [deepAssign_onward m onward] at ran
        obtain ⟨last, path, innermost, assigns⟩ := ih ⟨left, ran⟩
        exact ⟨last, .head onward path, innermost, assigns⟩
      · have innermost : s.Innermost (target, id) := not_exists.mp onward
        rw [deepAssign_innermost m innermost] at ran
        exact ⟨_, .refl, innermost, left, ran⟩

theorem costs_deepAssign (value : Number) {target last : Target}
    (path : Relation.ReflTransGen s.Onward target last) (innermost : s.Innermost last) :
    ∃ enough, ∀ (m : Machine) (fuel : Nat), enough ≤ fuel →
      ∀ {cost : Nat} {result : Except RuntimeError Number} {t : Session},
        (m.assign last.1 (.value value) last.2).Costs cost s result t →
          (m.deepAssignWithin m.settle fuel target.1 (.value value) target.2).Costs cost s result t := by
  induction path using Relation.ReflTransGen.head_induction_on with
  | refl =>
      refine ⟨1, fun m fuel most _ _ _ assigns spare => ?_⟩
      obtain ⟨fuel, rfl⟩ := Nat.exists_eq_succ_of_ne_zero (Nat.ne_of_gt most)
      exact (deepAssign_innermost m innermost).trans (assigns spare)
  | head onward _ ih =>
      obtain ⟨enough, costs⟩ := ih
      refine ⟨enough + 1, fun m fuel most _ _ _ assigns spare => ?_⟩
      obtain ⟨fuel, rfl⟩ := Nat.exists_eq_succ_of_ne_zero (Nat.ne_zero_of_lt most)
      have rest := costs m fuel (Nat.le_of_succ_le_succ most) assigns
      exact (deepAssign_onward m onward).trans (rest spare)

theorem gives_of_constantValue {e : Expr} {x : Number} (constant : e.constantValue? = some x)
    (id : FrameId) (s : Session) : setting.Gives id s e x := by
  fun_induction Expr.constantValue? e generalizing x with
  | case1 value =>
      cases constant
      exact gives_constant value
  | case2 op left right ihLeft ihRight =>
      obtain ⟨a, first, constant⟩ := Option.bind_eq_some_iff.mp constant
      obtain ⟨b, second, constant⟩ := Option.bind_eq_some_iff.mp constant
      cases constant
      exact gives_binary (ihLeft first) (ihRight second)
  | case3 op operand ih =>
      obtain ⟨a, inner, rfl⟩ := Option.map_eq_some_iff.mp constant
      exact gives_unary (ih inner)
  | case4 => cases constant

section Finishes

variable {result : Number}

theorem update_finishes {change : Session → Unit × Session} {a : Number}
    (finishes : (do Eval.update change; return a : Eval Number).Finishes steps s (.ok result) t) :
    t = (change s).2 :=
  (((Eval.surely_update change s).andThen (Eval.surely_pure a _)).only finishes).2

variable (standard : setting.registry = .standard)
include standard

theorem address_finishes {address : Expr} (constant : address.constantValue?.isSome)
    {next : Number → Eval Number}
    (finishes : (setting.solve fuel address id >>= next).Finishes steps s (.ok result) t) :
    ∃ x left, address.constantValue? = some x ∧ (next x).Finishes left s (.ok result) t := by
  obtain ⟨x, constant⟩ := Option.isSome_iff_exists.mp constant
  have gives : setting.Gives id s address x := gives_of_constantValue constant id s
  rcases finishes.cases with ⟨error, failed, _⟩ | ⟨a, left, u, solved, finishes⟩
  · cases failed
  · obtain ⟨same, rfl⟩ := ends_unique standard ⟨fuel, steps, solved⟩ gives.ends
    cases same
    exact ⟨x, left, constant, finishes⟩

theorem assign_finishes (steady : s.Steady target)
    (finishes : ((setting.machineAt fuel).assign target (.value value) id).Finishes steps s (.ok result) t) :
    s.Assigned value (target, id) t := by
  cases target with
  | globalVar name =>
      obtain rfl := update_finishes finishes
      exact .globalVar
  | localVar name =>
      obtain rfl := update_finishes finishes
      exact .localVar
  | macroRef name args definable =>
      cases definable with
      | true =>
          obtain rfl := update_finishes finishes
          exact .macroRef
      | false =>
          obtain ⟨left, ran⟩ := finishes
          cases ran
  | pointer address =>
      obtain ⟨x, left, constant, finishes⟩ := address_finishes standard steady finishes
      change (do Eval.setVariable x.key value; return value : Eval Number).Finishes _ _ _ _ at finishes
      obtain rfl := update_finishes finishes
      exact .pointer constant
  | localPointer address =>
      obtain ⟨x, left, constant, finishes⟩ := address_finishes standard steady finishes
      change (do Eval.bind x.key (.value value) id; return value : Eval Number).Finishes _ _ _ _ at finishes
      obtain rfl := update_finishes finishes
      exact .localPointer constant
  | _ =>
      obtain ⟨left, ran⟩ := finishes
      cases ran

end Finishes

end Assign

section Read

open Session

variable {setting : Setting} {s t : Session} {value : Number} {id : FrameId} {target last : Target}

theorem costs_bindArguments (s : Session) (frame : Frame) (index : Nat) (bindings : List Binding)
    (aliases : List String) :
    ∃ cost, (Machine.bindArguments index bindings aliases s.frames.size).Costs cost (s.push frame)
      (.ok ()) (s.push (frame.withArguments index bindings aliases)) := by
  have bound : ∀ (frame : Frame) (name : String) (binding : Binding),
      (Eval.bind name binding s.frames.size).Costs 1 (s.push frame) (.ok ())
        (s.push (frame.bind name binding)) := by
    intro frame name binding
    rw [← s.bind_push frame name binding]
    exact Eval.costs_update _ _
  induction bindings generalizing index aliases frame with
  | nil => exact ⟨0, Eval.costs_pure () _⟩
  | cons binding bindings ih =>
      cases aliases with
      | nil =>
          obtain ⟨cost, costs⟩ := ih (frame.bind _ binding) (index + 1) []
          exact ⟨_, (bound frame _ binding).andThen costs⟩
      | cons name aliases =>
          obtain ⟨cost, costs⟩ := ih ((frame.bind _ binding).bind name binding) (index + 1) aliases
          exact ⟨_, (bound frame _ binding).andThen ((bound _ name binding).andThen costs)⟩

theorem gives_macroRef {name : String} {args : List Expr} {definable : Bool}
    {definition : MacroDefinition} (defined : s.macro? name = some definition)
    (gives : setting.Gives s.frames.size
      (s.push ((Frame.ofMacro name id).withArguments 0 (args.map (.reference · id)) definition.aliases))
      definition.body value) :
    setting.Gives id s (.macroRef name args definable) value := by
  let bindings := args.map (Binding.reference · id)
  let called (fuel : Nat) (frame : FrameId) : Eval Number := do
    Machine.bindArguments 0 bindings definition.aliases frame
    setting.solve fuel definition.body frame
  obtain ⟨cost, bound⟩ := costs_bindArguments s (.ofMacro name id) 0 bindings definition.aliases
  have body : Eval.Eventually (called · s.frames.size) (s.push (.ofMacro name id)) (.ok value) _ :=
    (Eval.Costs.eventually fun _ => bound).andThen gives
  have framed := body.inFrame
  rw [cutTo_push] at framed
  refine eventually_solve ((Eval.Costs.eventually fun _ => Eval.costs_session s).andThen ?_)
  simp only [defined]
  exact framed

theorem gives_localPointer {address : Expr} {x : Number} (gives : setting.Gives id s address x)
    (held : s.lookup x.key id = some (.value value)) :
    setting.Gives id s (.localPointer address) value := by
  have read (m : Machine) : (m.readCell (.localPointer address) x id).Costs 0 s (.ok value) s := by
    intro spare
    simp only [Machine.readCell, Machine.pointer, Pointer.ofExpr?, pure_bind, Eval.run_session, held,
      Nat.zero_add]
    rfl
  exact eventually_solve (gives.andThen (Eval.Costs.eventually fun _ => read _))

def Everywhere (setting : Setting) (t : Session) (e : Expr) (value : Number) : Prop :=
  ∀ (u : Session) (id : FrameId), u.globals = t.globals → u.macros = t.macros →
    setting.Gives id u e value

theorem Session.Assigned.everywhere (assigned : s.Assigned value last t) (global : ¬last.1.isLocal) :
    Everywhere setting t last.1 value := by
  intro u id globals macros
  cases assigned with
  | globalVar =>
      refine gives_globalVar ?_
      rw [globals, setVariable, Std.TreeMap.getElem?_insert_self]
  | pointer constant =>
      refine gives_pointer (gives_of_constantValue constant id u) ?_
      rw [globals, setVariable, Std.TreeMap.getElem?_insert_self]
  | @macroRef name args =>
      have defined : u.macro? name = some ⟨.constant value, args.filterMap Expr.alias?⟩ := by
        rw [macro?, macros, defineMacro, Std.TreeMap.getElem?_insert_self]
      exact gives_macroRef defined (gives_constant value)
  | localVar | localPointer => exact absurd rfl global

theorem Session.Assigned.gives (assigned : s.Assigned value last t) (live : last.2 < s.frames.size) :
    setting.Gives last.2 t last.1 value := by
  by_cases global : last.1.isLocal
  · cases assigned with
    | localVar => exact gives_localVar (s.lookup_bind _ _ live)
    | localPointer constant =>
        exact gives_localPointer (gives_of_constantValue constant _ _) (s.lookup_bind _ _ live)
    | _ => cases global
  · exact assigned.everywhere global t last.2 rfl rfl

section Path

variable (assigned : s.Assigned value last t) (innermost : s.Innermost last)
  (path : Relation.ReflTransGen s.Onward target last)
  (steady : ∀ next, Relation.ReflTransGen s.Onward target next → s.Steady next.1)
include assigned innermost path steady

theorem everywhere_of_path (global : ¬target.1.isLocal) : Everywhere setting t target.1 value := by
  induction path using Relation.ReflTransGen.head_induction_on with
  | refl => exact assigned.everywhere global
  | @head target next onward path ih =>
      cases onward with
      | binding => exact absurd rfl global
      | @body name args definable id definition defined further =>
          have outside : ¬definition.body.isLocal := steady _ .refl definition defined
          have body := ih (fun later path => steady later (.head (.body defined further) path)) outside
          have kept := assigned.macro_kept innermost defined further
          intro u id globals macros
          have defined : u.macro? name = some definition := by rw [macro?, macros]; exact kept
          exact gives_macroRef defined (body _ _ globals macros)

theorem gives_of_path (live : last.2 < s.frames.size) : setting.Gives target.2 t target.1 value := by
  induction path using Relation.ReflTransGen.head_induction_on with
  | refl => exact assigned.gives live
  | @head target next onward path ih =>
      have later := ih fun later path => steady later (.head onward path)
      cases onward with
      | @binding name id _ _ bound further =>
          rcases assigned.lookup name id with here | same
          · exact gives_localVar here
          · exact gives_reference (same.trans bound) later
      | @body name args definable id definition defined further =>
          have outside : ¬(Expr.macroRef name args definable).isLocal := nofun
          exact everywhere_of_path assigned innermost (.head (.body defined further) path) steady outside
            t id rfl rfl

end Path

end Read

open Session

theorem solve_finishes {setting : Setting} (standard : setting.registry = .standard) {s t : Session}
    (stacked : s.WellStacked) {id : FrameId} (live : id < s.frames.size) {fuel steps : Nat} {e : Expr}
    {result : Except RuntimeError Number} (finishes : (setting.solve fuel e id).Finishes steps s result t) :
    t.WellStacked ∧ id < t.frames.size := by
  have serves (base : List Frame) :
      (orderCorrespondence True base).Serves setting.registry setting.registry :=
    standard ▸ Correspondence.serves_standard (settles_order base)
  obtain ⟨left, ran⟩ := finishes
  obtain ⟨ordered, kept⟩ :=
    solve_keeps_order setting serves ((wellStacked_iff s).mp stacked) live fuel steps e
  rw [ran] at ordered kept
  refine ⟨(wellStacked_iff t).mpr ordered, Nat.lt_of_lt_of_le live ?_⟩
  rw [← length_skeleton, ← length_skeleton]
  exact kept.length_le

section DeepVal

variable {setting : Setting} (standard : setting.registry = .standard) {s s' t : Session}
  {frame : FrameId} {name : String} (deep : Text.fold name = "deepval") {target value : Expr}

omit standard deep in
theorem deepVal_eq (m : Machine) :
    Builtin.deepVal m [target, value] frame =
      if target.isAssignable then
        m.solve value frame >>= fun v => m.deepAssign target (.value v) frame
      else Argument.refuseForm "deepval" "an assignable" 0 := by
  have first : Argument.assignable "deepval" [target, value] 0 =
      if target.isAssignable then pure target
      else Argument.refuseForm "deepval" "an assignable" 0 := rfl
  rw [Builtin.deepVal, first]
  split <;> rfl

include standard deep

theorem find_deepVal : setting.registry.find? name = some ⟨.exact 2, Builtin.deepVal⟩ := by
  rw [standard]
  exact Registry.find_standard (by simp [Builtin.standardTable, Builtin.programTable]) deep

theorem eventually_deepVal {v : Number} {result : Except RuntimeError Number} {last : Target}
    (assignable : target.isAssignable = true)
    (solves : Eval.Eventually (setting.solve · value frame) s (.ok v) s')
    (path : Relation.ReflTransGen s'.Onward (target, frame) last) (innermost : s'.Innermost last)
    (assigns : Eval.Eventually (fun fuel => (setting.machineAt fuel).assign last.1 (.value v) last.2) s'
      result t) :
    Eval.Eventually (setting.solve · (.call name [target, value]) frame) s result t := by
  refine eventually_call (find_deepVal standard deep) rfl ?_
  simp only [deepVal_eq, if_pos assignable]
  refine solves.andThen ?_
  obtain ⟨enough, cost, costs⟩ := assigns
  obtain ⟨enough', leads⟩ := costs_deepAssign v path innermost
  refine ⟨max enough enough', cost, fun fuel most => ?_⟩
  have assigns := costs fuel (Nat.le_trans (Nat.le_max_left _ _) most)
  exact leads _ fuel (Nat.le_trans (Nat.le_max_right _ _) most) assigns

theorem deepVal_ends {result : Number}
    (ends : Eval.Ends (setting.solve · (.call name [target, value]) frame) s (.ok result) t) :
    ∃ v s' fuel steps left, (setting.solve fuel value frame).Finishes steps s (.ok v) s' ∧
      ((setting.machineAt fuel).deepAssign target (.value v) frame).Finishes left s' (.ok result) t := by
  obtain ⟨fuel, steps, finishes⟩ := ends
  cases fuel with
  | zero =>
      obtain ⟨left, ran⟩ := finishes
      cases ran
  | succ fuel =>
      rcases finishes.cases with ⟨error, failed, _⟩ | ⟨_, left, u, ticked, calls⟩
      · cases failed
      · obtain ⟨-, rfl⟩ := (Eval.surely_tick s).only ticked
        rw [step_call (find_deepVal standard deep) rfl] at calls
        change (Builtin.deepVal (setting.machineAt fuel) _ _).Finishes _ _ _ _ at calls
        rw [deepVal_eq] at calls
        split at calls
        · rcases calls.cases with ⟨error, failed, _⟩ | ⟨v, left', s', solves, assigns⟩
          · cases failed
          · exact ⟨v, s', fuel, left, left', solves, assigns⟩
        · obtain ⟨left', ran⟩ := calls
          cases ran

end DeepVal

/-- From the target on, evaluating leads to where assigning leads. -/
def Session.LeadsSteadily (s : Session) (target : Target) : Prop :=
  ∀ next, Relation.ReflTransGen s.Onward target next → s.Steady next.1

/-- Where `deepval` succeeds, evaluating its target afterwards yields the value that it assigned. -/
theorem deepVal_read_back {setting : Setting} (standard : setting.registry = .standard) {s t : Session}
    (stacked : s.WellStacked) {frame : FrameId} (live : frame < s.frames.size) {name : String}
    (deep : Text.fold name = "deepval") {target value : Expr} {result : Number}
    (ends : Eval.Ends (setting.solve · (.call name [target, value]) frame) s (.ok result) t) :
    ∃ v s', Eval.Ends (setting.solve · value frame) s (.ok v) s' ∧
      (s'.LeadsSteadily (target, frame) → setting.Gives frame t target v) := by
  obtain ⟨v, s', fuel, steps, left, solves, assigns⟩ := deepVal_ends standard deep ends
  obtain ⟨stacked', live'⟩ := solve_finishes standard stacked live solves
  refine ⟨v, s', ⟨fuel, steps, solves⟩, fun steady => ?_⟩
  obtain ⟨last, path, innermost, finishes⟩ := deepAssign_finishes assigns
  have assigned := assign_finishes standard (steady last path) finishes
  have le : last.2 ≤ frame := ((wellStacked_iff s').mp stacked').onward_le path
  exact gives_of_path assigned innermost path steady (Nat.lt_of_le_of_lt le live')

/-- A local that an argument was bound to is a variable in the end. -/
theorem deepVal_read_back_reference :
    let setting : Setting := ⟨.standard, true⟩
    let main : Session := ⟨∅, ∅, #[.main], .withInput .buffer []⟩
    let s := main.bind "b" (.reference (.globalVar "w") 0) 0
    let nine := Number.ofNat 9
    ∃ t, Eval.Ends (setting.solve · (.call "deepval" [.localVar "b", .constant nine]) 0) s (.ok nine) t ∧
      setting.Gives 0 t (.localVar "b") nine := by
  intro setting main s nine
  have standard : setting.registry = .standard := rfl
  have bound : s.lookup "b" 0 = some (.reference (.globalVar "w") 0) := main.lookup_bind _ _ (by decide)
  have innermost : s.Innermost (.globalVar "w", 0) := nofun
  have steady : s.LeadsSteadily (.localVar "b", 0) := by
    intro next path
    obtain rfl | ⟨_, onward, path⟩ := path.cases_head
    · trivial
    · cases onward with
      | binding bound' =>
          cases bound.symm.trans bound'
          obtain rfl | ⟨_, onward, _⟩ := path.cases_head
          · trivial
          · exact absurd onward (innermost _)
  have stacked : s.WellStacked := by
    have ordered := (wellStacked_iff main).mp (wellStacked_main _ _ _)
    exact (wellStacked_iff s).mpr (ordered.bind (Binding.below_reference (.inr ⟨trivial, rfl⟩)))
  have low : Text.fold "deepval" = "deepval" := by decide +kernel
  have assigns : Eval.Eventually
      (fun fuel => (setting.machineAt fuel).assign (.globalVar "w") (.value nine) 0) s (.ok nine)
      (s.setVariable "w" nine) :=
    (Eval.Costs.eventually fun _ =>
      Eval.costs_update (fun s => ((), s.setVariable "w" nine)) s).andThen (Eval.eventually_pure nine _)
  have comes := eventually_deepVal standard low rfl (gives_constant nine)
    (.single (.binding bound rfl)) innermost assigns
  obtain ⟨v, s', solves, read⟩ := deepVal_read_back standard stacked (by decide) low comes.ends
  obtain ⟨same, rfl⟩ := ends_unique standard solves (gives_constant nine).ends
  cases same
  exact ⟨_, comes.ends, read steady⟩

/-- A macro that stands for its argument: `deepval` assigns to a local of the frame of the call, and the
argument is read. -/
theorem deepVal_not_read_back_argument :
    let setting : Setting := ⟨.standard, true⟩
    let main : Session := ⟨∅, ∅, #[.main], .withInput .buffer []⟩
    let s := (main.setVariable "x" .one).defineMacro "m" ⟨.localVar "a", ["a"]⟩
    let target : Expr := .macroRef "m" [.globalVar "x"] true
    let five := Number.ofNat 5
    ∃ t, Eval.Ends (setting.solve · (.call "deepval" [target, .constant five]) 0) s (.ok five) t ∧
      setting.Gives 0 t target .one ∧ ¬setting.Gives 0 t target five := by
  intro setting main s target five
  have standard : setting.registry = .standard := rfl
  have defined : s.macro? "m" = some ⟨.localVar "a", ["a"]⟩ := Std.TreeMap.getElem?_insert_self
  have onward : s.Onward (target, 0) (.localVar "a", 0) := .body defined rfl
  have free : s.lookup "a" 0 = none := by
    rw [lookup, lookupFolded]
    rfl
  have innermost : s.Innermost (.localVar "a", 0) := by
    intro next onward
    cases onward with
    | binding bound => cases free.symm.trans bound
  have low : Text.fold "deepval" = "deepval" := by decide +kernel
  let t := s.bind "a" (.value five) 0
  have assigns : Eval.Eventually
      (fun fuel => (setting.machineAt fuel).assign (.localVar "a") (.value five) 0) s (.ok five) t :=
    (Eval.Costs.eventually fun _ =>
      Eval.costs_update (fun s => ((), s.bind "a" (.value five) 0)) s).andThen (Eval.eventually_pure five _)
  have comes := eventually_deepVal standard low rfl (gives_constant five) (.single onward) innermost assigns
  have argument (fr : Frame) : setting.Gives 0 (t.push fr) (.globalVar "x") .one :=
    gives_globalVar Std.TreeMap.getElem?_insert_self
  have one : setting.Gives 0 t target .one :=
    gives_macroRef defined
      (gives_reference (t.lookup_push _ _ (Frame.locals_bind_same _ rfl)) (argument _))
  refine ⟨t, comes.ends, one, fun assigned => ?_⟩
  have same : five = .one := Except.ok.inj (assigned.unique one).1
  exact absurd same (by decide +kernel)

end Calculator
