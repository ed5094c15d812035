import Calculator.Proofs.Frames.Order
import Calculator.Proofs.Lines
import Mathlib.Logic.Relation

/-! Locals that are read while a local is read. What a local stands for lies below its frame, except
where `deepset` has stored a reference in the frame that it refers to. -/

namespace Calculator

mutual

def Expr.mentions (key : String) : Expr → Bool
  | .constant _ | .globalVar _ | .quote _ => false
  | .localVar name => Text.fold name == key
  | .macroRef _ args _ | .call _ args => mentionedIn key args
  | .lambda aliases body => !aliases.any (Text.fold · == key) && body.mentions key
  | .pointer e | .localPointer e | .unary _ e => e.mentions key
  | .assign left right | .binary _ left right => left.mentions key || right.mentions key

def Expr.mentionedIn (key : String) : List Expr → Bool
  | [] => false
  | e :: rest => e.mentions key || mentionedIn key rest

end

namespace Session

inductive FoundIn (s : Session) (key : String) : FrameId → FrameId → Prop
  | here {id : FrameId} {frame : Frame} {binding : Binding} (top : s.frames[id]? = some frame)
      (bound : frame.locals[key]? = some binding) : FoundIn s key id id
  | parent {id parent target : FrameId} {frame : Frame} (top : s.frames[id]? = some frame)
      (free : frame.locals[key]? = none) (captures : frame.captures = true)
      (link : frame.parent = some parent) (found : FoundIn s key parent target) :
      FoundIn s key id target

/-- Reading the first local reads the second one: it is bound to a reference to an expression that
mentions the other, which is found from there. -/
def Edge (s : Session) (x y : FrameId × String) : Prop :=
  ∃ frame expr origin, s.frames[x.1]? = some frame ∧
    frame.locals[x.2]? = some (.reference expr origin) ∧ expr.mentions y.2 = true ∧
    s.FoundIn y.2 origin y.1

/-- No local is read while it is read. -/
def Acyclic (s : Session) : Prop := ∀ x, ¬Relation.TransGen s.Edge x x

/-- A local is bound to a reference into its own frame. -/
def ReferencesOwn (s : Session) (x : FrameId × String) : Prop :=
  ∃ frame expr, s.frames[x.1]? = some frame ∧ frame.locals[x.2]? = some (.reference expr x.1)

variable {s : Session} {own : Prop}

theorem FoundIn.le {key : String} {id target : FrameId} (found : s.FoundIn key id target)
    (ordered : s.OrderedBy own) : target ≤ id := by
  induction found with
  | here => exact Nat.le_refl _
  | parent top _ _ link _ ih =>
      exact Nat.le_of_lt (Nat.lt_of_le_of_lt ih ((ordered _ _ top).parent _ link))

theorem Edge.cases {x y : FrameId × String} (edge : s.Edge x y) (ordered : s.OrderedBy own) :
    y.1 < x.1 ∨ own ∧ y.1 ≤ x.1 ∧ (y.1 = x.1 → s.ReferencesOwn x) := by
  obtain ⟨frame, expr, origin, top, bound, _, found⟩ := edge
  have le : y.1 ≤ origin := found.le ordered
  rcases (ordered _ _ top).locals _ _ bound expr origin rfl with lower | ⟨granted, same⟩
  · exact .inl (Nat.lt_of_le_of_lt le lower)
  · subst same
    exact .inr ⟨granted, le, fun _ => ⟨frame, expr, top, bound⟩⟩

theorem Edge.le {x y : FrameId × String} (edge : s.Edge x y) (ordered : s.OrderedBy own) :
    y.1 ≤ x.1 := by
  rcases edge.cases ordered with lower | ⟨_, le, _⟩
  · exact Nat.le_of_lt lower
  · exact le

theorem OrderedBy.path_le {x y : FrameId × String} (ordered : s.OrderedBy own)
    (path : Relation.ReflTransGen s.Edge x y) : y.1 ≤ x.1 := by
  induction path with
  | refl => exact Nat.le_refl _
  | tail _ edge ih => exact Nat.le_trans (edge.le ordered) ih

theorem OrderedBy.cycle_referencesOwn {x y : FrameId × String} (ordered : s.OrderedBy own)
    (there : Relation.TransGen s.Edge x y) (back : Relation.TransGen s.Edge y x) :
    y.1 = x.1 ∧ own ∧ s.ReferencesOwn y := by
  have below : y.1 ≤ x.1 := ordered.path_le there.to_reflTransGen
  obtain ⟨z, edge, rest⟩ := Relation.TransGen.head'_iff.mp back
  have above : x.1 ≤ z.1 := ordered.path_le rest
  have same : y.1 = x.1 := Nat.le_antisymm below (Nat.le_trans above (edge.le ordered))
  refine ⟨same, ?_⟩
  rcases edge.cases ordered with lower | ⟨granted, le, owned⟩
  · exact absurd (Nat.lt_of_lt_of_le lower below) (Nat.not_lt.mpr above)
  · exact ⟨granted, owned (Nat.le_antisymm le (same ▸ above))⟩

theorem OrderedBy.not_referencesOwn (ordered : s.OrderedBy False) (x : FrameId × String) :
    ¬s.ReferencesOwn x := by
  rintro ⟨frame, expr, top, bound⟩
  rcases (ordered _ _ top).locals _ _ bound expr _ rfl with lower | ⟨never, _⟩
  · exact Nat.lt_irrefl _ lower
  · exact never

theorem OrderedBy.acyclic (ordered : s.OrderedBy False) : s.Acyclic :=
  fun _ cycle => (ordered.cycle_referencesOwn cycle cycle).2.1

end Session

inductive Engine.Reachable (registry : Registry) : Engine → Prop
  | new (options : Options) (console : Console) :
      Reachable registry { Engine.new options console with registry := registry }
  | line {engine after : Engine} {fuel : Nat} {text : String} {record : Bool}
      {result : Except Error (Number × Bool)} (before : Reachable registry engine)
      (ran : engine.run fuel text record = some (result, after)) : Reachable registry after

def Engine.pointOf (engine : Engine) (fuel steps : Nat) (text : String) : Option Session :=
  match Parsed.ofText engine.vocabulary engine.options.imply text with
  | .ok ⟨some root, _⟩ => some (engine.evaluateWithin fuel steps root).2.session
  | _ => none

/-- The points of solving lines on such engines. -/
def Session.Reached (registry : Registry) (s : Session) : Prop :=
  ∃ (engine : Engine) (fuel steps : Nat) (text : String),
    engine.Reachable registry ∧ engine.pointOf fuel steps text = some s

theorem Engine.evaluate_registry {engine after : Engine} {fuel : Nat} {root : Expr}
    {result : Except RuntimeError Number} (ended : engine.evaluate fuel root = some (result, after)) :
    after.registry = engine.registry := by
  have same : (engine.evaluateWithin fuel fuel root).2.registry = engine.registry := rfl
  unfold Engine.evaluate at ended
  generalize engine.evaluateWithin fuel fuel root = p at same ended
  obtain ⟨ending, next⟩ := p
  cases ending with
  | value value =>
      cases ended
      exact same
  | fault error =>
      cases ended
      exact same
  | exhausted => cases ended

theorem Engine.run_registry {engine after : Engine} {fuel : Nat} {text : String} {record : Bool}
    {result : Except Error (Number × Bool)}
    (ran : engine.run fuel text record = some (result, after)) : after.registry = engine.registry :=
  (run_ran ran).kept (P := fun after => after.registry = engine.registry) rfl
    (fun _ _ _ => evaluate_registry) fun _ _ => id

section Reached

variable {own : Prop} {registry : Registry}
  (serves : (orderCorrespondence own []).Serves registry registry)
include serves

theorem Engine.Reachable.idle {engine : Engine} (reachable : engine.Reachable registry) :
    engine.registry = registry ∧ engine.session.frames = #[] := by
  induction reachable with
  | new options console => exact ⟨rfl, rfl⟩
  | @line engine after fuel text record result before ran ih =>
      obtain ⟨same, empty⟩ := ih
      refine ⟨(run_registry ran).trans same, ?_⟩
      refine (run_ran ran).kept (P := fun after => after.session.frames = #[]) empty ?_ fun _ _ => id
      exact fun _ _ _ => evaluate_leaves_no_frames (same ▸ serves) empty

theorem Session.Reached.ordered {s : Session} (reached : s.Reached registry) : s.OrderedBy own := by
  obtain ⟨engine, fuel, steps, text, before, point⟩ := reached
  obtain ⟨same, empty⟩ := before.idle serves
  unfold Engine.pointOf at point
  split at point
  · cases point
    exact evaluate_in_order (same ▸ serves) empty fuel steps _
  · cases point

end Reached

def Session.bindsOverItself (s : Session) (id : FrameId) (key : String) : Bool :=
  match s.frames[id]? with
  | none => false
  | some frame =>
    match frame.locals[key]? with
    | some (.reference expr origin) => origin == id && expr.mentions key
    | _ => false

theorem Session.edge_of_bindsOverItself {s : Session} {id : FrameId} {key : String}
    (binds : s.bindsOverItself id key = true) : s.Edge (id, key) (id, key) := by
  unfold Session.bindsOverItself at binds
  split at binds
  · cases binds
  · rename_i frame top
    split at binds
    · rename_i expr origin bound
      rw [Bool.and_eq_true, beq_iff_eq] at binds
      obtain ⟨rfl, mentions⟩ := binds
      exact ⟨frame, expr, origin, top, bound, mentions, .here top bound⟩
    · cases binds

def Engine.pointAfter (engine : Engine) (fuel steps : Nat) (first second : String) :
    Option Session := do
  let (_, after) ← engine.run fuel first true
  after.pointOf fuel steps second

theorem Engine.Reachable.pointAfter {registry : Registry} {engine : Engine} {s : Session}
    {fuel steps : Nat} {first second : String} (before : engine.Reachable registry)
    (point : engine.pointAfter fuel steps first second = some s) : s.Reached registry := by
  obtain ⟨⟨result, after⟩, ran, point⟩ := Option.bind_eq_some_iff.mp point
  exact ⟨after, fuel, steps, second, .line before ran, point⟩

theorem exists_reached_edge_self :
    ∃ s, Session.Reached .standard s ∧ s.Edge (0, "p") (0, "p") := by
  let engine := Engine.new .standard (.withInput .buffer [])
  have binds : (engine.pointAfter 40 14 "@g(x, y) = deepset(x, y)"
      "#p = 5; @g(#p, ($n += 1; if($n < 3, #p, 7))); #p").any (·.bindsOverItself 0 "p") = true := by
    decide +kernel
  obtain ⟨s, point, binds⟩ := (Option.any_eq_true _ _).mp binds
  have start : engine.Reachable .standard := .new .standard (.withInput .buffer [])
  exact ⟨s, start.pointAfter point, Session.edge_of_bindsOverItself binds⟩

/-- Reading a local may come back to that local. -/
theorem reached_not_acyclic : ¬∀ s, Session.Reached .standard s → s.Acyclic := by
  intro acyclic
  obtain ⟨s, reached, edge⟩ := exists_reached_edge_self
  exact acyclic s reached _ (.single edge)

namespace Machine

/-- Prepares a binding for a frame, but stops where a reference would be kept in the frame that it
refers to. -/
def settleApart (m : Machine) (source : Binding) (frame : FrameId) : Eval Binding :=
  match source with
  | .reference _ origin => if origin = frame then Eval.outOfFuel else m.settle source frame
  | .value _ => m.settle source frame

end Machine

def Builtin.deepSetBy (settle : Machine → Binding → FrameId → Eval Binding) : Handler :=
  fun m args frame => do
    let target ← Argument.assignable "deepset" args 0
    let source ← m.handOn (← Argument.get "deepset" args 1) frame
    m.deepAssignWithin (settle m) m.fuel target source frame

theorem Builtin.deepSetBy_settle : deepSetBy Machine.settle = deepSet := rfl

/-- The standard functions, of which `deepset` keeps no reference in the frame that it refers to. -/
def Registry.apart : Registry :=
  Registry.standard.register "deepset" ⟨.exact 2, Builtin.deepSetBy Machine.settleApart⟩

namespace Correspondence

def Prepare (C : Correspondence) (settle settle' : Machine → Binding → FrameId → Eval Binding) :
    Prop :=
  ∀ ⦃w m m' f f' o o' b b'⦄, C.Machines m m' → C.binding f f' b b' → C.frame w f f' →
    C.frame w o o' → C.Related w (C.binding o o') (settle m b o) (settle' m' b' o')

theorem agree_deepSetBy {C : Correspondence}
    {settle settle' : Machine → Binding → FrameId → Eval Binding} (prepare : C.Prepare settle settle') :
    C.Agree (.exact 2) (Builtin.deepSetBy settle) (Builtin.deepSetBy settle') := by
  intro w m m' args args' f f' h parts frames takes
  apply (assignable_arg parts "deepset" 0 (takes.given rfl)).andThen
  intro target target' targets
  apply (get_arg parts "deepset" 1 (takes.given rfl)).andThen
  intro arg arg' exprs
  apply (h.handOn exprs frames).andThen
  intro source source' sources
  apply h.deepAssignWithin C.binding id _ h.fuel targets sources frames
  intro f f' o o' b b' sources frames origins
  exact prepare h sources frames origins

end Correspondence

def stoppingCorrespondence : Correspondence :=
  { orderCorrespondence True [] with stops := True, spare_stops := .inl rfl }

theorem settleApart_stops :
    stoppingCorrespondence.Prepare Machine.settleApart Machine.settle := by
  intro w m m' f f' o o' b b' h sources frames origins
  have settled : stoppingCorrespondence.Related w (stoppingCorrespondence.binding o o')
      (m.settle b o) (m'.settle b' o') := by
    apply h.settle sources frames origins
    intro e e' g g' _ exprs targets within
    exact settles_order [] origins targets exprs within
  unfold Machine.settleApart
  split
  · split
    · exact .stopped trivial
    · exact settled
  · exact settled

theorem settleApart_below (base : List Frame) :
    (orderCorrespondence False base).Prepare Machine.settleApart Machine.settleApart := by
  intro w m m' f f' o o' b b' h sources frames origins
  have settled : (∀ expr, b ≠ .reference expr o) →
      (orderCorrespondence False base).Related w ((orderCorrespondence False base).binding o o')
        (m.settle b o) (m'.settle b' o') := by
    intro apart
    apply h.settle sources frames origins
    rintro e _ g _ rfl rfl ⟨rfl, _⟩ older
    refine ⟨rfl, Binding.below_reference (.inl ?_)⟩
    apply Nat.lt_of_le_of_ne (Nat.le_of_not_lt older)
    rintro rfl
    exact apart e rfl
  obtain ⟨rfl, _⟩ := sources
  obtain ⟨rfl, _⟩ := origins
  unfold Machine.settleApart
  cases b with
  | value value => exact settled nofun
  | reference expr origin =>
      by_cases same : origin = o
      · simp only [if_pos same]
        exact .exhausted
      · simp only [if_neg same]
        apply settled
        rintro _ equal
        cases equal
        exact same rfl

theorem find_apart (name : String) :
    Registry.apart.find? name =
      if Text.fold name = "deepset" then some ⟨.exact 2, Builtin.deepSetBy Machine.settleApart⟩
      else Registry.standard.find? name := by
  have folded : Text.fold "deepset" = "deepset" := by decide +kernel
  rw [Registry.apart, Registry.find_register, folded]
  simp only [eq_comm]

theorem serves_apart (base : List Frame) :
    (orderCorrespondence False base).Serves Registry.apart Registry.apart := by
  refine .of_keeps (fun name builtin found => ?_) nofun
  rw [find_apart] at found
  split at found
  · cases found
    exact Correspondence.agree_deepSetBy (settleApart_below base)
  · rename_i other
    exact Correspondence.keeps_standard name builtin found fun same => absurd same other

theorem serves_stopping : stoppingCorrespondence.Serves Registry.apart Registry.standard := by
  have standard := Correspondence.serves_standard (C := stoppingCorrespondence) (settles_order [])
  refine ⟨fun name => ?_, nofun⟩
  rw [find_apart]
  split
  · rename_i folded
    have found : Registry.standard.find? name = some ⟨.exact 2, Builtin.deepSet⟩ :=
      Registry.find_standard (by simp [Builtin.standardTable, Builtin.programTable]) folded
    rw [found, ← Builtin.deepSetBy_settle]
    exact .some ⟨rfl, Correspondence.agree_deepSetBy settleApart_stops⟩
  · exact standard.find name

theorem evaluate_apart (engine : Engine) (empty : engine.session.frames = #[])
    (fuel steps : Nat) (root : Expr) :
    let p := Engine.evaluateWithin { engine with registry := .apart } fuel steps root
    let q := Engine.evaluateWithin { engine with registry := .standard } fuel steps root
    p.1 = .exhausted ∨ p.1 = q.1 ∧ p.2.session = q.2.session := by
  let w : stoppingCorrespondence.World := ⟨[], List.prefix_rfl⟩
  let apart : Setting := ⟨.apart, engine.options.imply⟩
  let standard : Setting := ⟨.standard, engine.options.imply⟩
  have serves : stoppingCorrespondence.Serves apart.registry standard.registry := serves_stopping
  have related : stoppingCorrespondence.Related w Eq
      (Eval.withFrame .main (apart.solve fuel root))
      (Eval.withFrame .main (standard.solve fuel root)) :=
    Correspondence.solveLine serves rfl fuel rfl
  have outcome := related.lockstep (s := engine.session) (t := engine.session) rfl
    ⟨rfl, .of_noFrames empty, by simp [Session.skeleton, empty, w]⟩ steps
  unfold Engine.evaluateWithin Engine.inMainFrame Engine.setting
  dsimp only [Eval.run] at outcome ⊢
  generalize Eval.withFrame _ _ _ = p at outcome ⊢
  generalize Eval.withFrame _ _ _ = q at outcome ⊢
  cases outcome with
  | value steps values sessions => exact .inr ⟨congrArg Ending.value values, sessions.1⟩
  | fault steps faults sessions => exact .inr ⟨congrArg Ending.fault faults, sessions.1⟩
  | exhausted => exact .inl rfl
  | stopped => exact .inl rfl

/-- All locals of a cycle lie in one frame and are bound to references into that frame, and `deepset`
alone makes such bindings: as long as it stops before it makes one, no local is read while it is
read. -/
theorem only_deepset_closes_cycles :
    (∀ s, Session.Reached .standard s →
      (∀ x y, s.Edge x y → y.1 ≤ x.1) ∧
        ∀ x y, Relation.TransGen s.Edge x y → Relation.TransGen s.Edge y x →
          y.1 = x.1 ∧ s.ReferencesOwn y) ∧
      (∀ s, Session.Reached .apart s → (∀ x, ¬s.ReferencesOwn x) ∧ s.Acyclic) ∧
      ∀ engine : Engine, engine.session.frames = #[] → ∀ fuel steps root,
        let p := Engine.evaluateWithin { engine with registry := .apart } fuel steps root
        let q := Engine.evaluateWithin { engine with registry := .standard } fuel steps root
        p.1 = .exhausted ∨ p.1 = q.1 ∧ p.2.session = q.2.session := by
  refine ⟨fun s reached => ?_, fun s reached => ?_, evaluate_apart⟩
  · have ordered := reached.ordered (Correspondence.serves_standard (settles_order []))
    refine ⟨fun x y edge => edge.le ordered, fun x y there back => ?_⟩
    obtain ⟨same, _, own⟩ := ordered.cycle_referencesOwn there back
    exact ⟨same, own⟩
  · have ordered := reached.ordered (serves_apart [])
    exact ⟨ordered.not_referencesOwn, ordered.acyclic⟩

theorem edge_self_referencesOwn : ∃ s, Session.Reached .standard s ∧ s.ReferencesOwn (0, "p") := by
  obtain ⟨s, reached, edge⟩ := exists_reached_edge_self
  have cycles := (only_deepset_closes_cycles.1 s reached).2
  exact ⟨s, reached, (cycles _ _ (.single edge) (.single edge)).2⟩

end Calculator
