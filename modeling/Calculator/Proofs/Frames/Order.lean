import Calculator.Engine
import Calculator.Proofs.Correspondence.Solve
import Calculator.Proofs.Frames

/-! The order of frames: a frame lies above its parent, and refers to no frame above itself. -/

namespace Calculator

/-- What a binding in a frame refers to lies below that frame, or is the frame itself if `own` grants
that. -/
def Binding.Below (own : Prop) (id : FrameId) (binding : Binding) : Prop :=
  ∀ expr origin, binding = .reference expr origin → origin < id ∨ own ∧ origin = id

namespace Binding

variable {own : Prop} {id above : FrameId} {binding : Binding}

theorem below_value (value : Number) : (Binding.value value).Below own id := by
  intro expr origin same
  cases same

theorem below_reference {expr : Expr} {origin : FrameId} (lower : origin < id ∨ own ∧ origin = id) :
    (Binding.reference expr origin).Below own id := by
  intro expr origin same
  cases same
  exact lower

theorem Below.lift (below : binding.Below own id) (higher : id < above) :
    binding.Below own above := by
  intro expr origin same
  rcases below expr origin same with lower | ⟨_, same⟩
  · exact .inl (Nat.lt_trans lower higher)
  · exact .inl (same ▸ higher)

end Binding

structure Frame.OrderedAt (own : Prop) (id : FrameId) (frame : Frame) : Prop where
  parent : ∀ parent, frame.parent = some parent → parent < id
  locals : ∀ (key : String) binding, frame.locals[key]? = some binding → binding.Below own id

namespace Session

variable {s : Session} {own : Prop} {id : FrameId}

def OrderedBy (own : Prop) (s : Session) : Prop :=
  ∀ (id : FrameId) (frame : Frame), s.frames[id]? = some frame → frame.OrderedAt own id

theorem OrderedBy.of_noFrames (empty : s.frames = #[]) : s.OrderedBy own := by
  intro id frame found
  simp [empty] at found

namespace OrderedBy

theorem push {frame : Frame} (ordered : s.OrderedBy own) (top : frame.OrderedAt own s.frames.size) :
    (s.push frame).OrderedBy own := by
  intro id entry found
  rw [getElem?_push] at found
  split at found
  · rename_i same
    cases found
    exact same ▸ top
  · exact ordered id entry found

theorem cutTo (ordered : s.OrderedBy own) (height : Nat) : (s.cutTo height).OrderedBy own := by
  intro id frame found
  rw [getElem?_cutTo] at found
  split at found
  · exact ordered id frame found
  · cases found

theorem bind {name : String} {binding : Binding} (ordered : s.OrderedBy own)
    (below : binding.Below own id) : (s.bind name binding id).OrderedBy own := by
  intro target frame found
  rw [getElem?_bind] at found
  split at found
  · rename_i same
    obtain ⟨old, get, rfl⟩ := Option.map_eq_some_iff.mp found
    obtain ⟨parent, locals⟩ := ordered target old get
    refine ⟨parent, fun key stored get => ?_⟩
    rw [Std.TreeMap.getElem?_insert] at get
    split at get
    · cases get
      exact same ▸ below
    · exact locals key stored get
  · exact ordered target frame found

theorem lookupFolded {folded : String} {binding : Binding} (ordered : s.OrderedBy own)
    (found : Session.lookupFolded s.frames folded id = some binding) : binding.Below own id := by
  obtain ⟨holder, frame, low, top, bound⟩ := exists_of_lookupFolded found
  have below : binding.Below own holder := (ordered holder frame top).locals folded binding bound
  rcases Nat.eq_or_lt_of_le low with rfl | lower
  · exact below
  · exact below.lift lower

theorem lookup {name : String} {binding : Binding} (ordered : s.OrderedBy own)
    (found : s.lookup name id = some binding) : binding.Below own id :=
  ordered.lookupFolded found

end OrderedBy

end Session

/-- Ordered sessions and themselves. A world is what is fixed of the frames on the stack, of which the
lowest ones, `base`, are never released. -/
def orderComparison (own : Prop) (base : List Frame) : Comparison where
  World := { stack : List Frame // base <+: stack }
  now w s t := s = t ∧ s.OrderedBy own ∧ s.skeleton = w.1
  ever s t := s = t ∧ s.OrderedBy own ∧ base <+: s.skeleton
  fault := Eq
  name := Eq
  expr := Eq
  frame w f f' := f = f' ∧ f < w.1.length
  binding f _ b b' := b = b' ∧ b.Below own f
  entered w fr fr' := fr = fr' ∧ fr.locals = ∅ ∧ ∀ parent, fr.parent = some parent → parent < w.1.length
  grow w fr _ := ⟨w.1 ++ [fr.bare], w.2.trans (List.prefix_append ..)⟩
  top w := (w.1.length, w.1.length)
  stops := False

theorem orderedAt_noLocals {own : Prop} {id : FrameId} {frame : Frame} (empty : frame.locals = ∅)
    (parents : ∀ parent, frame.parent = some parent → parent < id) : frame.OrderedAt own id := by
  refine ⟨parents, fun key binding found => ?_⟩
  simp [empty] at found

theorem definitions_refl {own : Prop} {base : List Frame} (d : MacroDefinition) :
    (orderComparison own base).Definitions d d :=
  ⟨rfl, List.forall₂_same.mpr fun _ _ => rfl⟩

def orderCorrespondence (own : Prop) (base : List Frame) : Correspondence where
  toComparison := orderComparison own base
  toSyntactic := .of_eq rfl rfl rfl rfl
  ever_of_now := by
    rintro w s _ ⟨rfl, ordered, stack⟩
    exact ⟨rfl, ordered, stack ▸ w.2⟩
  heights := by
    rintro w s _ ⟨rfl, ordered, stack⟩
    have size : s.frames.size = w.1.length := stack ▸ s.length_skeleton.symm
    exact ⟨size, size⟩
  push := by
    rintro w s _ fr _ ⟨rfl, ordered, stack⟩ ⟨rfl, empty, parents⟩
    have size : s.frames.size = w.1.length := stack ▸ s.length_skeleton.symm
    refine ⟨rfl, ordered.push (orderedAt_noLocals empty (size ▸ parents)), ?_⟩
    rw [Session.skeleton_push, stack]
    rfl
  cut := by
    rintro w s _ fr _ ⟨rfl, _, _⟩ ⟨rfl, ordered, stack⟩
    refine ⟨rfl, ordered.cutTo _, ?_⟩
    rw [Session.skeleton_cutTo, stack]
    exact List.take_left
  consoles := by
    rintro w s _ ⟨rfl, _⟩
    rfl
  setConsole := by
    rintro w s _ console ⟨rfl, ordered, stack⟩
    exact ⟨rfl, ordered, stack⟩
  readVariable := by
    rintro w s _ n _ ⟨rfl, ordered, stack⟩ rfl
    refine ⟨rfl, rfl, ?_⟩
    unfold Session.readVariable
    split
    · exact ⟨ordered, stack⟩
    · exact ⟨ordered, stack⟩
  setVariable := by
    rintro w s _ n _ value ⟨rfl, ordered, stack⟩ rfl
    exact ⟨rfl, ordered, stack⟩
  macros := by
    rintro w s _ n _ ⟨rfl, _⟩ rfl
    exact .of_mem fun d _ => definitions_refl d
  defineMacro := by
    rintro w s _ n _ d d' ⟨rfl, ordered, stack⟩ rfl ⟨bodies, aliases⟩
    obtain rfl := MacroDefinition.eq_of_parts bodies aliases
    exact ⟨rfl, ordered, stack⟩
  hasMacro := by
    rintro w s _ ⟨rfl, _⟩
    rfl
  lookup := by
    rintro w s _ f _ n _ ⟨rfl, ordered, _⟩ ⟨rfl, _⟩ rfl
    exact .of_mem fun _ found => ⟨rfl, ordered.lookup found⟩
  bind := by
    rintro w s _ f _ n _ b _ ⟨rfl, ordered, stack⟩ ⟨rfl, _⟩ rfl ⟨rfl, below⟩
    exact ⟨rfl, ordered.bind below, (s.skeleton_bind n b f).trans stack⟩
  frame_lt := by
    rintro w f _ g _ ⟨rfl, _⟩ ⟨rfl, _⟩
    exact Iff.rfl
  frame_grow := by
    rintro w f _ fr _ ⟨rfl, lower⟩
    refine ⟨rfl, Nat.lt_of_lt_of_le lower ?_⟩
    exact (List.prefix_append ..).length_le
  frame_top := by
    intro w fr fr'
    refine ⟨rfl, ?_⟩
    exact List.length_append ▸ Nat.lt_succ_self _
  entered_main := by
    intro w
    exact ⟨rfl, rfl, fun _ link => nomatch link⟩
  entered_lambda := by
    rintro w f _ ⟨rfl, lower⟩
    refine ⟨rfl, rfl, fun parent link => ?_⟩
    obtain rfl := Option.some.inj link
    exact lower
  entered_macro := by
    rintro w f _ n _ rfl ⟨rfl, lower⟩
    refine ⟨rfl, rfl, fun parent link => ?_⟩
    obtain rfl := Option.some.inj link
    exact lower
  binding_value _ _ value := ⟨rfl, Binding.below_value value⟩
  binding_layer := by
    rintro w f _ b _ ⟨rfl, lower⟩ ⟨rfl, below⟩
    cases b with
    | value value => exact .value value
    | reference expr origin =>
        refine .reference rfl ⟨rfl, ?_⟩
        rcases below expr origin rfl with deeper | ⟨_, same⟩
        · exact Nat.lt_trans deeper lower
        · exact same ▸ lower
  binding_top := by
    rintro w f _ b _ ⟨rfl, lower⟩ ⟨rfl, below⟩
    exact ⟨rfl, below.lift lower⟩
  reference_top := by
    rintro w f _ e _ ⟨rfl, lower⟩ rfl
    exact ⟨rfl, Binding.below_reference (.inl lower)⟩
  unknownLocal := by
    rintro w s _ f _ n _ ⟨rfl, _⟩ ⟨rfl, _⟩ rfl
    rfl

theorem settles_order (base : List Frame) : (orderCorrespondence True base).Settles := by
  rintro w f _ g _ e _ ⟨rfl, _⟩ ⟨rfl, _⟩ rfl within
  refine ⟨rfl, Binding.below_reference ?_⟩
  rcases Nat.lt_or_eq_of_le (Nat.le_of_not_lt within) with lower | same
  · exact .inl lower
  · exact .inr ⟨trivial, same⟩

/-- Every frame lies above its parent, and what it refers to is not above it. -/
def Session.WellStacked (s : Session) : Prop :=
  ∀ (id : FrameId) (frame : Frame), s.frames[id]? = some frame →
    (∀ parent, frame.parent = some parent → parent < id) ∧
      ∀ (key : String) expr origin,
        frame.locals[key]? = some (.reference expr origin) → origin ≤ id

theorem Session.wellStacked_iff (s : Session) : s.WellStacked ↔ s.OrderedBy True := by
  constructor
  · intro stacked id frame found
    obtain ⟨parent, locals⟩ := stacked id frame found
    refine ⟨parent, ?_⟩
    rintro key _ get expr origin rfl
    rcases Nat.lt_or_eq_of_le (locals key expr origin get) with lower | same
    · exact .inl lower
    · exact .inr ⟨trivial, same⟩
  · intro ordered id frame found
    obtain ⟨parent, locals⟩ := ordered id frame found
    refine ⟨parent, fun key expr origin get => ?_⟩
    rcases locals key _ get expr origin rfl with lower | ⟨_, same⟩
    · exact Nat.le_of_lt lower
    · exact Nat.le_of_eq same

theorem Session.wellStacked_main (globals : Std.TreeMap String Number)
    (macros : Std.TreeMap String MacroDefinition) (console : Console) :
    Session.WellStacked ⟨globals, macros, #[.main], console⟩ := by
  have empty : Session.OrderedBy True ⟨globals, macros, #[], console⟩ := .of_noFrames rfl
  refine (wellStacked_iff _).mpr (empty.push (orderedAt_noLocals rfl fun _ link => ?_))
  cases link

theorem solve_keeps_order {own : Prop} (setting : Setting)
    (serves : ∀ base, (orderCorrespondence own base).Serves setting.registry setting.registry)
    {s : Session}
    (ordered : s.OrderedBy own) {id : FrameId} (live : id < s.frames.size) (fuel steps : Nat)
    (expr : Expr) :
    ((setting.solve fuel expr id).run ⟨steps, s⟩).2.session.OrderedBy own ∧
      s.skeleton <+: ((setting.solve fuel expr id).run ⟨steps, s⟩).2.session.skeleton := by
  let C := orderCorrespondence own s.skeleton
  let w : C.World := ⟨s.skeleton, List.prefix_rfl⟩
  have height : id < s.skeleton.length := s.length_skeleton.symm ▸ live
  have frames : C.frame w id id := ⟨rfl, height⟩
  have related : C.Related w Eq (setting.solve fuel expr id) (setting.solve fuel expr id) :=
    Correspondence.solve (serves s.skeleton) rfl (C.bounds_refl fuel) rfl frames
  exact ((related.lockstep rfl ⟨rfl, ordered, rfl⟩ steps).reached not_false).2

section Line

variable {own : Prop} {engine : Engine}
  (serves : (orderCorrespondence own []).Serves engine.registry engine.registry)
  (empty : engine.session.frames = #[])
include serves empty

theorem line_in_order (fuel steps : Nat) (root : Expr) :
    let p := Eval.withFrame .main (engine.setting.solve fuel root) ⟨steps, engine.session⟩
    (orderCorrespondence own []).Outcome ⟨[], List.prefix_rfl⟩ Eq p p := by
  let C := orderCorrespondence own []
  let w : C.World := ⟨[], List.prefix_rfl⟩
  have related : C.Related w Eq (Eval.withFrame .main (engine.setting.solve fuel root))
      (Eval.withFrame .main (engine.setting.solve fuel root)) :=
    Correspondence.solveLine serves rfl fuel rfl
  exact related.lockstep rfl ⟨rfl, .of_noFrames empty, by simp [Session.skeleton, empty, w]⟩ steps

theorem evaluate_in_order (fuel steps : Nat) (root : Expr) :
    (engine.evaluateWithin fuel steps root).2.session.OrderedBy own :=
  ((line_in_order serves empty fuel steps root).reached not_false).2.1

theorem evaluate_leaves_no_frames {after : Engine} {result : Except RuntimeError Number} {fuel : Nat}
    {root : Expr} (ended : engine.evaluate fuel root = some (result, after)) :
    after.session.frames = #[] := by
  have outcome := line_in_order serves empty fuel fuel root
  have released : ∀ s : Session, s.skeleton = [] → s.frames = #[] := by
    intro s none
    apply Array.eq_empty_of_size_eq_zero
    rw [← s.length_skeleton, none]
    rfl
  unfold Engine.evaluate Engine.evaluateWithin Engine.inMainFrame at ended
  dsimp only at outcome
  generalize Eval.withFrame _ _ _ = p at outcome ended
  cases outcome with
  | value steps values sessions =>
      cases ended
      exact released _ sessions.2.2
  | fault steps faults sessions =>
      cases ended
      exact released _ sessions.2.2
  | exhausted steps reached => cases ended
  | stopped granted => exact granted.elim

end Line

/-- At every point of every line the stack is in order. A frame that is referred to is never above the
one that holds the reference, so that it is released later, if at all; and what is evaluated in a frame
releases none of those that were there, so that a reference stands for the frame it was made in. -/
theorem frames_ordered_at_every_point (options : Options) (globals : Std.TreeMap String Number)
    (macros : Std.TreeMap String MacroDefinition) (console : Console) (fuel steps : Nat)
    (root : Expr) :
    let engine : Engine := ⟨options, .standard, ⟨globals, macros, #[], console⟩⟩
    (engine.evaluateWithin fuel steps root).2.session.WellStacked ∧
      ∀ (s : Session) (id : FrameId) (fuel steps : Nat) (expr : Expr),
        s.WellStacked → id < s.frames.size →
          let after := ((engine.setting.solve fuel expr id).run ⟨steps, s⟩).2.session
          after.WellStacked ∧ s.skeleton <+: after.skeleton := by
  intro engine
  have serves : ∀ base, (orderCorrespondence True base).Serves engine.registry engine.registry :=
    fun base => Correspondence.serves_standard (settles_order base)
  refine ⟨?_, fun s id fuel steps expr stacked live => ?_⟩
  · rw [Session.wellStacked_iff]
    exact evaluate_in_order (serves []) rfl fuel steps root
  · rw [Session.wellStacked_iff] at stacked
    obtain ⟨ordered, kept⟩ := solve_keeps_order engine.setting serves stacked live fuel steps expr
    exact ⟨(Session.wellStacked_iff _).mpr ordered, kept⟩

/-- `deepset` in the frame of a macro hands a reference into the main frame on to another local. -/
theorem order_kept_in_macro :
    let setting : Setting := ⟨.standard, true⟩
    let main : Session := ⟨∅, ∅, #[.main], .withInput .buffer []⟩
    let s := (main.push (.ofMacro "g" 0)).bind "a" (.reference (.localVar "x") 0) 1
    let expr : Expr := .call "deepset" [.localVar "b", .localVar "a"]
    let after := ((setting.solve 9 expr 1).run ⟨9, s⟩).2.session
    s.WellStacked ∧ 1 < s.frames.size ∧ after.WellStacked ∧ s.skeleton <+: after.skeleton ∧
      after.lookup "b" 1 matches some (.reference (.localVar "x") 0) := by
  intro setting main s expr after
  have empty : Session.OrderedBy True ⟨∅, ∅, #[], .withInput .buffer []⟩ := .of_noFrames rfl
  have one : main.OrderedBy True := empty.push (orderedAt_noLocals rfl nofun)
  have two : (main.push (.ofMacro "g" 0)).OrderedBy True := by
    refine one.push (orderedAt_noLocals rfl fun parent link => ?_)
    cases link
    exact Nat.one_pos
  have stacked : s.WellStacked :=
    (Session.wellStacked_iff s).mpr (two.bind (Binding.below_reference (.inl Nat.one_pos)))
  have live : 1 < s.frames.size := by
    rw [Session.size_bind]
    exact Nat.one_lt_two
  have kept (fuel steps : Nat) :
      let after := ((setting.solve fuel expr 1).run ⟨steps, s⟩).2.session
      after.WellStacked ∧ s.skeleton <+: after.skeleton :=
    (frames_ordered_at_every_point .standard ∅ ∅ (.withInput .buffer []) 0 0 expr).2 s 1 fuel steps expr stacked live
  obtain ⟨ordered, grown⟩ := kept 9 9
  exact ⟨stacked, live, ordered, grown, by decide +kernel⟩

end Calculator
