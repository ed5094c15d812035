import Calculator.Proofs.Correspondence.Solve
import Calculator.Proofs.Frames

/-! Runs on two stacks that agree in the frames at the bottom and in the frames on top. What lies between
is different, and out of reach. -/

namespace Calculator

theorem Binding.Layer.imp {expr : Expr → Expr → Prop} {frame frame' : FrameId → FrameId → Prop}
    {b b' : Binding} (layer : Binding.Layer expr frame b b')
    (weaker : ∀ f f', frame f f' → frame' f f') : Binding.Layer expr frame' b b' := by
  cases layer with
  | value value => exact .value value
  | reference exprs frames => exact .reference exprs (weaker _ _ frames)

/-- Two stacks that runs stand on. They have their lowest frames in common. -/
structure Ground where
  shared : Nat
  base : Array Frame
  base' : Array Frame
  shared_le : shared ≤ base.size
  shared_le' : shared ≤ base'.size

namespace Ground

variable (g : Ground)

/-- Frames in common, and frames at the same height above the two stacks. -/
inductive Place : FrameId → FrameId → Prop
  | shared {id : FrameId} (low : id < g.shared) : Place id id
  | above (i : Nat) : Place (g.base.size + i) (g.base'.size + i)

/-- The frames that what a frame holds may refer to: a frame in common refers to such frames only. -/
def Reach (f : FrameId) (id id' : FrameId) : Prop :=
  g.Place id id' ∧ (f < g.shared → id < g.shared)

def Held (f : FrameId) : Binding → Binding → Prop := Binding.Layer Eq (g.Reach f)

variable {g} {id id' other other' : FrameId}

theorem lt_above (low : id < g.shared) (i : Nat) : id < g.base.size + i :=
  Nat.lt_of_lt_of_le low (Nat.le_trans g.shared_le (Nat.le_add_right ..))

theorem lt_above' (low : id < g.shared) (i : Nat) : id < g.base'.size + i :=
  Nat.lt_of_lt_of_le low (Nat.le_trans g.shared_le' (Nat.le_add_right ..))

theorem Place.lt_iff (places : g.Place id id') (others : g.Place other other') :
    id < other ↔ id' < other' := by
  cases places with
  | shared lower =>
      cases others with
      | shared => exact Iff.rfl
      | above j => exact iff_of_true (lt_above lower j) (lt_above' lower j)
  | above i =>
      cases others with
      | shared lower =>
          exact iff_of_false (Nat.lt_asymm (lt_above lower i)) (Nat.lt_asymm (lt_above' lower i))
      | above j => rw [Nat.add_lt_add_iff_left, Nat.add_lt_add_iff_left]

theorem not_shared (i : Nat) : ¬g.base.size + i < g.shared :=
  Nat.not_lt.mpr (Nat.le_trans g.shared_le (Nat.le_add_right ..))

theorem held_above (i : Nat) {b b' : Binding} (layer : Binding.Layer Eq g.Place b b') :
    g.Held (g.base.size + i) b b' := by
  exact layer.imp fun f f' places => ⟨places, fun lower => absurd lower (not_shared i)⟩

end Ground

structure Frame.Alike (g : Ground) (frame frame' : Frame) : Prop where
  name : frame.name = frame'.name
  captures : frame.captures = frame'.captures
  parent : frame.captures = true → Option.Rel g.Place frame.parent frame'.parent
  locals : ∀ key : String,
    Option.Rel (Binding.Layer Eq g.Place) frame.locals[key]? frame'.locals[key]?

theorem Frame.Alike.of_empty {g : Ground} {frame frame' : Frame}
    (name : frame.name = frame'.name) (captures : frame.captures = frame'.captures)
    (parent : frame.captures = true → Option.Rel g.Place frame.parent frame'.parent)
    (empty : frame.locals = ∅) (empty' : frame'.locals = ∅) : frame.Alike g frame' := by
  refine ⟨name, captures, parent, fun key => ?_⟩
  simp only [empty, empty', Std.TreeMap.getElem?_emptyc]
  exact .none

theorem Frame.Alike.of_closed {g : Ground} {frame frame' : Frame}
    (name : frame.name = frame'.name) (closed : frame.captures = false)
    (closed' : frame'.captures = false) (empty : frame.locals = ∅) (empty' : frame'.locals = ∅) :
    frame.Alike g frame' := by
  refine .of_empty name (closed.trans closed'.symm) (fun captures => ?_) empty empty'
  rw [closed] at captures
  cases captures

namespace Session

structure SameTables (s t : Session) : Prop where
  globals : s.globals = t.globals
  macros : s.macros = t.macros
  console : s.console = t.console

def KeepsFrom (shared : Nat) (base : Array Frame) (s : Session) : Prop :=
  ∀ id, shared ≤ id → id < base.size → s.frames[id]? = base[id]?

namespace KeepsFrom

variable {shared : Nat} {base : Array Frame} {s : Session} (kept : s.KeepsFrom shared base)
include kept

theorem push (higher : base.size ≤ s.frames.size) (frame : Frame) :
    (s.push frame).KeepsFrom shared base := by
  intro id own low
  rw [getElem?_push, if_neg (Nat.ne_of_lt (Nat.lt_of_lt_of_le low higher))]
  exact kept id own low

theorem cutTo {height : Nat} (higher : base.size ≤ height) :
    (s.cutTo height).KeepsFrom shared base := by
  intro id own low
  rw [getElem?_cutTo, if_pos (Nat.lt_of_lt_of_le low higher)]
  exact kept id own low

theorem bind (name : String) (binding : Binding) {id : FrameId}
    (apart : id < shared ∨ base.size ≤ id) : (s.bind name binding id).KeepsFrom shared base := by
  intro other own low
  have different : id ≠ other := by
    rintro rfl
    rcases apart with lower | higher
    · exact Nat.not_lt.mpr own lower
    · exact Nat.not_lt.mpr higher low
  rw [getElem?_bind, if_neg different]
  exact kept other own low

end KeepsFrom

/-- Two stacks with as many frames above the ground, alike in pairs, and with the lowest frames in
common. -/
structure AlikeAbove (g : Ground) (k : Nat) (s t : Session) : Prop where
  tables : s.SameTables t
  kept : s.KeepsFrom g.shared g.base
  kept' : t.KeepsFrom g.shared g.base'
  height : s.frames.size = g.base.size + k
  height' : t.frames.size = g.base'.size + k
  common : ∀ id < g.shared, s.frames[id]? = t.frames[id]?
  closed : ∀ (id : FrameId) (frame : Frame), id < g.shared → s.frames[id]? = some frame →
    ∀ (key : String) expr origin, frame.locals[key]? = some (.reference expr origin) →
      origin < g.shared
  frames : ∀ i, Option.Rel (Frame.Alike g) s.frames[g.base.size + i]? t.frames[g.base'.size + i]?

namespace AlikeAbove

variable {g : Ground} {k : Nat} {s t : Session}

theorem frames_ground (height : s.frames.size = g.base.size) (height' : t.frames.size = g.base'.size)
    (i : Nat) :
    Option.Rel (Frame.Alike g) s.frames[g.base.size + i]? t.frames[g.base'.size + i]? := by
  rw [← height, ← height', Array.getElem?_eq_none (Nat.le_add_right ..),
    Array.getElem?_eq_none (Nat.le_add_right ..)]
  exact .none

theorem push (alike : AlikeAbove g k s t) {frame frame' : Frame} (tops : frame.Alike g frame') :
    AlikeAbove g (k + 1) (s.push frame) (t.push frame') where
  tables := ⟨alike.tables.globals, alike.tables.macros, alike.tables.console⟩
  kept := alike.kept.push (alike.height ▸ Nat.le_add_right ..) frame
  kept' := alike.kept'.push (alike.height' ▸ Nat.le_add_right ..) frame'
  height := by rw [Session.push, Array.size_push, alike.height, Nat.add_assoc]
  height' := by rw [Session.push, Array.size_push, alike.height', Nat.add_assoc]
  common := by
    intro id low
    rw [getElem?_push, getElem?_push, alike.height, alike.height',
      if_neg (Nat.ne_of_lt (Ground.lt_above low k)), if_neg (Nat.ne_of_lt (Ground.lt_above' low k))]
    exact alike.common id low
  closed := by
    intro id frame low found
    rw [getElem?_push, alike.height, if_neg (Nat.ne_of_lt (Ground.lt_above low k))] at found
    exact alike.closed id frame low found
  frames := by
    intro i
    rw [getElem?_push, getElem?_push, alike.height, alike.height']
    simp only [Nat.add_left_cancel_iff]
    split
    · exact .some tops
    · exact alike.frames i

theorem cutTo (alike : AlikeAbove g (k + 1) s t) :
    AlikeAbove g k (s.cutTo (g.base.size + k)) (t.cutTo (g.base'.size + k)) where
  tables := ⟨alike.tables.globals, alike.tables.macros, alike.tables.console⟩
  kept := alike.kept.cutTo (Nat.le_add_right ..)
  kept' := alike.kept'.cutTo (Nat.le_add_right ..)
  height := by
    rw [Session.cutTo, Array.size_shrink, alike.height]
    omega
  height' := by
    rw [Session.cutTo, Array.size_shrink, alike.height']
    omega
  common := by
    intro id low
    rw [getElem?_cutTo, getElem?_cutTo, if_pos (Ground.lt_above low k), if_pos (Ground.lt_above' low k)]
    exact alike.common id low
  closed := by
    intro id frame low found
    rw [getElem?_cutTo, if_pos (Ground.lt_above low k)] at found
    exact alike.closed id frame low found
  frames := by
    intro i
    rw [getElem?_cutTo, getElem?_cutTo]
    simp only [Nat.add_lt_add_iff_left]
    split
    · exact alike.frames i
    · exact .none

theorem bindShared (alike : AlikeAbove g k s t) {id : FrameId} (low : id < g.shared)
    {binding : Binding} (held : ∀ expr origin, binding = .reference expr origin → origin < g.shared)
    (name : String) : AlikeAbove g k (s.bind name binding id) (t.bind name binding id) where
  tables := ⟨alike.tables.globals, alike.tables.macros, alike.tables.console⟩
  kept := alike.kept.bind name binding (.inl low)
  kept' := alike.kept'.bind name binding (.inl low)
  height := by rw [Session.bind, Array.size_modify, alike.height]
  height' := by rw [Session.bind, Array.size_modify, alike.height']
  common := by
    intro other lower
    rw [getElem?_bind, getElem?_bind, alike.common other lower]
  closed := by
    intro other frame lower found key expr origin get
    rw [getElem?_bind] at found
    split at found
    · obtain ⟨old, there, rfl⟩ := Option.map_eq_some_iff.mp found
      rw [Std.TreeMap.getElem?_insert] at get
      split at get
      · exact held expr origin (Option.some.inj get)
      · exact alike.closed other old lower there key expr origin get
    · exact alike.closed other frame lower found key expr origin get
  frames := by
    intro i
    rw [getElem?_bind, getElem?_bind, if_neg (Nat.ne_of_lt (Ground.lt_above low i)),
      if_neg (Nat.ne_of_lt (Ground.lt_above' low i))]
    exact alike.frames i

theorem bindAbove (alike : AlikeAbove g k s t) (j : Nat) {b b' : Binding}
    (bindings : Binding.Layer Eq g.Place b b') (name : String) :
    AlikeAbove g k (s.bind name b (g.base.size + j)) (t.bind name b' (g.base'.size + j)) where
  tables := ⟨alike.tables.globals, alike.tables.macros, alike.tables.console⟩
  kept := alike.kept.bind name b (.inr (Nat.le_add_right ..))
  kept' := alike.kept'.bind name b' (.inr (Nat.le_add_right ..))
  height := by rw [Session.bind, Array.size_modify, alike.height]
  height' := by rw [Session.bind, Array.size_modify, alike.height']
  common := by
    intro other lower
    rw [getElem?_bind, getElem?_bind, if_neg (Nat.ne_of_gt (Ground.lt_above lower j)),
      if_neg (Nat.ne_of_gt (Ground.lt_above' lower j))]
    exact alike.common other lower
  closed := by
    intro other frame lower found
    rw [getElem?_bind, if_neg (Nat.ne_of_gt (Ground.lt_above lower j))] at found
    exact alike.closed other frame lower found
  frames := by
    intro i
    rw [getElem?_bind, getElem?_bind]
    simp only [Nat.add_left_cancel_iff]
    have frames := alike.frames i
    split
    · generalize s.frames[g.base.size + i]? = old at frames ⊢
      generalize t.frames[g.base'.size + i]? = old' at frames ⊢
      cases frames with
      | none => exact .none
      | some frames =>
          refine .some ⟨frames.name, frames.captures, frames.parent, fun key => ?_⟩
          simp only [Std.TreeMap.getElem?_insert]
          split
          · exact .some bindings
          · exact frames.locals key
    · exact frames

theorem bind (alike : AlikeAbove g k s t) {id id' : FrameId} {b b' : Binding}
    (places : g.Place id id') (bindings : g.Held id b b') (name : String) :
    AlikeAbove g k (s.bind name b id) (t.bind name b' id') := by
  cases places with
  | above j => exact alike.bindAbove j (bindings.imp fun _ _ => And.left) name
  | shared low =>
      cases bindings with
      | value value =>
          refine alike.bindShared low (fun _ _ same => ?_) name
          cases same
      | reference exprs reach =>
          obtain ⟨places, within⟩ := reach
          cases exprs
          cases places with
          | shared lower =>
              refine alike.bindShared low (fun _ _ same => ?_) name
              cases same
              exact lower
          | above i => exact absurd (within low) (Ground.not_shared i)

theorem searchedShared (alike : AlikeAbove g k s t) (folded : String) {id : FrameId} {frame : Frame}
    (low : id < g.shared) (top : s.frames[id]? = some frame) :
    SearchedAlike g.Place (g.Held id) folded id id frame frame where
  locals := by
    refine .of_mem fun binding here => ?_
    cases binding with
    | value value => exact .value value
    | reference expr origin =>
        have lower := alike.closed id frame low top folded expr origin here
        exact .reference rfl ⟨.shared lower, fun _ => lower⟩
  captures := rfl
  parent _ := .of_mem fun _ _ => ⟨Iff.rfl, fun below => .shared (Nat.lt_trans below low)⟩

theorem searchedAbove (folded : String) (i : Nat) {frame frame' : Frame} (frames : frame.Alike g frame') :
    SearchedAlike g.Place (g.Held (g.base.size + i)) folded (g.base.size + i) (g.base'.size + i) frame
      frame' where
  locals := (frames.locals folded).imp fun _ _ => Ground.held_above i
  captures := frames.captures
  parent captures := (frames.parent captures).imp fun _ _ places =>
    ⟨places.lt_iff (.above i), fun _ => places⟩

theorem lookupFolded (alike : AlikeAbove g k s t) (folded : String) {id id' : FrameId}
    (places : g.Place id id') :
    Option.Rel (g.Held id) (Session.lookupFolded s.frames folded id)
      (Session.lookupFolded t.frames folded id') := by
  refine lookupFolded_rel (P := g.Place) (R := g.Held) (fun id id' places => ?_)
    (fun parent id b b' below held => ?_) places
  · cases places with
    | shared low =>
        rw [← alike.common id low]
        exact .of_mem fun frame top => alike.searchedShared folded low top
    | above i => exact (alike.frames i).imp fun _ _ frames => searchedAbove folded i frames
  · exact held.imp fun _ _ reach => ⟨reach.1, fun low => reach.2 (Nat.lt_trans below low)⟩

theorem frameName (alike : AlikeAbove g k s t) {id id' : FrameId} (places : g.Place id id') :
    s.frameName id = t.frameName id' := by
  unfold Session.frameName
  cases places with
  | shared low => rw [alike.common id low]
  | above i =>
      have frames := alike.frames i
      generalize s.frames[g.base.size + i]? = frame at frames ⊢
      generalize t.frames[g.base'.size + i]? = frame' at frames ⊢
      cases frames with
      | none => rfl
      | some frames => exact frames.name

end AlikeAbove

end Session

def shiftComparison (g : Ground) : Comparison where
  World := Nat
  now k s t := s.AlikeAbove g k t
  ever s t := s.SameTables t ∧ s.KeepsFrom g.shared g.base ∧ t.KeepsFrom g.shared g.base'
  fault := Eq
  name := Eq
  expr := Eq
  frame _ := g.Place
  binding f _ := g.Held f
  entered _ fr fr' := fr.Alike g fr'
  grow k _ _ := k + 1
  top k := (g.base.size + k, g.base'.size + k)
  stops := False

def shiftCorrespondence (g : Ground) : Correspondence where
  toComparison := shiftComparison g
  toSyntactic := .of_eq rfl rfl rfl rfl
  ever_of_now alike := ⟨alike.tables, alike.kept, alike.kept'⟩
  heights alike := ⟨alike.height, alike.height'⟩
  push alike tops := alike.push tops
  cut _ alike := alike.cutTo
  consoles alike := alike.tables.console
  setConsole _ alike := { alike with tables := ⟨alike.tables.globals, alike.tables.macros, rfl⟩ }
  readVariable := by
    rintro k s t n _ alike rfl
    unfold Session.readVariable
    rw [← alike.tables.globals]
    split
    · exact ⟨rfl, alike⟩
    · refine ⟨rfl, { alike with tables := ⟨?_, alike.tables.macros, alike.tables.console⟩ }⟩
      simp only [Session.setVariable, alike.tables.globals]
  setVariable := by
    rintro k s t n _ value alike rfl
    refine { alike with tables := ⟨?_, alike.tables.macros, alike.tables.console⟩ }
    simp only [Session.setVariable, alike.tables.globals]
  macros := by
    rintro k s t n _ alike rfl
    simp only [Session.macro?, alike.tables.macros]
    exact .of_mem fun _ _ => ⟨rfl, List.forall₂_same.mpr fun _ _ => rfl⟩
  defineMacro := by
    rintro k s t n _ d d' alike rfl ⟨bodies, aliases⟩
    obtain rfl := MacroDefinition.eq_of_parts bodies aliases
    refine { alike with tables := ⟨alike.tables.globals, ?_, alike.tables.console⟩ }
    simp only [Session.defineMacro, alike.tables.macros]
  hasMacro := by
    intro k s t alike
    funext name
    simp only [Session.hasMacro, alike.tables.macros]
  lookup := by
    rintro k s t _ _ n _ alike places rfl
    exact alike.lookupFolded (Text.fold n) places
  bind := by
    rintro k s t _ _ n _ b b' alike places rfl bindings
    exact alike.bind places bindings n
  frame_lt places others := places.lt_iff others
  frame_grow places := places
  frame_top {k _ _} := .above k
  entered_main := .of_closed rfl rfl rfl rfl rfl
  entered_lambda places := .of_empty rfl rfl (fun _ => .some places) rfl rfl
  entered_macro names _ := .of_closed names rfl rfl rfl rfl
  binding_value _ _ value := .value value
  binding_layer _ bindings := bindings.imp fun _ _ => And.left
  binding_top {k _ _ _ _} _ bindings := Ground.held_above k (bindings.imp fun _ _ => And.left)
  reference_top {k _ _ _ _} places exprs := Ground.held_above k (.reference exprs places)
  unknownLocal := by
    rintro k s t _ _ n _ alike places rfl
    exact congrArg (RuntimeError.unknownLocal n) (alike.frameName places)

theorem settles_shift (g : Ground) : (shiftCorrespondence g).Settles := by
  intro k id id' origin origin' e e' frames places exprs within
  refine .reference exprs ⟨places, fun low => ?_⟩
  exact Nat.lt_of_le_of_lt (Nat.le_of_not_lt within) low

theorem serves_shift (g : Ground) : (shiftCorrespondence g).Serves .standard .standard :=
  Correspondence.serves_standard (settles_shift g)

end Calculator
