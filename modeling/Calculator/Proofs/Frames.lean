import Calculator.Session
import Mathlib.Data.Option.Defs

/-! The stack of frames under the operations of a session. -/

namespace Option.Rel

variable {α β : Type} {R S : α → β → Prop} {x : Option α} {y : Option β}

theorem imp (related : Option.Rel R x y) (weaker : ∀ a b, R a b → S a b) : Option.Rel S x y := by
  cases related with
  | none => exact .none
  | some holds => exact .some (weaker _ _ holds)

theorem of_mem {R : α → α → Prop} (holds : ∀ a, x = Option.some a → R a a) : Option.Rel R x x := by
  cases x with
  | none => exact .none
  | some a => exact .some (holds a rfl)

theorem eq {x y : Option α} (related : Option.Rel Eq x y) : x = y := by
  cases related with
  | none => rfl
  | some same => rw [same]

end Option.Rel

namespace Calculator

/-- A frame without its locals: what is fixed when it is entered. -/
def Frame.bare (frame : Frame) : Frame := { frame with locals := ∅ }

namespace Session

variable (s : Session)

def skeleton : List Frame := s.frames.toList.map Frame.bare

theorem length_skeleton : s.skeleton.length = s.frames.size := by
  rw [skeleton, List.length_map, Array.length_toList]

theorem size_push (frame : Frame) : (s.push frame).frames.size = s.frames.size + 1 :=
  Array.size_push ..

theorem size_cutTo (height : Nat) : (s.cutTo height).frames.size = min height s.frames.size :=
  Array.size_shrink ..

theorem size_bind (name : String) (binding : Binding) (id : FrameId) :
    (s.bind name binding id).frames.size = s.frames.size :=
  Array.size_modify ..

theorem getElem?_push (frame : Frame) (id : FrameId) :
    (s.push frame).frames[id]? = if id = s.frames.size then some frame else s.frames[id]? :=
  Array.getElem?_push

theorem getElem?_cutTo (height : Nat) (id : FrameId) :
    (s.cutTo height).frames[id]? = if id < height then s.frames[id]? else none := by
  rw [cutTo, ← Array.getElem?_toList, Array.toList_shrink, List.getElem?_take,
    Array.getElem?_toList]

theorem cutTo_push (fr : Frame) : (s.push fr).cutTo s.frames.size = s := by
  have frames : (s.frames.push fr).shrink s.frames.size = s.frames := by simp
  simp only [cutTo, push, frames]

theorem getElem?_bind (name : String) (binding : Binding) (target id : FrameId) :
    (s.bind name binding target).frames[id]? =
      if target = id then s.frames[id]?.map fun frame =>
        { frame with locals := frame.locals.insert (Text.fold name) binding }
      else s.frames[id]? :=
  Array.getElem?_modify

theorem skeleton_push (frame : Frame) :
    (s.push frame).skeleton = s.skeleton ++ [frame.bare] := by
  simp [skeleton, push]

theorem skeleton_cutTo (height : Nat) : (s.cutTo height).skeleton = s.skeleton.take height := by
  simp [skeleton, cutTo]

theorem skeleton_bind (name : String) (binding : Binding) (id : FrameId) :
    (s.bind name binding id).skeleton = s.skeleton := by
  apply List.ext_getElem?
  intro i
  simp only [skeleton, List.getElem?_map, Array.getElem?_toList, getElem?_bind]
  split
  · cases s.frames[i]? with
    | none => rfl
    | some frame => rfl
  · rfl

theorem frames_readVariable (name : String) : (s.readVariable name).2.frames = s.frames := by
  unfold readVariable
  split
  · rfl
  · rfl

variable {s}

theorem lookup_here {s : Session} {id : FrameId} {frame : Frame} {name : String} {binding : Binding}
    (here : s.frames[id]? = some frame) (bound : frame.locals[Text.fold name]? = some binding) :
    s.lookup name id = some binding := by
  rw [lookup, lookupFolded, here]
  dsimp only
  rw [bound]

section Lookup

variable {frames frames' : Array Frame} {folded : String} {id id' : FrameId}

theorem exists_of_lookupFolded {binding : Binding} (found : lookupFolded frames folded id = some binding) :
    ∃ holder frame, holder ≤ id ∧ frames[holder]? = some frame ∧ frame.locals[folded]? = some binding := by
  fun_induction lookupFolded frames folded id with
  | case1 => cases found
  | case2 id frame top stored bound =>
      cases found
      exact ⟨id, frame, Nat.le_refl id, top, bound⟩
  | case3 id frame top free parent link captures below ih =>
      obtain ⟨holder, entry, lower, there, bound⟩ := ih found
      exact ⟨holder, entry, Nat.le_trans lower (Nat.le_of_lt below), there, bound⟩
  | case4 => cases found
  | case5 => cases found

/-- Two frames that a search for a local takes alike: it stops at bindings that belong together, or goes on
to parents that do, if to any. -/
structure SearchedAlike (P : FrameId → FrameId → Prop) (R : Binding → Binding → Prop) (folded : String)
    (id id' : FrameId) (frame frame' : Frame) : Prop where
  locals : Option.Rel R frame.locals[folded]? frame'.locals[folded]?
  captures : frame.captures = frame'.captures
  parent : frame.captures = true →
    Option.Rel (fun parent parent' => (parent < id ↔ parent' < id') ∧ (parent < id → P parent parent'))
      frame.parent frame'.parent

theorem lookupFolded_rel {P : FrameId → FrameId → Prop} {R : FrameId → Binding → Binding → Prop}
    (searched : ∀ id id', P id id' →
      Option.Rel (SearchedAlike P (R id) folded id id') frames[id]? frames'[id']?)
    (lift : ∀ parent id b b', parent < id → R parent b b' → R id b b') (places : P id id') :
    Option.Rel (R id) (lookupFolded frames folded id) (lookupFolded frames' folded id') := by
  induction id using Nat.strongRecOn generalizing id' with
  | ind id ih =>
      have here := searched id id' places
      unfold lookupFolded
      generalize frames[id]? = top at here ⊢
      generalize frames'[id']? = top' at here ⊢
      cases here with
      | none => exact .none
      | @some frame frame' alike =>
          obtain ⟨locals, captures, parents⟩ := alike
          dsimp only
          generalize frame.locals[folded]? = bound at locals ⊢
          generalize frame'.locals[folded]? = bound' at locals ⊢
          cases locals with
          | some bindings => exact .some bindings
          | none =>
              dsimp only
              rw [← captures]
              cases goesOn : frame.captures with
              | false => exact .none
              | true =>
                  replace parents := parents goesOn
                  generalize frame.parent = next at parents ⊢
                  generalize frame'.parent = next' at parents ⊢
                  cases parents with
                  | none => exact .none
                  | @some parent parent' belong =>
                      obtain ⟨order, places⟩ := belong
                      dsimp only
                      by_cases below : parent < id
                      · rw [if_pos below, if_pos (order.mp below)]
                        exact (ih parent below (places below)).imp fun b b' => lift parent id b b' below
                      · rw [if_neg below, if_neg fun below' => below (order.mpr below')]
                        exact .none

end Lookup

end Session

end Calculator
