import Calculator.Eval.Assignment
import Calculator.Proofs.Correspondence

/-! Machines that evaluate alike also read, write, assign and call alike. -/

namespace Calculator

namespace Correspondence

variable {C : Correspondence} {w : C.World}

structure Machines (C : Correspondence) (m m' : Machine) : Prop where
  fuel : C.Bounds m.fuel m'.fuel
  isFunction : m.isFunction = m'.isFunction
  imply : m.imply = m'.imply
  functions : ∀ functions, C.functions = some functions → m.isFunction = functions
  solve {w e e' f f'} : C.expr e e' → C.frame w f f' → C.Related w Eq (m.solve e f) (m'.solve e' f')

inductive Referents (C : Correspondence) (w : C.World) : Session.Referent → Session.Referent → Prop
  | unbound {n n' f f'} (names : C.name n n') (frames : C.frame w f f') :
      Referents C w (.unbound n f) (.unbound n' f')
  | value {n n'} (names : C.name n n') (value : Number) :
      Referents C w (.value n value) (.value n' value)
  | expr {n n' e e' f f'} (names : C.name n n') (exprs : C.expr e e') (frames : C.frame w f f') :
      Referents C w (.expr n e f) (.expr n' e' f')

structure Pointers (C : Correspondence) (w : C.World) (p p' : Pointer) : Prop where
  store : p.store = p'.store
  base : C.expr p.base p'.base
  frame : C.frame w p.frame p'.frame

theorem follow {s t : Session} (sessions : C.now w s t) {steps steps' : Nat}
    (bounds : C.Bounds steps steps') {n n' : String} {f f' : FrameId} (names : C.name n n')
    (frames : C.frame w f f') :
    Option.Rel (C.Referents w) (s.follow? steps n f) (t.follow? steps' n' f') ∨
      C.stops ∧ s.follow? steps n f = none := by
  induction steps generalizing steps' n n' f f' with
  | zero =>
      rcases bounds with rfl | ⟨granted, _⟩
      · exact .inl .none
      · exact .inr ⟨granted, rfl⟩
  | succ steps ih =>
      obtain ⟨steps', rfl, fewer⟩ := Comparison.bounds_succ bounds
      have found := C.lookup sessions frames names
      unfold Session.follow?
      generalize s.lookup n f = b at found ⊢
      generalize t.lookup n' f' = b' at found ⊢
      cases found with
      | none => exact .inl (.some (.unbound names frames))
      | some bindings =>
          cases C.binding_layer frames bindings with
          | value value => exact .inl (.some (.value names value))
          | reference exprs targets =>
              cases C.layer exprs with
              | localVar next => exact ih fewer next targets
              | _ => exact .inl (.some (.expr names exprs targets))

theorem pointer_ofExpr {e e' : Expr} {f f' : FrameId} (exprs : C.expr e e')
    (frames : C.frame w f f') :
    Option.Rel (C.Pointers w) (Pointer.ofExpr? e f) (Pointer.ofExpr? e' f') := by
  cases C.layer exprs with
  | pointer base => exact .some ⟨rfl, base, frames⟩
  | localPointer base => exact .some ⟨rfl, base, frames⟩
  | _ => exact .none

namespace Machines

variable {m m' : Machine} (h : C.Machines m m') {f f' : FrameId}
include h

theorem resolve {b b' : Binding} (bindings : Binding.Layer C.expr (C.frame w) b b') :
    C.Related w Eq (m.resolve b) (m'.resolve b') := by
  cases bindings with
  | value value => exact .value rfl
  | reference exprs frames => exact h.solve exprs frames

theorem referent {n n' : String} (names : C.name n n') (frames : C.frame w f f') :
    C.Related w (C.Referents w) (m.referent n f) (m'.referent n' f') := by
  apply Related.read.andThen
  intro s t sessions
  have followed := follow sessions h.fuel names frames
  generalize s.follow? m.fuel n f = r at followed ⊢
  generalize t.follow? m'.fuel n' f' = r' at followed ⊢
  rcases followed with followed | ⟨granted, rfl⟩
  · cases followed with
    | none => exact .exhausted
    | some referents => exact .value referents
  · exact .stopped granted

theorem pointer {e e' : Expr} (exprs : C.expr e e') (frames : C.frame w f f') :
    C.Related w (C.Pointers w) (m.pointer e f) (m'.pointer e' f') := by
  have direct := pointer_ofExpr exprs frames
  unfold Machine.pointer
  cases C.layer exprs with
  | localVar names =>
      apply (h.referent names frames).andThen
      intro r r' referents
      cases referents with
      | unbound names frames => exact .failUnbound names frames
      | value names value => exact .fault (C.notAddressable (C.expr_localVar names))
      | expr names exprs frames =>
          have target := pointer_ofExpr exprs frames
          dsimp only
          generalize Pointer.ofExpr? _ _ = p at target ⊢
          generalize Pointer.ofExpr? _ _ = p' at target ⊢
          cases target with
          | none => exact .fault (C.notAddressable (C.expr_localVar names))
          | some pointers => exact .value pointers
  | pointer base => exact .value ⟨rfl, base, frames⟩
  | localPointer base => exact .value ⟨rfl, base, frames⟩
  | _ => exact .fault (C.notAddressable exprs)

theorem pointsToMemory {e e' : Expr} (exprs : C.expr e e') (frames : C.frame w f f') :
    C.Related w Eq (m.pointsToMemory e f) (m'.pointsToMemory e' f') := by
  unfold Machine.pointsToMemory
  cases C.layer exprs with
  | localVar names =>
      apply (h.referent names frames).andThen
      intro r r' referents
      cases referents with
      | unbound names frames => exact .value rfl
      | value names value => exact .value rfl
      | expr names exprs frames =>
          apply Related.value
          cases C.layer exprs <;> rfl
  | _ => exact .value rfl

theorem address {e e' : Expr} (exprs : C.expr e e') (frames : C.frame w f f') :
    C.Related w Eq (m.address e f) (m'.address e' f') :=
  (h.pointer exprs frames).andThen fun _ _ pointers => h.solve pointers.base pointers.frame

theorem readCell {e e' : Expr} (address : Number) (exprs : C.expr e e')
    (frames : C.frame w f f') :
    C.Related w Eq (m.readCell e address f) (m'.readCell e' address f') := by
  apply (h.pointer exprs frames).andThen
  intro p p' pointers
  rw [← pointers.store]
  cases p.store with
  | global => exact .readVariable (C.name_refl _)
  | frame =>
      apply Related.read.andThen
      intro s t sessions
      have found := C.lookup sessions pointers.frame (C.name_refl address.key)
      generalize s.lookup _ _ = b at found ⊢
      generalize t.lookup _ _ = b' at found ⊢
      cases found with
      | none => exact .value rfl
      | some bindings => exact h.resolve (C.binding_layer pointers.frame bindings)

theorem writeCell {e e' : Expr} (address value : Number) (exprs : C.expr e e')
    (frames : C.frame w f f') :
    C.Related w Eq (m.writeCell e address value f) (m'.writeCell e' address value f') := by
  apply (h.pointer exprs frames).andThen
  intro p p' pointers
  rw [← pointers.store]
  cases p.store with
  | global => exact .setVariable (C.name_refl _) value
  | frame => exact .bind (C.name_refl _) (C.binding_value _ _ value) pointers.frame

end Machines

end Correspondence

end Calculator
