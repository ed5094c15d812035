import Calculator.Proofs.Calls.Substitution
import Calculator.Proofs.Frames.Order
import Calculator.Proofs.Frames.Shift

/-! The frame of a call on top of a stack. Evaluations in the frames below do the same with it and
without it. -/

namespace Calculator

namespace Ground

def flip (g : Ground) : Ground := ⟨g.shared, g.base', g.base, g.shared_le', g.shared_le⟩

def under (s : Session) (fr : Frame) : Ground where
  shared := s.frames.size
  base := (s.push fr).frames
  base' := s.frames
  shared_le := (s.size_push fr).symm ▸ Nat.le_succ _
  shared_le' := Nat.le_refl _

def Now (g : Ground) (s t : Session) : Prop := s.AlikeAbove g 0 t

variable {g : Ground} {s t s' t' : Session} {fr : Frame}

theorem Now.flip (now : g.Now s t) : g.flip.Now t s where
  tables := ⟨now.tables.globals.symm, now.tables.macros.symm, now.tables.console.symm⟩
  kept := now.kept'
  kept' := now.kept
  height := now.height'
  height' := now.height
  common id low := (now.common id low).symm
  closed id frame low found := now.closed id frame low ((now.common id low).trans found)
  frames := Session.AlikeAbove.frames_ground now.height' now.height

theorem now_push (stacked : s.WellStacked) (fr : Frame) : (under s fr).Now (s.push fr) s where
  tables := ⟨rfl, rfl, rfl⟩
  kept _ _ _ := rfl
  kept' _ _ _ := rfl
  height := rfl
  height' := rfl
  common id low := by
    rw [Session.getElem?_push]
    exact if_neg (Nat.ne_of_lt low)
  closed id frame low found key expr origin get := by
    rw [Session.getElem?_push] at found
    replace found := (if_neg (Nat.ne_of_lt low)).symm.trans found
    exact Nat.lt_of_le_of_lt ((stacked id frame found).2 key expr origin get) low
  frames := Session.AlikeAbove.frames_ground rfl rfl

theorem Now.top (now : (under s fr).Now s' t') : s'.frames[s.frames.size]? = some fr := by
  have kept := now.kept s.frames.size (Nat.le_refl _) ((s.size_push fr).symm ▸ Nat.lt_succ_self _)
  rw [kept]
  exact (s.getElem?_push fr _).trans (if_pos rfl)

theorem Now.cutTo_eq (now : (under s fr).Now s' t') : s'.cutTo s.frames.size = t' := by
  have frames : (s'.cutTo s.frames.size).frames = t'.frames := by
    apply Array.ext_getElem?
    intro id
    rw [Session.getElem?_cutTo]
    split
    · rename_i low
      exact now.common id low
    · rename_i high
      have height : t'.frames.size = s.frames.size := now.height'
      rw [Array.getElem?_eq_none (height ▸ Nat.le_of_not_lt high)]
  obtain ⟨globals, macros, console⟩ := now.tables
  cases s'
  cases t'
  simp only [Session.cutTo, Session.mk.injEq] at *
  exact ⟨globals, macros, frames, console⟩

end Ground

/-- A name under which one of several arguments is bound by its position. -/
def Positional (count : Nat) (name : String) : Prop :=
  ∃ i < count, Text.fold name = Text.fold (Number.ofNat i).key

namespace Frame

def bind (frame : Frame) (name : String) (binding : Binding) : Frame :=
  { frame with locals := frame.locals.insert (Text.fold name) binding }

def withArguments (index : Nat) : List Binding → List String → Frame → Frame
  | [], _, frame => frame
  | binding :: bindings, [], frame =>
    (frame.bind (Number.ofNat index).key binding).withArguments (index + 1) bindings []
  | binding :: bindings, name :: aliases, frame =>
    ((frame.bind (Number.ofNat index).key binding).bind name binding).withArguments (index + 1)
      bindings aliases

theorem locals_bind_other {frame : Frame} {name other : String} (binding : Binding)
    (different : Text.fold other ≠ Text.fold name) :
    (frame.bind other binding).locals[Text.fold name]? = frame.locals[Text.fold name]? := by
  rw [bind, Std.TreeMap.getElem?_insert, if_neg]
  exact fun same => different (Std.LawfulEqCmp.eq_of_compare same)

theorem locals_bind_same {frame : Frame} {name other : String} (binding : Binding)
    (same : Text.fold other = Text.fold name) :
    (frame.bind other binding).locals[Text.fold name]? = some binding := by
  rw [bind, same, Std.TreeMap.getElem?_insert_self]

theorem bare_withArguments (index : Nat) (bindings : List Binding) (aliases : List String)
    (frame : Frame) : (frame.withArguments index bindings aliases).bare = frame.bare := by
  induction bindings generalizing index aliases frame with
  | nil => cases aliases <;> rfl
  | cons binding bindings ih => cases aliases <;> exact ih _ _ _

theorem locals_withArguments {aliases : List String} {bindings : List Binding} {name : String}
    {index : Nat} (distinct : (aliases.map Text.fold).Nodup)
    (named : ¬Positional (index + bindings.length) name) (frame : Frame) :
    (frame.withArguments index bindings aliases).locals[Text.fold name]? =
      (inPlaceOf aliases bindings name).or frame.locals[Text.fold name]? := by
  induction bindings generalizing aliases index frame with
  | nil => cases aliases <;> rfl
  | cons binding bindings ih =>
      have placed : Text.fold (Number.ofNat index).key ≠ Text.fold name :=
        fun same => named ⟨index, Nat.lt_add_of_pos_right (Nat.succ_pos _), same.symm⟩
      rw [List.length_cons, Nat.add_comm bindings.length, ← Nat.add_assoc] at named
      cases aliases with
      | nil =>
          have unnamed : ∀ values : List Binding, inPlaceOf [] values name = none :=
            inPlaceOf_none List.not_mem_nil
          rw [withArguments, ih distinct named, locals_bind_other binding placed, unnamed, unnamed]
      | cons other aliases =>
          obtain ⟨fresh, distinct⟩ := List.nodup_cons.mp distinct
          rw [withArguments, ih distinct named, inPlaceOf]
          by_cases same : Text.fold other = Text.fold name
          · rw [if_pos same, locals_bind_same binding same, inPlaceOf_none (same ▸ fresh)]
            rfl
          · rw [if_neg same, locals_bind_other binding same, locals_bind_other binding placed]

end Frame

namespace Session

theorem bind_push (s : Session) (frame : Frame) (name : String) (binding : Binding) :
    (s.push frame).bind name binding s.frames.size = s.push (frame.bind name binding) := by
  have frames : ((s.push frame).bind name binding s.frames.size).frames =
      (s.push (frame.bind name binding)).frames := by
    apply Array.ext_getElem?
    intro id
    rw [getElem?_bind, getElem?_push, getElem?_push]
    by_cases top : id = s.frames.size
    · rw [if_pos top.symm, if_pos top, if_pos top]
      rfl
    · rw [if_neg (Ne.symm top), if_neg top, if_neg top]
  exact congrArg (fun frames => { s with frames := frames }) frames

end Session

theorem surely_bindArguments (s : Session) (frame : Frame) (index : Nat) (bindings : List Binding)
    (aliases : List String) :
    (Machine.bindArguments index bindings aliases s.frames.size).Surely (s.push frame) ()
      (s.push (frame.withArguments index bindings aliases)) := by
  have bound : ∀ (frame : Frame) (name : String) (binding : Binding),
      (Eval.bind name binding s.frames.size).Surely (s.push frame) ()
        (s.push (frame.bind name binding)) := by
    intro frame name binding
    rw [← s.bind_push frame name binding]
    exact Eval.surely_update _ _
  induction bindings generalizing index aliases frame with
  | nil => exact Eval.surely_pure () _
  | cons binding bindings ih =>
      apply (bound frame _ binding).andThen
      cases aliases with
      | nil => exact ih _ _ _
      | cons name aliases => exact (bound _ name binding).andThen (ih _ _ _)

section Below

variable {g : Ground} {fault : RuntimeError → RuntimeError → Prop}
  (refl : ∀ error, fault error error)

def Ground.following (g : Ground) (refl : ∀ error, fault error error) : Eval.Congruence :=
  Eval.following fault g.Now refl

theorem Ground.follows {α β : Type} {r : α → β → Prop} {x : Eval α} {y : Eval β}
    (related : ((shiftCorrespondence g).lasting 0).Related (0 : Nat) r x y) (lasts : y.Lasts) :
    (g.following refl).Rel r x y := by
  intro s t now
  exact (related.follows lasts now).mono (fun error _ same => same ▸ refl error) fun _ _ => id

section Local

variable {setting : Setting} {now : Session → Session → Prop} {α : Type} {r : Number → α → Prop}
  {r' : α → Number → Prop} {x : Eval α} {s t : Session} {name : String} {id : FrameId}
  {binding : Binding} {n : Nat}

theorem firstTakes (found : s.lookup name id = some binding)
    (follows : Eval.Follows fault now r ((setting.machine n (setting.solve n)).resolve binding) s x t) :
    Eval.Follows fault now r ((setting.machine n (setting.solve n)).taken (.localVar name) id) s x t :=
  .afterFirst (Eval.surely_require found) follows

theorem secondTakes (found : t.lookup name id = some binding)
    (follows : Eval.Follows fault now r' x s ((setting.machine n (setting.solve n)).resolve binding) t) :
    Eval.Follows fault now r' x s ((setting.machine n (setting.solve n)).taken (.localVar name) id) t :=
  .afterSecond (Eval.surely_require found) follows

theorem firstReads (found : s.lookup name id = some binding)
    (follows : Eval.Follows fault now r ((setting.machine n (setting.solve n)).resolve binding) s x t) :
    Eval.Follows fault now r (setting.solve (n + 1) (.localVar name) id) s x t :=
  .afterFirst (Eval.surely_tick s) (firstTakes found follows)

theorem secondReads (found : t.lookup name id = some binding)
    (follows : Eval.Follows fault now r' x s ((setting.machine n (setting.solve n)).resolve binding) t) :
    Eval.Follows fault now r' x s (setting.solve (n + 1) (.localVar name) id) t :=
  .afterSecond (Eval.surely_tick t) (secondTakes found follows)

end Local

theorem Ground.simulates {setting : Setting} {reads : String → Prop}
    {replace replace' : String → Option Expr} {f f' : FrameId}
    (read : ∀ {name}, reads name → ∀ {n k}, n < k → (g.following refl).Rel Eq
      (setting.solve n ((Expr.localVar name).substitute replace) f)
      (setting.solve k ((Expr.localVar name).substitute replace') f'))
    (take : ∀ {name}, reads name → ∀ {n k}, n < k → (g.following refl).Rel Eq
      ((setting.machine n (setting.solve n)).taken ((Expr.localVar name).substitute replace) f)
      ((setting.machine k (setting.solve k)).taken ((Expr.localVar name).substitute replace') f')) :
    Expr.Simulates (g.following refl) setting reads replace replace' f f' where
  bounds le := le
  tick := g.follows refl .step (Eval.lasts_update fun s => ((), s))
  readVariable _ := g.follows refl (.readVariable rfl) (Eval.lasts_update _)
  setVariable _ value := g.follows refl (.setVariable rfl value) (Eval.lasts_update _)
  read := read
  take := take

section Solve

variable {setting : Setting} (standard : setting.registry = .standard) {n k : Nat} {id : FrameId}
include standard

theorem Ground.follows_resolve (le : n ≤ k) {binding binding' : Binding}
    (held : g.Held id binding binding') :
    (g.following refl).Rel Eq ((setting.machine n (setting.solve n)).resolve binding)
      ((setting.machine k (setting.solve k)).resolve binding') := by
  have lasts : ((setting.machine k (setting.solve k)).resolve binding').Lasts := by
    cases binding' with
    | value value => exact Eval.lasts_pure value
    | reference expr origin => exact solve_lasts standard k expr origin
  exact g.follows refl ((machines_lasting standard (settles_shift g) 0 le).resolve
    (held.imp fun _ _ => And.left)) lasts

variable {expr : Expr} (low : id < g.shared)
include low

theorem Ground.follows_solve (le : n ≤ k) :
    (g.following refl).Rel Eq (setting.solve n expr id) (setting.solve k expr id) :=
  g.follows refl ((machines_lasting standard (settles_shift g) 0 le).solve rfl (.shared low))
    (solve_lasts standard k expr id)

theorem Ground.follows_taken (le : n ≤ k) :
    (g.following refl).Rel Eq ((setting.machine n (setting.solve n)).taken expr id)
      ((setting.machine k (setting.solve k)).taken expr id) :=
  g.follows refl ((machines_lasting standard (settles_shift g) 0 le).taken rfl (.shared low))
    (taken_lasts standard k expr id)

theorem Ground.taken_follows_solve (le : n ≤ k) :
    (g.following refl).Rel Eq (setting.solve n expr id)
      ((setting.machine k (setting.solve k)).taken expr id) := by
  intro s t now
  by_cases other : ∀ name, expr ≠ .localVar name
  · rw [Machine.taken_eq _ other]
    exact g.follows_solve refl standard low le s t now
  · obtain ⟨name, same⟩ := not_forall.mp other
    obtain rfl := not_not.mp same
    cases n with
    | zero => exact .exhausted
    | succ n =>
        rw [Setting.solve_localVar]
        apply Eval.Follows.afterFirst (Eval.surely_tick s)
        exact g.follows_taken refl standard low (Nat.le_of_succ_le le) s t now

theorem Ground.solve_follows_taken (less : n < k) :
    (g.following refl).Rel Eq ((setting.machine n (setting.solve n)).taken expr id)
      (setting.solve k expr id) := by
  intro s t now
  by_cases other : ∀ name, expr ≠ .localVar name
  · rw [Machine.taken_eq _ other]
    exact g.follows_solve refl standard low (Nat.le_of_lt less) s t now
  · obtain ⟨name, same⟩ := not_forall.mp other
    obtain rfl := not_not.mp same
    obtain ⟨k, rfl⟩ := Nat.exists_eq_succ_of_ne_zero (Nat.ne_zero_of_lt less)
    rw [Nat.succ_eq_add_one, Setting.solve_localVar]
    apply Eval.Follows.afterSecond (Eval.surely_tick t)
    exact g.follows_taken refl standard low (Nat.le_of_lt_succ less) s t now

end Solve

end Below

end Calculator
