import Calculator.Proofs.Arrays.Callbacks

/-!
How often a call asks for the address of an array.

The address of a pointer is an expression, and the functions on arrays evaluate it whenever they go back to
the base of the array. Some do so once. Others ask again before they write what they have read, so that an
expression with effects may lead them to another array.
-/

namespace Calculator

open Number Session

namespace Eval

variable {α β : Type} {P : Session → Prop} {x y : Nat → Eval α} {f g : Nat → α → Eval β}

structure Agree (P : Session → Prop) (x y : (fuel : Nat) → Eval α) : Prop where
  grows : Grows x
  grows' : Grows y
  ends : ∀ s, P s → ∀ result after, Ends x s result after ↔ Ends y s result after

def Stays (P : Session → Prop) (x : (fuel : Nat) → Eval α) : Prop :=
  ∀ s, P s → ∀ a after, Ends x s (.ok a) after → P after

theorem Agree.refl (grows : Grows x) : Agree P x x := ⟨grows, grows, fun _ _ _ _ => Iff.rfl⟩

theorem Agree.of_eventually (grows : Grows x) (grows' : Grows y)
    (same : ∀ s, P s → ∃ result after, Eventually x s result after ∧ Eventually y s result after) :
    Agree P x y where
  grows := grows
  grows' := grows'
  ends s holds result after := by
    obtain ⟨result', after', comes, comes'⟩ := same s holds
    constructor
    · intro ends
      obtain ⟨rfl, rfl⟩ := grows.unique comes.ends ends
      exact comes'.ends
    · intro ends
      obtain ⟨rfl, rfl⟩ := grows'.unique comes'.ends ends
      exact comes.ends

theorem Agree.andThen (first : Agree P x y) (stays : Stays P y) (next : ∀ a, Agree P (f · a) (g · a)) :
    Agree P (fun fuel => x fuel >>= f fuel) (fun fuel => y fuel >>= g fuel) where
  grows := first.grows.andThen fun a => (next a).grows
  grows' := first.grows'.andThen fun a => (next a).grows'
  ends s holds result after := by
    rw [ends_andThen_iff first.grows fun a => (next a).grows,
      ends_andThen_iff first.grows' fun a => (next a).grows']
    have starts (result : Except RuntimeError α) (mid : Session) := first.ends s holds result mid
    have goesOn (a : α) (mid : Session) (done : Ends y s (.ok a) mid) :=
      (next a).ends mid (stays s holds a mid done) result after
    constructor
    · rintro (⟨error, rfl, failed⟩ | ⟨a, mid, done, rest⟩)
      · exact .inl ⟨error, rfl, (starts _ _).mp failed⟩
      · have done' := (starts _ _).mp done
        exact .inr ⟨a, mid, done', (goesOn a mid done').mp rest⟩
    · rintro (⟨error, rfl, failed⟩ | ⟨a, mid, done, rest⟩)
      · exact .inl ⟨error, rfl, (starts _ _).mpr failed⟩
      · exact .inr ⟨a, mid, (starts _ _).mpr done, (goesOn a mid done).mpr rest⟩

theorem Agree.thenSame (first : Agree P x y) (next : ∀ a, Grows (f · a)) :
    Agree P (fun fuel => x fuel >>= f fuel) (fun fuel => y fuel >>= f fuel) where
  grows := first.grows.andThen next
  grows' := first.grows'.andThen next
  ends s holds result after := by
    have starts (result : Except RuntimeError α) (mid : Session) := first.ends s holds result mid
    simp only [ends_andThen_iff first.grows next, ends_andThen_iff first.grows' next, starts]

theorem Stays.andThen (first : Stays P x) (next : ∀ a, Stays P (f · a)) :
    Stays P fun fuel => x fuel >>= f fuel := by
  rintro s holds b after ⟨fuel, steps, finishes⟩
  rcases finishes.cases with ⟨error, same, -⟩ | ⟨a, left, mid, done, rest⟩
  · cases same
  · exact next a mid (first s holds a mid ⟨fuel, steps, done⟩) b after ⟨fuel, left, rest⟩

theorem stays_pure (a : α) : Stays P fun _ => pure a := by
  intro s holds b after ends
  obtain ⟨-, rfl⟩ := ends_pure_iff.mp ends
  exact holds

theorem stays_update {change : Session → α × Session} (closed : ∀ s, P s → P (change s).2) :
    Stays P fun _ => update change := by
  intro s holds b after ends
  obtain ⟨-, rfl⟩ := ends_update_iff.mp ends
  exact closed s holds

/-- Before anything else the evaluation asks for the address, which is what an expression comes to. Then it
goes on as it does, on its own, at the address. -/
structure Opens (setting : Setting) (frame : FrameId) (e : Expr) (s : Session) (x : (fuel : Nat) → Eval α)
    (y : Number → (fuel : Nat) → Eval α) : Prop where
  grows : Grows x
  grows' : ∀ c, Grows (y c)
  ends : ∀ result after, Ends x s result after ↔
    (∃ error, result = .error error ∧ Ends (setting.solve · e frame) s (.error error) after) ∨
      ∃ c mid, Ends (setting.solve · e frame) s (.ok c) mid ∧ Ends (y c) mid result after

variable {setting : Setting} {frame : FrameId} {e : Expr} {s : Session} {y : Number → Nat → Eval α}
  {g : Number → Nat → α → Eval β}

theorem Opens.andThen {P : Number → Session → Prop} (first : Opens setting frame e s x y)
    (entered : ∀ c mid, Ends (setting.solve · e frame) s (.ok c) mid → P c mid)
    (stays : ∀ c, Stays (P c) (y c)) (next : ∀ c a, Agree (P c) (f · a) (g c · a)) :
    Opens setting frame e s (fun fuel => x fuel >>= f fuel) (fun c fuel => y c fuel >>= g c fuel) where
  grows := first.grows.andThen fun a => (next .zero a).grows
  grows' c := (first.grows' c).andThen fun a => (next c a).grows'
  ends result after := by
    rw [ends_andThen_iff first.grows fun a => (next .zero a).grows]
    have goesOn {c : Number} {mid u : Session} {a : α} (asked : Ends (setting.solve · e frame) s (.ok c) mid)
        (done : Ends (y c) mid (.ok a) u) :=
      (next c a).ends u (stays c mid (entered c mid asked) a u done) result after
    constructor
    · rintro (⟨error, rfl, failed⟩ | ⟨a, u, done, rest⟩)
      · rcases (first.ends _ _).mp failed with ⟨error', same, failed'⟩ | ⟨c, mid, asked, failed'⟩
        · cases same
          exact .inl ⟨error, rfl, failed'⟩
        · exact .inr ⟨c, mid, asked, failed'.fault⟩
      · rcases (first.ends _ _).mp done with ⟨error, same, -⟩ | ⟨c, mid, asked, done'⟩
        · cases same
        · exact .inr ⟨c, mid, asked, done'.andThen (first.grows' c) (next c a).grows'
            ((goesOn asked done').mp rest)⟩
    · rintro (⟨error, rfl, failed⟩ | ⟨c, mid, asked, ends⟩)
      · exact .inl ⟨error, rfl, (first.ends _ _).mpr (.inl ⟨error, rfl, failed⟩)⟩
      · rcases (ends_andThen_iff (first.grows' c) fun a => (next c a).grows').mp ends with
          ⟨error, rfl, failed⟩ | ⟨a, u, done, rest⟩
        · exact .inl ⟨error, rfl, (first.ends _ _).mpr (.inr ⟨c, mid, asked, failed⟩)⟩
        · exact .inr ⟨a, u, (first.ends _ _).mpr (.inr ⟨c, mid, asked, done⟩), (goesOn asked done).mpr rest⟩

theorem Opens.of_eq {x' : Nat → Eval α} {y' : Number → Nat → Eval α} (opens : Opens setting frame e s x' y')
    (here : ∀ fuel, x fuel = x' fuel) (there : ∀ c fuel, y c fuel = y' c fuel) :
    Opens setting frame e s x y := by
  rwa [funext here, show y = y' from funext fun c => funext (there c)]

theorem Opens.thenSame (first : Opens setting frame e s x y) (next : ∀ a, Grows (f · a)) :
    Opens setting frame e s (fun fuel => x fuel >>= f fuel) (fun c fuel => y c fuel >>= f fuel) :=
  first.andThen (P := fun _ _ => True) (fun _ _ _ => trivial) (fun _ _ _ _ _ _ => trivial)
    fun _ a => .refl (next a)

end Eval

namespace CellArray

open Eval

variable {setting : Setting} {frame : FrameId} {e base base' : Expr} {s : Session} {x y : Number}
  {σ : Type} {P : Session → Prop}

theorem visit_pointer (m : Machine) (state : σ) (visitor : σ → Nat → Number → Eval (ForInStep σ)) :
    visit m (.pointer base) frame state visitor = m.solve base frame >>= fun x =>
      readVariable x.key >>= fun length =>
        visitFrom m (.pointer base) x frame visitor 0 length.toCount state := rfl

theorem add_pointer (m : Machine) (value : Number) :
    add m (.pointer base) value frame = m.solve base frame >>= fun x =>
      readVariable x.key >>= fun length =>
        setVariable x.key (length.add one) >>= fun _ =>
          setVariable (x.add (length.add one)).key value >>= fun _ => pure value := rfl

theorem clear_pointer (m : Machine) :
    allocate m (.pointer base) [] frame = m.solve base frame >>= fun x =>
      setVariable x.key (.ofNat ([] : List Number).length) >>= fun _ => pure x := rfl

theorem cell_forward (m : Machine) (forward : ¬y.less zero = true) :
    cell m (.pointer base) y frame = m.solve base frame >>= fun x => pure ((x.add y).add one) := by
  simp only [cell, if_neg forward, pure_bind]
  rfl

theorem cell_back (m : Machine) (back : y.less zero = true) :
    cell m (.pointer base) y frame = m.solve base frame >>= fun x => readVariable x.key >>= fun length =>
      m.solve base frame >>= fun x => pure ((x.add (length.add y)).add one) := by
  simp only [cell, if_pos back, length, bind_assoc, pure_bind]
  rfl

theorem stays_read (reads : ∀ t (y : Number), P t → P (t.readVariable y.key).2) (y : Number) :
    Stays P fun _ => readVariable y.key :=
  stays_update fun t holds => reads t y holds

section Visits

variable {visitor visitor' : (fuel : Nat) → σ → Nat → Number → Eval (ForInStep σ)}
  (reads : ∀ t (y : Number), P t → P (t.readVariable y.key).2)
include reads

theorem agree_visitFrom
    (visits : ∀ state index element, Agree P (visitor · state index element) (visitor' · state index element))
    (stays : ∀ state index element, Stays P (visitor' · state index element)) (index count : Nat) (state : σ) :
    Agree P
      (fun fuel => visitFrom (setting.machineAt fuel) (.pointer base) x frame (visitor fuel) index count state)
      (fun fuel =>
        visitFrom (setting.machineAt fuel) (.pointer base') x frame (visitor' fuel) index count state) := by
  induction count generalizing index state with
  | zero => exact .refl (grows_pure state)
  | succ count ih =>
      simp only [visitFrom_succ]
      refine (Agree.refl (grows_readVariable _)).andThen (stays_read reads _) fun element => ?_
      refine (visits state index element).andThen (stays state index element) fun step => ?_
      cases step with
      | done state => exact .refl (grows_pure state)
      | yield state => exact ih (index + 1) state

theorem stays_visitFrom (stays : ∀ state index element, Stays P (visitor · state index element))
    (index count : Nat) (state : σ) :
    Stays P fun fuel =>
      visitFrom (setting.machineAt fuel) (.pointer base) x frame (visitor fuel) index count state := by
  induction count generalizing index state with
  | zero => exact stays_pure state
  | succ count ih =>
      simp only [visitFrom_succ]
      refine (stays_read reads _).andThen fun element => (stays state index element).andThen fun step => ?_
      cases step with
      | done state => exact stays_pure state
      | yield state => exact ih (index + 1) state

end Visits

variable (standard : setting.registry = .standard)
include standard

theorem opens_address : Opens setting frame e s (setting.solve · e frame)
    fun c fuel => setting.solve fuel (.constant c) frame where
  grows := grows_solve standard e frame
  grows' c := grows_solve standard (.constant c) frame
  ends result after := by
    have constant (c : Number) (mid : Session) :
        Ends (setting.solve · (.constant c) frame) mid (.ok c) mid := (gives_constant c).ends
    constructor
    · intro ends
      cases result with
      | error error => exact .inl ⟨error, rfl, ends⟩
      | ok c => exact .inr ⟨c, after, ends, constant c after⟩
    · rintro (⟨error, rfl, failed⟩ | ⟨c, mid, asked, ends⟩)
      · exact failed
      · obtain ⟨rfl, rfl⟩ := (grows_solve standard _ frame).unique ends (constant c mid)
        exact asked

theorem ends_of_opens {α : Type} {op : (fuel : Nat) → Eval α} {opAt : Number → (fuel : Nat) → Eval α}
    (opens : Opens setting frame e s op opAt) (result : Except RuntimeError α) (after : Session) :
    Ends op s result after ↔
      Ends (fun fuel => setting.solve fuel e frame >>= (opAt · fuel)) s result after := by
  rw [ends_andThen_iff (grows_solve standard e frame) opens.grows']
  exact opens.ends result after

theorem stays_address (c : Number) : Stays P (setting.solve · (.constant c) frame) := by
  intro s holds a after ends
  obtain ⟨-, rfl⟩ := (grows_solve standard _ frame).unique ends (gives_constant c).ends
  exact holds

theorem stays_set {c value : Number} (forward : ¬y.less zero = true)
    (stores : ∀ t, P t → P (t.setVariable ((c.add y).add one).key value)) :
    Stays P fun fuel => set (setting.machineAt fuel) (cellAt c) y value frame := by
  intro t holds a after ends
  have grows : Grows fun fuel => set (setting.machineAt fuel) (cellAt c) y value frame :=
    grows_of_related standard fun _ _ _ _ h => h.arraySet rfl rfl y value
  obtain ⟨-, rfl⟩ := grows.unique (eventually_setForward (gives_constant c) forward value).ends ends
  exact stores t holds

theorem stays_setYield {c value : Number} (n : Nat) (forward : ¬y.less zero = true)
    (stores : ∀ t, P t → P (t.setVariable ((c.add y).add one).key value)) :
    Stays P fun fuel => set (setting.machineAt fuel) (cellAt c) y value frame >>= fun _ =>
      pure (ForInStep.yield (n + 1)) :=
  (stays_set standard forward stores).andThen fun _ => stays_pure _

section Again

variable {c : Number} (again : ∀ t, P t → setting.Gives frame t e c)
include again

theorem agree_address : Agree P (setting.solve · e frame) (setting.solve · (.constant c) frame) :=
  .of_eventually (grows_solve standard e frame) (grows_solve standard _ frame)
    fun t holds => ⟨_, _, again t holds, gives_constant c⟩

theorem agree_allocate (values : List Number) :
    Agree P (fun fuel => allocate (setting.machineAt fuel) (.pointer e) values frame)
      (fun fuel => allocate (setting.machineAt fuel) (cellAt c) values frame) :=
  .of_eventually (grows_of_related standard fun _ _ _ _ h => h.allocate rfl rfl values)
    (grows_of_related standard fun _ _ _ _ h => h.allocate rfl rfl values)
    fun t holds => ⟨_, _, eventually_allocateStored (again t holds) values,
      eventually_allocateStored (gives_constant c) values⟩

theorem agree_set (forward : ¬y.less zero = true) (value : Number) :
    Agree P (fun fuel => set (setting.machineAt fuel) (.pointer e) y value frame)
      (fun fuel => set (setting.machineAt fuel) (cellAt c) y value frame) :=
  .of_eventually (grows_of_related standard fun _ _ _ _ h => h.arraySet rfl rfl y value)
    (grows_of_related standard fun _ _ _ _ h => h.arraySet rfl rfl y value)
    fun t holds => ⟨_, _, eventually_setForward (again t holds) forward value,
      eventually_setForward (gives_constant c) forward value⟩

theorem agree_setYield (n : Nat) (forward : ¬y.less zero = true) (value : Number) :
    Agree P
      (fun fuel => set (setting.machineAt fuel) (.pointer e) y value frame >>= fun _ =>
        pure (ForInStep.yield (n + 1)))
      (fun fuel => set (setting.machineAt fuel) (cellAt c) y value frame >>= fun _ =>
        pure (ForInStep.yield (n + 1))) :=
  (agree_set standard again forward value).thenSame fun _ => grows_pure _

end Again

section Operations

variable {P : Number → Session → Prop}
  (entered : ∀ c mid, Ends (setting.solve · e frame) s (.ok c) mid → P c mid)
  (reads : ∀ c t (y : Number), P c t → P c (t.readVariable y.key).2)

section Visits

variable {visitor : (fuel : Nat) → σ → Nat → Number → Eval (ForInStep σ)}
  {visitor' : Number → (fuel : Nat) → σ → Nat → Number → Eval (ForInStep σ)}

include reads in
theorem stays_visit (stays : ∀ c state index element, Stays (P c) (visitor' c · state index element))
    (state : σ) (c : Number) :
    Stays (P c) fun fuel => visit (setting.machineAt fuel) (cellAt c) frame state (visitor' c fuel) :=
  (stays_address standard c).andThen fun _ =>
    (stays_read (reads c) _).andThen fun length => stays_visitFrom (reads c) (stays c) 0 length.toCount state

include entered reads in
theorem opens_visit
    (visits : ∀ c state index element,
      Agree (P c) (visitor · state index element) (visitor' c · state index element))
    (stays : ∀ c state index element, Stays (P c) (visitor' c · state index element)) (state : σ) :
    Opens setting frame e s
      (fun fuel => visit (setting.machineAt fuel) (.pointer e) frame state (visitor fuel))
      (fun c fuel => visit (setting.machineAt fuel) (cellAt c) frame state (visitor' c fuel)) := by
  simp only [visit_pointer, cellAt]
  refine (opens_address standard).andThen entered (fun c => stays_address standard c) fun c x => ?_
  refine (Agree.refl (grows_readVariable x.key)).andThen (stays_read (reads c) x) fun length => ?_
  exact agree_visitFrom (reads c) (visits c) (stays c) 0 length.toCount state

end Visits

theorem opens_add (value : Number) : Opens setting frame e s
    (fun fuel => add (setting.machineAt fuel) (.pointer e) value frame)
    (fun c fuel => add (setting.machineAt fuel) (cellAt c) value frame) := by
  simp only [cellAt, add_pointer]
  exact (opens_address standard).thenSame fun x => (grows_readVariable x.key).andThen fun length =>
    (grows_update _).andThen fun _ => (grows_update _).andThen fun _ => grows_pure value

theorem opens_clear : Opens setting frame e s
    (fun fuel => allocate (setting.machineAt fuel) (.pointer e) [] frame)
    (fun c fuel => allocate (setting.machineAt fuel) (cellAt c) [] frame) := by
  simp only [cellAt, clear_pointer]
  exact (opens_address standard).thenSame fun x => (grows_update _).andThen fun _ => grows_pure x

theorem opens_indexOf (value : Number) : Opens setting frame e s
    (fun fuel => indexOf? (setting.machineAt fuel) (.pointer e) value frame)
    (fun c fuel => indexOf? (setting.machineAt fuel) (cellAt c) value frame) :=
  opens_visit (P := fun _ _ => True) standard (fun _ _ _ => trivial) (fun _ _ _ _ => trivial)
    (fun _ _ _ _ => .refl (grows_pure _)) (fun _ _ _ _ => stays_pure _) none

include entered reads in
theorem opens_toList : Opens setting frame e s
    (fun fuel => toList (setting.machineAt fuel) (.pointer e) frame)
    (fun c fuel => toList (setting.machineAt fuel) (cellAt c) frame) :=
  (opens_visit standard entered reads (fun _ _ _ _ => .refl (grows_pure _)) (fun _ _ _ _ => stays_pure _)
    []).thenSame fun _ => grows_pure _

include reads in
theorem stays_toList (c : Number) :
    Stays (P c) fun fuel => toList (setting.machineAt fuel) (cellAt c) frame := by
  have visits : Stays (P c) fun fuel => visit (setting.machineAt fuel) (cellAt c) frame []
      fun elements _ element => pure (.yield (element :: elements)) :=
    @stays_visit setting frame (List Number) standard P reads
      (fun _ _ elements _ element => pure (.yield (element :: elements))) (fun _ _ _ _ => stays_pure _) [] c
  exact visits.andThen fun elements => stays_pure elements.reverse

include entered reads in
/-- Only an index that counts from the end is followed by a second question. -/
theorem opens_cell (y : Number)
    (again : y.less zero = true → ∀ c t, P c t → setting.Gives frame t e c) : Opens setting frame e s
    (fun fuel => cell (setting.machineAt fuel) (.pointer e) y frame)
    (fun c fuel => cell (setting.machineAt fuel) (cellAt c) y frame) := by
  by_cases back : y.less zero = true
  · simp only [cellAt, cell_back _ back]
    refine (opens_address standard).andThen entered (fun c => stays_address standard c) fun c x => ?_
    refine (Agree.refl (grows_readVariable x.key)).andThen (stays_read (reads c) x) fun length => ?_
    exact (agree_address standard (again back c)).thenSame fun x => grows_pure _
  · simp only [cellAt, cell_forward _ back]
    exact (opens_address standard).thenSame fun x => grows_pure ((x.add y).add one)

variable (again : ∀ c t, P c t → setting.Gives frame t e c)
include entered reads again

theorem opens_insert (y value : Number) : Opens setting frame e s
    (fun fuel => insert (setting.machineAt fuel) (.pointer e) y value frame)
    (fun c fuel => insert (setting.machineAt fuel) (cellAt c) y value frame) := by
  refine (opens_toList standard entered reads).andThen entered (stays_toList standard reads) fun c values => ?_
  dsimp only
  generalize (if y.truncate < 0 then y.truncate + values.length else y.truncate) = position
  split
  · exact (agree_allocate standard (again c) _).thenSame fun _ => grows_pure value
  · exact (agree_address standard (again c)).thenSame fun x => grows_throw _

theorem opens_remove (value : Number) : Opens setting frame e s
    (fun fuel => remove (setting.machineAt fuel) (.pointer e) value frame)
    (fun c fuel => remove (setting.machineAt fuel) (cellAt c) value frame) := by
  refine (opens_toList standard entered reads).andThen entered (stays_toList standard reads) fun c values => ?_
  cases values.findIdx? (·.equal value) with
  | none => exact .refl (grows_pure false)
  | some position => exact (agree_allocate standard (again c) _).thenSame fun _ => grows_pure true

theorem opens_setify : Opens setting frame e s
    (fun fuel => setify (setting.machineAt fuel) (.pointer e) frame)
    (fun c fuel => setify (setting.machineAt fuel) (cellAt c) frame) :=
  (opens_toList standard entered reads).andThen entered (stays_toList standard reads)
    fun c values => agree_allocate standard (again c) (distinct [] values)

theorem opens_sort : Opens setting frame e s
    (fun fuel => sort (setting.machineAt fuel) (.pointer e) frame)
    (fun c fuel => sort (setting.machineAt fuel) (cellAt c) frame) :=
  (opens_toList standard entered reads).andThen entered (stays_toList standard reads)
    fun c values => agree_allocate standard (again c) (sorted values)

end Operations

end CellArray

namespace ElementFunction

open Eval

variable {setting : Setting} {frame : FrameId} {e callee : Expr} {s : Session} {σ : Type}

theorem stays_call {P : Session → Prop}
    (calls : ∀ t u element index result, P t → CallEnds setting frame callee element index t (.ok result) u → P u)
    (element : Number) (index : Nat) : Stays P fun fuel =>
      Argument.callWithElement (setting.machineAt fuel) callee element index frame :=
  fun t holds result u ends => calls t u element index result holds ends

variable (standard : setting.registry = .standard)
include standard

section Visits

variable {P : Number → Session → Prop}
  (entered : ∀ c mid, Ends (setting.solve · e frame) s (.ok c) mid → P c mid)
  (reads : ∀ c t (y : Number), P c t → P c (t.readVariable y.key).2)
  (calls : ∀ c t u element index result, P c t →
    CallEnds setting frame callee element index t (.ok result) u → P c u)
  {visit : (fuel : Nat) → σ → Nat → Number → Number → Eval (ForInStep σ)}
  {visit' : Number → (fuel : Nat) → σ → Nat → Number → Number → Eval (ForInStep σ)}
  (stays : ∀ c state index element result, Stays (P c) (visit' c · state index element result))

omit standard in
include calls stays in
theorem stays_visitCall (c : Number) (state : σ) (index : Nat) (element : Number) :
    Stays (P c) (visitCall setting frame callee (visit' c) · state index element) :=
  (stays_call (calls c) element index).andThen fun result => stays c state index element result

include entered reads calls stays in
theorem opens_visitCall
    (visits : ∀ c state index element result,
      Agree (P c) (visit · state index element result) (visit' c · state index element result)) (state : σ) :
    Opens setting frame e s
      (fun fuel => CellArray.visit (setting.machineAt fuel) (.pointer e) frame state
        (visitCall setting frame callee visit fuel))
      (fun c fuel => CellArray.visit (setting.machineAt fuel) (cellAt c) frame state
        (visitCall setting frame callee (visit' c) fuel)) :=
  CellArray.opens_visit standard entered reads
    (fun c state index element => (Agree.refl (grows_call standard callee frame element index)).andThen
      (stays_call (calls c) element index) fun result => visits c state index element result)
    (stays_visitCall calls stays) state

end Visits

theorem opens_visitOnce (callee : Expr) (visit : σ → Nat → Number → Number → ForInStep σ) (state : σ) :
    Opens setting frame e s
      (fun fuel => CellArray.visit (setting.machineAt fuel) (.pointer e) frame state
        (visitCall setting frame callee (fun _ state index element result =>
          pure (visit state index element result)) fuel))
      (fun c fuel => CellArray.visit (setting.machineAt fuel) (cellAt c) frame state
        (visitCall setting frame callee (fun _ state index element result =>
          pure (visit state index element result)) fuel)) :=
  opens_visitCall (P := fun _ _ => True) standard (fun _ _ _ => trivial) (fun _ _ _ _ => trivial)
    (fun _ _ _ _ _ _ _ _ => trivial)
    (fun _ state index element result => stays_pure (visit state index element result))
    (fun _ state index element result => .refl (grows_pure (visit state index element result))) state

section Functions

variable (callable : callee.isCallable = true)
include callable

theorem opens_iter : Opens setting frame e s
    (fun fuel => Builtin.iter (setting.machineAt fuel) [.pointer e, callee] frame)
    (fun c fuel => Builtin.iter (setting.machineAt fuel) [cellAt c, callee] frame) :=
  ((opens_visitOnce standard callee (fun n _ _ _ => .yield (n + 1)) 0).thenSame fun n =>
    grows_pure (Number.ofNat n)).of_eq (iter_eq callable) fun _ => iter_eq callable

theorem opens_any : Opens setting frame e s
    (fun fuel => Builtin.any (setting.machineAt fuel) [.pointer e, callee] frame)
    (fun c fuel => Builtin.any (setting.machineAt fuel) [cellAt c, callee] frame) :=
  ((opens_visitOnce standard callee
    (fun _ _ _ value => if value.isTrue then .done true else .yield false) false).thenSame fun found =>
      grows_pure (Number.ofBool found)).of_eq (any_eq callable) fun _ => any_eq callable

theorem opens_count : Opens setting frame e s
    (fun fuel => Builtin.count (setting.machineAt fuel) [.pointer e, callee] frame)
    (fun c fuel => Builtin.count (setting.machineAt fuel) [cellAt c, callee] frame) :=
  ((opens_visitOnce standard callee (fun n _ _ value => .yield (if value.isTrue then n + 1 else n))
    0).thenSame fun n => grows_pure (Number.ofNat n)).of_eq (count_eq callable) fun _ => count_eq callable

variable {P : Number → Session → Prop}
  (entered : ∀ c mid, Ends (setting.solve · e frame) s (.ok c) mid → P c mid)
  (reads : ∀ c t (y : Number), P c t → P c (t.readVariable y.key).2)
  (calls : ∀ c t u element index result, P c t →
    CallEnds setting frame callee element index t (.ok result) u → P c u)
  (again : ∀ c t, P c t → setting.Gives frame t e c)
include entered reads calls again

theorem opens_filter : Opens setting frame e s
    (fun fuel => Builtin.filter (setting.machineAt fuel) [.pointer e, callee] frame)
    (fun c fuel => Builtin.filter (setting.machineAt fuel) [cellAt c, callee] frame) := by
  let keep (front : List Number) (element value : Number) : ForInStep (List Number) :=
    .yield (if value.isTrue then element :: front else front)
  have stays (c : Number) (front : List Number) (index : Nat) (element value : Number) :
      Stays (P c) fun _ => pure (keep front element value) := stays_pure _
  have visits := opens_visitCall standard entered reads calls stays
    (fun _ front _ element value => .refl (grows_pure (keep front element value))) []
  have staysVisit := @CellArray.stays_visit setting frame _ standard P reads _ (stays_visitCall calls stays) []
  refine (visits.andThen entered staysVisit fun c front => ?_).of_eq (filter_eq callable)
    fun _ => filter_eq callable
  exact (CellArray.agree_allocate standard (again c) front.reverse).thenSame fun _ => grows_pure _

theorem opens_mutate (stores : ∀ c t index result, P c t → P c (mutate.afterCall c index result t)) :
    Opens setting frame e s
      (fun fuel => Builtin.mutate (setting.machineAt fuel) [.pointer e, callee] frame)
      (fun c fuel => Builtin.mutate (setting.machineAt fuel) [cellAt c, callee] frame) :=
  ((opens_visitCall standard entered reads calls
    (fun c n index _ value => CellArray.stays_setYield standard n (CellArray.not_less_ofNat index)
      fun t holds => stores c t index value holds)
    (fun c n index _ value => CellArray.agree_setYield standard (again c) n (CellArray.not_less_ofNat index) value)
    0).thenSame fun n => grows_pure (Number.ofNat n)).of_eq (mutate_eq callable) fun _ => mutate_eq callable

end Functions

end ElementFunction

end Calculator
