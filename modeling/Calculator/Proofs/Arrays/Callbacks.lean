import Calculator.Proofs.Arrays.Values
import Calculator.Proofs.Ends
import Calculator.Proofs.Frames.Deep
import Calculator.Proofs.Number.Rounding

/-!
Functions that call a callable for the elements of an array.

The callable may do anything, also with the array itself. The number of elements is read once, before the
first call, and each element right before its call.
-/

namespace Calculator

open Number Session

theorem Eval.ends_readVariable (s : Session) (name : String) :
    Ends (fun _ => readVariable name) s (.ok (s.valueOf name)) (s.readVariable name).2 := by
  rw [← Session.readVariable_value]
  exact ends_update_iff.mpr ⟨rfl, rfl⟩

namespace CellArray

variable {setting : Setting} {frame : FrameId} {base : Expr} {x : Number} {σ : Type}
  {visitor : (fuel : Nat) → σ → Nat → Number → Eval (ForInStep σ)}

theorem grows_afterVisit {index count : Nat}
    (others : ∀ state, Eval.Grows fun fuel =>
      visitFrom (setting.machineAt fuel) (.pointer base) x frame (visitor fuel) index count state)
    (step : ForInStep σ) :
    Eval.Grows fun fuel => afterVisit (setting.machineAt fuel) base x frame (visitor fuel) index count step := by
  cases step with
  | done state => exact Eval.grows_pure state
  | yield state => exact others state

theorem grows_visitFrom (grows : ∀ state index element, Eval.Grows (visitor · state index element))
    (index count : Nat) (state : σ) :
    Eval.Grows fun fuel =>
      visitFrom (setting.machineAt fuel) (.pointer base) x frame (visitor fuel) index count state := by
  induction count generalizing index state with
  | zero => exact Eval.grows_pure state
  | succ count ih =>
      simp only [visitFrom_succ]
      exact (Eval.grows_readVariable _).andThen fun element =>
        (grows state index element).andThen (grows_afterVisit (ih (index + 1)))

end CellArray

def CallEnds (setting : Setting) (frame : FrameId) (callee : Expr) (element : Number) (index : Nat)
    (s : Session) (result : Except RuntimeError Number) (after : Session) : Prop :=
  Eval.Ends (fun fuel => Argument.callWithElement (setting.machineAt fuel) callee element index frame) s
    result after

inductive ElementFunction where
  | iter
  | mutate
  | filter
  | any
  | count

namespace ElementFunction

def name : ElementFunction → String
  | iter => "iter"
  | mutate => "mut"
  | filter => "filter"
  | any => "any"
  | count => "count"

def handler : ElementFunction → Handler
  | iter => Builtin.iter
  | mutate => Builtin.mutate
  | filter => Builtin.filter
  | any => Builtin.any
  | count => Builtin.count

def stops (f : ElementFunction) (result : Number) : Bool :=
  match f with
  | any => result.isTrue
  | _ => false

/-- What the function does right after a call. The sum that `mut` writes to is not the one that is read. -/
def afterCall (f : ElementFunction) (x : Number) (index : Nat) (result : Number) (s : Session) : Session :=
  match f with
  | mutate => s.setVariable ((x.add (.ofNat index)).add .one).key result
  | _ => s

def kept (calls : List (Number × Number)) : List Number :=
  (calls.filter (·.2.isTrue)).map Prod.fst

def afterCalls (f : ElementFunction) (x : Number) (calls : List (Number × Number)) (s : Session) : Session :=
  match f with
  | filter => s.stored x (kept calls)
  | _ => s

def value (f : ElementFunction) (calls : List (Number × Number)) : Number :=
  match f with
  | iter | mutate => .ofNat calls.length
  | filter | count => .ofNat (kept calls).length
  | any => .ofBool (calls.any (·.2.isTrue))

def outcome (f : ElementFunction) (x : Number) (calls : List (Number × Number))
    (ending : Except RuntimeError Unit) (s : Session) : Except RuntimeError Number × Session :=
  match ending with
  | .ok () => (.ok (f.value calls), f.afterCalls x calls s)
  | .error error => (.error error, s)

/-- The calls that the function makes for so many elements from an index on, one after the other, whether
they end with an error, and the session after them. Each call receives what is in the cell of the element
when its turn comes. -/
inductive Calls (f : ElementFunction) (setting : Setting) (frame : FrameId) (callee : Expr) (x : Number) :
    (index count : Nat) → Session → List (Number × Number) → Except RuntimeError Unit → Session → Prop
  | done {index : Nat} {s : Session} : Calls f setting frame callee x index 0 s [] (.ok ()) s
  | failed {index count : Nat} {s t : Session} {error : RuntimeError}
      (called : CallEnds setting frame callee (s.valueOf (elementKey x index)) index
        (s.readVariable (elementKey x index)).2 (.error error) t) :
      Calls f setting frame callee x index (count + 1) s [] (.error error) t
  | stopped {index count : Nat} {s t : Session} {result : Number}
      (called : CallEnds setting frame callee (s.valueOf (elementKey x index)) index
        (s.readVariable (elementKey x index)).2 (.ok result) t)
      (stops : f.stops result = true) :
      Calls f setting frame callee x index (count + 1) s [(s.valueOf (elementKey x index), result)] (.ok ())
        (f.afterCall x index result t)
  | next {index count : Nat} {s t u : Session} {result : Number} {calls : List (Number × Number)}
      {ending : Except RuntimeError Unit}
      (called : CallEnds setting frame callee (s.valueOf (elementKey x index)) index
        (s.readVariable (elementKey x index)).2 (.ok result) t)
      (goesOn : f.stops result = false)
      (others : Calls f setting frame callee x (index + 1) count (f.afterCall x index result t) calls ending u) :
      Calls f setting frame callee x index (count + 1) s
        ((s.valueOf (elementKey x index), result) :: calls) ending u

def Comes (f : ElementFunction) (setting : Setting) (frame : FrameId) (callee : Expr) (x : Number) (s : Session)
    (result : Except RuntimeError Number) (after : Session) : Prop :=
  ∃ calls ending t, f.Calls setting frame callee x 0 (s.count x) (s.readVariable x.key).2 calls ending t ∧
    (result, after) = f.outcome x calls ending t

/-- How the calls may end: all are made, or one is the last because of its value, or one fails. -/
def Counted (f : ElementFunction) (count : Nat) (calls : List (Number × Number))
    (ending : Except RuntimeError Unit) : Prop :=
  ending = .ok () ∧ calls.length = count ∧ (∀ call ∈ calls, f.stops call.2 = false) ∨
    (∃ earlier last, calls = earlier ++ [last] ∧ ending = .ok () ∧ calls.length ≤ count ∧
      f.stops last.2 = true ∧ ∀ call ∈ earlier, f.stops call.2 = false) ∨
    ∃ error, ending = .error error ∧ calls.length < count ∧ ∀ call ∈ calls, f.stops call.2 = false

variable {f : ElementFunction} {setting : Setting} {frame : FrameId} {callee : Expr} {x : Number}
  {index count : Nat} {s t after : Session} {calls : List (Number × Number)}
  {ending : Except RuntimeError Unit}

theorem Calls.counted (made : f.Calls setting frame callee x index count s calls ending t) :
    f.Counted count calls ending := by
  induction made with
  | done => exact .inl ⟨rfl, rfl, List.forall_mem_nil _⟩
  | failed => exact .inr (.inr ⟨_, rfl, Nat.succ_pos _, List.forall_mem_nil _⟩)
  | stopped _ stops =>
      exact .inr (.inl ⟨[], _, rfl, rfl, Nat.succ_le_succ (Nat.zero_le _), stops, List.forall_mem_nil _⟩)
  | next _ goesOn _ ih =>
      rcases ih with ⟨same, length, others⟩ | ⟨earlier, last, rfl, same, length, stops, others⟩ |
        ⟨error, same, length, others⟩
      · exact .inl ⟨same, congrArg Nat.succ length, List.forall_mem_cons.mpr ⟨goesOn, others⟩⟩
      · exact .inr (.inl ⟨_ :: earlier, last, rfl, same, Nat.succ_le_succ length, stops,
          List.forall_mem_cons.mpr ⟨goesOn, others⟩⟩)
      · exact .inr (.inr ⟨error, same, Nat.succ_lt_succ length,
          List.forall_mem_cons.mpr ⟨goesOn, others⟩⟩)

theorem Calls.complete (succeeds : ∀ element index t, ∃ result u,
    CallEnds setting frame callee element index t (.ok result) u) (index count : Nat) (s : Session) :
    ∃ calls t, f.Calls setting frame callee x index count s calls (.ok ()) t := by
  induction count generalizing index s with
  | zero => exact ⟨[], s, .done⟩
  | succ count ih =>
      obtain ⟨result, t, called⟩ := succeeds (s.valueOf (elementKey x index)) index
        (s.readVariable (elementKey x index)).2
      cases stops : f.stops result with
      | true => exact ⟨_, _, .stopped called stops⟩
      | false =>
          obtain ⟨calls, u, others⟩ := ih (index + 1) (f.afterCall x index result t)
          exact ⟨_, u, .next called stops others⟩

section Loop

variable {σ : Type}

def visitCall (setting : Setting) (frame : FrameId) (callee : Expr)
    (visit : (fuel : Nat) → σ → Nat → Number → Number → Eval (ForInStep σ)) (fuel : Nat) (state : σ)
    (index : Nat) (element : Number) : Eval (ForInStep σ) := do
  let result ← Argument.callWithElement (setting.machineAt fuel) callee element index frame
  visit fuel state index element result

variable {base : Expr} {visit : (fuel : Nat) → σ → Nat → Number → Number → Eval (ForInStep σ)}

def loop (setting : Setting) (frame : FrameId) (callee base : Expr) (x : Number)
    (visit : (fuel : Nat) → σ → Nat → Number → Number → Eval (ForInStep σ)) (index count : Nat) (state : σ)
    (fuel : Nat) : Eval σ :=
  CellArray.visitFrom (setting.machineAt fuel) (.pointer base) x frame
    (visitCall setting frame callee visit fuel) index count state

def afterElement (setting : Setting) (frame : FrameId) (callee base : Expr) (x : Number)
    (visit : (fuel : Nat) → σ → Nat → Number → Number → Eval (ForInStep σ)) (index count : Nat)
    (fuel : Nat) : ForInStep σ → Eval σ :=
  CellArray.afterVisit (setting.machineAt fuel) base x frame (visitCall setting frame callee visit fuel)
    index count

theorem loop_succ (index count : Nat) (state : σ) :
    loop setting frame callee base x visit index (count + 1) state = fun fuel =>
      Eval.readVariable (elementKey x index) >>= fun element =>
        Argument.callWithElement (setting.machineAt fuel) callee element index frame >>= fun result =>
          visit fuel state index element result >>=
            afterElement setting frame callee base x visit (index + 1) count fuel := by
  funext fuel
  rw [loop, CellArray.visitFrom_succ]
  simp only [visitCall, bind_assoc, afterElement]

variable (standard : setting.registry = .standard)
include standard

theorem grows_call (callee : Expr) (frame : FrameId) (element : Number) (index : Nat) :
    Eval.Grows fun fuel =>
      Argument.callWithElement (setting.machineAt fuel) callee element index frame :=
  grows_of_related standard fun _ _ _ _ h => h.callWithElement rfl element index rfl

variable (grows : ∀ state index element result, Eval.Grows (visit · state index element result))
include grows

theorem grows_visitCall (frame : FrameId) (callee : Expr) (state : σ) (index : Nat) (element : Number) :
    Eval.Grows (visitCall setting frame callee visit · state index element) :=
  (grows_call standard callee frame element index).andThen fun result => grows state index element result

theorem grows_loop (frame : FrameId) (callee base : Expr) (x : Number) (index count : Nat) (state : σ) :
    Eval.Grows (loop setting frame callee base x visit index count state) :=
  CellArray.grows_visitFrom (grows_visitCall standard grows frame callee) index count state

theorem grows_visit (frame : FrameId) (callee base : Expr) (state : σ) : Eval.Grows fun fuel =>
    CellArray.visit (setting.machineAt fuel) (.pointer base) frame state
      (visitCall setting frame callee visit fuel) :=
  (grows_solve standard base frame).andThen fun x =>
    (Eval.grows_readVariable x.key).andThen fun length =>
      grows_loop standard grows frame callee base x 0 length.toCount state

theorem ends_visit_iff (state : σ) (s after : Session) (result : Except RuntimeError σ) :
    Eval.Ends (fun fuel => CellArray.visit (setting.machineAt fuel) (cellAt x) frame state
        (visitCall setting frame callee visit fuel)) s result after ↔
      Eval.Ends (loop setting frame callee (.constant x) x visit 0 (s.count x) state)
        (s.readVariable x.key).2 result after := by
  have loops (length : Number) :=
    grows_loop standard grows frame callee (.constant x) x 0 length.toCount state
  have given : setting.Gives frame s (.constant x) x := gives_constant x
  exact (given.ends.andThen_iff (grows_solve standard _ _)
      ((Eval.grows_readVariable x.key).andThen loops)).trans
    ((Eval.ends_readVariable s x.key).andThen_iff (Eval.grows_readVariable x.key) (loops _))

variable (next : σ → Number → Number → σ)
  (visits : ∀ state index element result t,
    Eval.Ends (visit · state index element result) t
      (.ok (if f.stops result then .done (next state element result)
        else .yield (next state element result))) (f.afterCall x index result t))
include visits

theorem ends_loop_succ_iff (index count : Nat) (state : σ) (s after : Session)
    (result : Except RuntimeError σ) :
    Eval.Ends (loop setting frame callee base x visit index (count + 1) state) s result after ↔
      (∃ error, result = .error error ∧
        CallEnds setting frame callee (s.valueOf (elementKey x index)) index
          (s.readVariable (elementKey x index)).2 (.error error) after) ∨
      ∃ value t, CallEnds setting frame callee (s.valueOf (elementKey x index)) index
          (s.readVariable (elementKey x index)).2 (.ok value) t ∧
        Eval.Ends (afterElement setting frame callee base x visit (index + 1) count ·
          (if f.stops value then .done (next state (s.valueOf (elementKey x index)) value)
            else .yield (next state (s.valueOf (elementKey x index)) value)))
          (f.afterCall x index value t) result after := by
  have others (step : ForInStep σ) : Eval.Grows
      (afterElement setting frame callee base x visit (index + 1) count · step) :=
    CellArray.grows_afterVisit
      (fun state => grows_loop standard grows frame callee base x (index + 1) count state) step
  have called (element : Number) := grows_call standard callee frame element index
  have read := Eval.ends_readVariable s (elementKey x index)
  rw [loop_succ, Eval.Ends.andThen_iff (Eval.grows_readVariable _) ((called _).andThen fun value =>
    (grows state index _ value).andThen others) read,
    Eval.ends_andThen_iff (called _) fun value => (grows state index _ value).andThen others]
  refine or_congr Iff.rfl (exists_congr fun value => exists_congr fun t => and_congr_right fun _ => ?_)
  exact Eval.Ends.andThen_iff (grows state index _ value) (others _) (visits state index _ value t)

theorem ends_loop_iff (index count : Nat) (state : σ) (s after : Session) (result : Except RuntimeError σ) :
    Eval.Ends (loop setting frame callee base x visit index count state) s result after ↔
      ∃ calls ending, f.Calls setting frame callee x index count s calls ending after ∧
        result = ending.map fun _ => calls.foldl (fun state call => next state call.1 call.2) state := by
  induction count generalizing index state s with
  | zero =>
      rw [show loop setting frame callee base x visit index 0 state = fun _ => pure state from rfl,
        Eval.ends_pure_iff]
      constructor
      · rintro ⟨rfl, rfl⟩
        exact ⟨[], .ok (), .done, rfl⟩
      · rintro ⟨calls, ending, ⟨⟩, rfl⟩
        exact ⟨rfl, rfl⟩
  | succ count ih =>
      rw [ends_loop_succ_iff standard grows next visits]
      constructor
      · rintro (⟨error, rfl, failed⟩ | ⟨value, t, called, ends⟩)
        · exact ⟨[], .error error, .failed failed, rfl⟩
        · cases stops : f.stops value with
          | true =>
              rw [stops, if_pos rfl] at ends
              obtain ⟨rfl, rfl⟩ := Eval.ends_pure_iff.mp ends
              exact ⟨_, .ok (), .stopped called stops, rfl⟩
          | false =>
              rw [stops, if_neg Bool.false_ne_true] at ends
              obtain ⟨calls, ending, made, rfl⟩ := (ih (index + 1) _ _).mp ends
              exact ⟨_, ending, .next called stops made, rfl⟩
      · rintro ⟨calls, ending, made, rfl⟩
        cases made with
        | failed called => exact .inl ⟨_, rfl, called⟩
        | stopped called stops =>
            refine .inr ⟨_, _, called, ?_⟩
            rw [if_pos stops]
            exact Eval.ends_pure_iff.mpr ⟨rfl, rfl⟩
        | next called goesOn made =>
            refine .inr ⟨_, _, called, ?_⟩
            rw [if_neg (by rw [goesOn]; exact Bool.false_ne_true)]
            exact (ih (index + 1) _ _).mpr ⟨_, _, made, rfl⟩

theorem ends_visited_iff {start : σ} {finish : (fuel : Nat) → σ → Eval Number}
    (growsFinish : ∀ state, Eval.Grows (finish · state))
    (finishes : ∀ calls t,
      f.Calls setting frame callee x 0 (s.count x) (s.readVariable x.key).2 calls (.ok ()) t →
        Eval.Ends (finish · (calls.foldl (fun state call => next state call.1 call.2) start)) t
          (.ok (f.value calls)) (f.afterCalls x calls t))
    (result : Except RuntimeError Number) (after : Session) :
    Eval.Ends (fun fuel => CellArray.visit (setting.machineAt fuel) (cellAt x) frame start
        (visitCall setting frame callee visit fuel) >>= finish fuel) s result after ↔
      f.Comes setting frame callee x s result after := by
  have loops (result : Except RuntimeError σ) (after : Session) :=
    (@ends_visit_iff setting frame callee x σ visit standard grows start s after result).trans
      (ends_loop_iff standard grows next visits 0 (s.count x) start (s.readVariable x.key).2 after result)
  rw [Eval.ends_andThen_iff (grows_visit standard grows frame callee (.constant x) start) growsFinish]
  simp only [loops]
  constructor
  · rintro (⟨error, rfl, calls, ending, made, same⟩ | ⟨state, t, ⟨calls, ending, made, same⟩, ends⟩)
    · cases ending with
      | ok => cases same
      | error error' =>
          cases same
          exact ⟨calls, _, after, made, rfl⟩
    · cases ending with
      | error => cases same
      | ok =>
          cases same
          obtain ⟨rfl, rfl⟩ := (growsFinish _).unique ends (finishes calls t made)
          exact ⟨calls, _, t, made, rfl⟩
  · rintro ⟨calls, ending, t, made, same⟩
    cases ending with
    | error error =>
        cases same
        exact .inl ⟨error, rfl, calls, _, made, rfl⟩
    | ok =>
        cases same
        exact .inr ⟨_, t, ⟨calls, _, made, rfl⟩, finishes calls t made⟩

end Loop

theorem visitCalls_bind {base : Expr} {σ α : Type} (callable : callee.isCallable = true) (name : String)
    (start : σ) (visit : (fuel : Nat) → Expr → σ → Nat → Number → Number → Eval (ForInStep σ))
    (goOn : Expr × σ → Eval α) (fuel : Nat) :
    Builtin.visitCalls name start (visit fuel) (setting.machineAt fuel) [.pointer base, callee] frame >>= goOn =
      CellArray.visit (setting.machineAt fuel) (.pointer base) frame start
        (visitCall setting frame callee (visit · (.pointer base)) fuel) >>= fun state =>
          goOn (.pointer base, state) := by
  have asked : Argument.callable name [.pointer base, callee] 1 = pure callee := if_pos callable
  have pointer : Argument.pointer name [.pointer base, callee] 0 = pure (.pointer base) := rfl
  simp only [Builtin.visitCalls, asked, pointer, pure_bind, bind_assoc]
  rfl

section Equations

variable {base : Expr} (callable : callee.isCallable = true) (fuel : Nat)
include callable

theorem iter_eq :
    Builtin.iter (setting.machineAt fuel) [.pointer base, callee] frame =
      CellArray.visit (setting.machineAt fuel) (.pointer base) frame 0
        (visitCall setting frame callee (fun _ n _ _ _ => pure (.yield (n + 1))) fuel) >>= fun n =>
          pure (.ofNat n) :=
  @visitCalls_bind setting frame callee base Nat Number callable "iter" 0
    (fun _ _ n _ _ _ => pure (.yield (n + 1)))
    (fun p : Expr × Nat => pure (.ofNat p.2)) fuel

theorem mutate_eq :
    Builtin.mutate (setting.machineAt fuel) [.pointer base, callee] frame =
      CellArray.visit (setting.machineAt fuel) (.pointer base) frame 0
        (visitCall setting frame callee (fun fuel n index _ value =>
          CellArray.set (setting.machineAt fuel) (.pointer base) (.ofNat index) value frame >>= fun _ =>
            pure (.yield (n + 1))) fuel) >>= fun n => pure (.ofNat n) :=
  @visitCalls_bind setting frame callee base Nat Number callable "mut" 0 (fun fuel pointer n index _ value =>
    CellArray.set (setting.machineAt fuel) pointer (.ofNat index) value frame >>= fun _ =>
      pure (.yield (n + 1))) (fun p : Expr × Nat => pure (.ofNat p.2)) fuel

theorem filter_eq :
    Builtin.filter (setting.machineAt fuel) [.pointer base, callee] frame =
      CellArray.visit (setting.machineAt fuel) (.pointer base) frame []
        (visitCall setting frame callee (fun _ front _ element value =>
          pure (.yield (if value.isTrue then element :: front else front))) fuel) >>= fun front =>
        CellArray.allocate (setting.machineAt fuel) (.pointer base) front.reverse frame >>= fun _ =>
          pure (.ofNat front.length) :=
  @visitCalls_bind setting frame callee base (List Number) Number callable "filter" []
    (fun _ _ front _ element value => pure (.yield (if value.isTrue then element :: front else front)))
    (fun p : Expr × List Number =>
      CellArray.allocate (setting.machineAt fuel) p.1 p.2.reverse frame >>= fun _ => pure (.ofNat p.2.length))
    fuel

theorem any_eq :
    Builtin.any (setting.machineAt fuel) [.pointer base, callee] frame =
      CellArray.visit (setting.machineAt fuel) (.pointer base) frame false
        (visitCall setting frame callee (fun _ _ _ _ value =>
          pure (if value.isTrue then .done true else .yield false)) fuel) >>= fun found =>
        pure (.ofBool found) :=
  @visitCalls_bind setting frame callee base Bool Number callable "any" false
    (fun _ _ _ _ _ value => pure (if value.isTrue then .done true else .yield false))
    (fun p : Expr × Bool => pure (.ofBool p.2)) fuel

theorem count_eq :
    Builtin.count (setting.machineAt fuel) [.pointer base, callee] frame =
      CellArray.visit (setting.machineAt fuel) (.pointer base) frame 0
        (visitCall setting frame callee (fun _ n _ _ value =>
          pure (.yield (if value.isTrue then n + 1 else n))) fuel) >>= fun n => pure (.ofNat n) :=
  @visitCalls_bind setting frame callee base Nat Number callable "count" 0
    (fun _ _ n _ _ value => pure (.yield (if value.isTrue then n + 1 else n)))
    (fun p : Expr × Nat => pure (.ofNat p.2)) fuel

end Equations

theorem kept_cons (call : Number × Number) (calls : List (Number × Number)) :
    kept (call :: calls) = if call.2.isTrue then call.1 :: kept calls else kept calls := by
  rw [kept, List.filter_cons]
  split
  · rfl
  · rfl

theorem foldl_length (calls : List (Number × Number)) (n : Nat) :
    calls.foldl (fun n _ => n + 1) n = n + calls.length := by
  induction calls generalizing n with
  | nil => rfl
  | cons call calls ih => rw [List.foldl_cons, ih, List.length_cons, Nat.add_right_comm, Nat.add_assoc]

theorem foldl_kept (calls : List (Number × Number)) (front : List Number) :
    calls.foldl (fun front call => if call.2.isTrue then call.1 :: front else front) front =
      (kept calls).reverse ++ front := by
  induction calls generalizing front with
  | nil => rfl
  | cons call calls ih =>
      rw [List.foldl_cons, ih, kept_cons]
      split
      · rw [List.reverse_cons, List.append_assoc, List.singleton_append]
      · rfl

theorem foldl_count (calls : List (Number × Number)) (n : Nat) :
    calls.foldl (fun n call => if call.2.isTrue then n + 1 else n) n = n + (kept calls).length := by
  induction calls generalizing n with
  | nil => rfl
  | cons call calls ih =>
      rw [List.foldl_cons, ih, kept_cons]
      split
      · rw [List.length_cons, Nat.add_right_comm, Nat.add_assoc]
      · rfl

theorem Calls.foldl_any (made : any.Calls setting frame callee x index count s calls ending t) :
    calls.foldl (fun _ call => call.2.isTrue) false = calls.any (·.2.isTrue) := by
  induction made with
  | done => rfl
  | failed => rfl
  | stopped => exact (Bool.or_false _).symm
  | @next _ _ _ _ _ result _ _ _ goesOn _ ih =>
      have isFalse : result.isTrue = false := goesOn
      simp only [List.foldl_cons, List.any_cons, isFalse, Bool.false_or]
      exact ih

theorem CellArray.ends_setYield (n : Nat) {y value : Number} (sets : Eval.Eventually (fun fuel =>
      CellArray.set (setting.machineAt fuel) (cellAt x) y value frame) s (.ok value) after) :
    Eval.Ends (fun fuel => CellArray.set (setting.machineAt fuel) (cellAt x) y value frame >>= fun _ =>
      pure (ForInStep.yield (n + 1))) s (.ok (.yield (n + 1))) after :=
  (sets.andThen (Eval.eventually_pure (ForInStep.yield (n + 1)) after)).ends

theorem CellArray.grows_setYield (standard : setting.registry = .standard) (n : Nat) (y value : Number) :
    Eval.Grows fun fuel => CellArray.set (setting.machineAt fuel) (cellAt x) y value frame >>= fun _ =>
      pure (ForInStep.yield (n + 1)) :=
  (grows_of_related standard fun _ _ _ _ h => h.arraySet rfl rfl y value).andThen fun _ => Eval.grows_pure _

section Handler

variable (standard : setting.registry = .standard) (callable : callee.isCallable = true)
include standard callable

theorem ends_iter (result : Except RuntimeError Number) (after : Session) :
    Eval.Ends (fun fuel => Builtin.iter (setting.machineAt fuel) [cellAt x, callee] frame) s result after ↔
      iter.Comes setting frame callee x s result after := by
  simp only [iter_eq callable]
  refine ends_visited_iff standard (fun _ _ _ _ => Eval.grows_pure _) (fun n _ _ => n + 1)
    (fun _ _ _ _ t => ?_) (fun _ => Eval.grows_pure _) (fun calls t _ => ?_) result after
  · exact Eval.ends_pure _ t
  · rw [foldl_length, Nat.zero_add]
    exact Eval.ends_pure _ t

theorem ends_mutate (result : Except RuntimeError Number) (after : Session) :
    Eval.Ends (fun fuel => Builtin.mutate (setting.machineAt fuel) [cellAt x, callee] frame) s result after ↔
      mutate.Comes setting frame callee x s result after := by
  simp only [mutate_eq callable]
  refine ends_visited_iff standard (fun _ _ _ _ => ?_) (fun n _ _ => n + 1) (fun n index _ value t => ?_)
    (fun _ => Eval.grows_pure _) (fun calls t _ => ?_) result after
  · exact CellArray.grows_setYield standard _ _ _
  · exact CellArray.ends_setYield n
      (CellArray.eventually_setForward (gives_constant x) (CellArray.not_less_ofNat index) value)
  · rw [foldl_length, Nat.zero_add]
    exact Eval.ends_pure _ t

theorem ends_filter (result : Except RuntimeError Number) (after : Session) :
    Eval.Ends (fun fuel => Builtin.filter (setting.machineAt fuel) [cellAt x, callee] frame) s result after ↔
      filter.Comes setting frame callee x s result after := by
  simp only [filter_eq callable]
  refine ends_visited_iff standard (fun _ _ _ _ => Eval.grows_pure _)
    (fun front element value => if value.isTrue then element :: front else front)
    (fun _ _ _ _ t => ?_) (fun _ => ?_) (fun calls t _ => ?_) result after
  · exact Eval.ends_pure _ t
  · exact (grows_of_related standard fun _ _ _ _ h => h.allocate rfl rfl _).andThen fun _ =>
      Eval.grows_pure _
  · rw [foldl_kept, List.append_nil, List.reverse_reverse, List.length_reverse]
    exact ((CellArray.eventually_allocateStored (gives_constant x) (kept calls)).map fun _ =>
      Number.ofNat (kept calls).length).ends

theorem ends_any (result : Except RuntimeError Number) (after : Session) :
    Eval.Ends (fun fuel => Builtin.any (setting.machineAt fuel) [cellAt x, callee] frame) s result after ↔
      any.Comes setting frame callee x s result after := by
  simp only [any_eq callable]
  refine ends_visited_iff standard (fun _ _ _ _ => Eval.grows_pure _) (fun _ _ value => value.isTrue)
    (fun _ _ _ value t => ?_) (fun _ => Eval.grows_pure _) (fun calls t made => ?_) result after
  · have stopping : any.stops value = value.isTrue := rfl
    rw [stopping]
    cases truth : value.isTrue with
    | true => exact Eval.ends_pure _ t
    | false => exact Eval.ends_pure _ t
  · rw [made.foldl_any]
    exact Eval.ends_pure _ t

theorem ends_count (result : Except RuntimeError Number) (after : Session) :
    Eval.Ends (fun fuel => Builtin.count (setting.machineAt fuel) [cellAt x, callee] frame) s result after ↔
      ElementFunction.count.Comes setting frame callee x s result after := by
  simp only [count_eq callable]
  refine ends_visited_iff standard (fun _ _ _ _ => Eval.grows_pure _)
    (fun n _ value => if value.isTrue then n + 1 else n) (fun _ _ _ _ t => ?_)
    (fun _ => Eval.grows_pure _) (fun calls t _ => ?_) result after
  · exact Eval.ends_pure _ t
  · rw [foldl_count, Nat.zero_add]
    exact Eval.ends_pure _ t

theorem ends_handler (f : ElementFunction) (result : Except RuntimeError Number) (after : Session) :
    Eval.Ends (fun fuel => f.handler (setting.machineAt fuel) [cellAt x, callee] frame) s result after ↔
      f.Comes setting frame callee x s result after := by
  cases f with
  | iter => exact ends_iter standard callable result after
  | mutate => exact ends_mutate standard callable result after
  | filter => exact ends_filter standard callable result after
  | any => exact ends_any standard callable result after
  | count => exact ends_count standard callable result after

end Handler

theorem find_name (standard : setting.registry = .standard) (f : ElementFunction) :
    setting.registry.find? f.name = some ⟨.exact 2, f.handler⟩ := by
  apply find_of_memoryTable standard
  cases f <;> simp [name, handler, Builtin.memoryTable]

/-- The cells that `mut` writes are those of the elements. -/
def Aligned (x : Number) (count : Nat) : Prop :=
  ∀ index < count, ((x.add (.ofNat index)).add .one).SameAddress (x.add (.ofNat (index + 1)))

theorem aligned_whole {a : Int} (whole : x.IsInt a) (fits : Fits a count) : Aligned x count := by
  intro index within
  have small : index < 2 ^ 53 := Nat.lt_trans within fits.count
  have before := whole.add (isInt_ofNat small) (fits.exact (by omega))
  exact (before.add isInt_one (fits.element within)).sameAddress (CellArray.isInt_element index whole fits within)

theorem stores_iff_aligned :
    (∀ index < count, ∀ result t,
      (mutate.afterCall x index result t).valueOf (elementKey x index) = result) ↔ Aligned x count := by
  have written (index : Nat) (result : Number) (t : Session) :
      (mutate.afterCall x index result t).valueOf (elementKey x index) =
        if Text.fold ((x.add (.ofNat index)).add .one).key = Text.fold (elementKey x index) then result
        else t.valueOf (elementKey x index) :=
    t.valueOf_setVariable _ _ result
  have one_cell (index : Nat) :
      Text.fold ((x.add (.ofNat index)).add .one).key = Text.fold (elementKey x index) ↔
        ((x.add (.ofNat index)).add .one).SameAddress (x.add (.ofNat (index + 1))) := fold_key_eq_iff
  constructor
  · intro stores index within
    by_contra elsewhere
    have missing := stores index within .one ⟨∅, ∅, #[], .withInput .buffer []⟩
    rw [written, if_neg (mt (one_cell index).mp elsewhere)] at missing
    have zero : (⟨∅, ∅, #[], .withInput .buffer []⟩ : Session).valueOf (elementKey x index) = .zero := by
      simp [Session.valueOf]
    rw [zero] at missing
    cases missing
  · intro aligned index within result t
    rw [written, if_pos ((one_cell index).mpr (aligned index within))]

theorem length_kept (calls : List (Number × Number)) : (kept calls).length ≤ calls.length := by
  rw [kept, List.length_map]
  exact List.length_filter_le _ calls

theorem Counted.length_le (counted : f.Counted count calls ending) : calls.length ≤ count := by
  rcases counted with ⟨-, length, -⟩ | ⟨_, _, -, -, length, -⟩ | ⟨_, -, length, -⟩
  · exact Nat.le_of_eq length
  · exact length
  · exact Nat.le_of_lt length

theorem nodup_arrayKeys_of_le {less : Nat} (apart : (arrayKeys x count).Nodup) (le : less ≤ count) :
    (arrayKeys x less).Nodup :=
  apart.sublist (.cons_cons _ (.map _ (List.range'_sublist_right.mpr le)))

end ElementFunction

open ElementFunction

section Calls

variable {setting : Setting} {frame : FrameId} {callee : Expr}

theorem callEnds_lambda {aliases : List String} {body : Expr} {element value : Number} {index : Nat}
    {s : Session} (gives : setting.Gives s.frames.size (s.push ((Frame.ofLambda frame).withArguments 0
      [.reference (.constant element) frame, .reference (.constant (.ofNat index)) frame] aliases))
      body value) :
    CallEnds setting frame (.lambda aliases body) element index s (.ok value) s := by
  let bindings : List Binding :=
    [.reference (.constant element) frame, .reference (.constant (.ofNat index)) frame]
  let called (fuel : Nat) (top : FrameId) : Eval Number := do
    Machine.bindArguments 0 bindings aliases top
    setting.solve fuel body top
  obtain ⟨cost, bound⟩ := costs_bindArguments s (.ofLambda frame) 0 bindings aliases
  have runs : Eval.Eventually (called · s.frames.size) (s.push (.ofLambda frame)) (.ok value) _ :=
    (Eval.Costs.eventually fun _ => bound).andThen gives
  have framed := runs.inFrame
  rw [cutTo_push] at framed
  exact framed.ends

/-- The functions make one call for each element, in order, as many as the length cell tells of before the
first call, whatever the calls do meanwhile, and `any` stops at the first one that comes to true. They end
with an error if and only if a call does. `mut` stores every result where it belongs if and only if the
cells that it writes are those of the elements, which whole addresses see to. What `filter` keeps is read as
an array if its cells have names of their own. -/
theorem callbacks_once_per_element (standard : setting.registry = .standard)
    (callable : callee.isCallable = true) (f : ElementFunction) (x : Number) (s : Session) :
    (∀ result after, Eval.Ends (setting.solve · (.call f.name [cellAt x, callee]) frame) s result after ↔
      ∃ calls ending t, f.Calls setting frame callee x 0 (s.count x) (s.readVariable x.key).2 calls ending t ∧
        (result, after) = f.outcome x calls ending t) ∧
    (∀ s' calls ending t, f.Calls setting frame callee x 0 (s.count x) s' calls ending t →
      f.Counted (s.count x) calls ending) ∧
    ((∀ element index t, ∃ result u, CallEnds setting frame callee element index t (.ok result) u) →
      ∃ result after,
        Eval.Ends (setting.solve · (.call f.name [cellAt x, callee]) frame) s (.ok result) after) ∧
    ((∀ index < s.count x, ∀ result t,
        (mutate.afterCall x index result t).valueOf (elementKey x index) = result) ↔
      Aligned x (s.count x)) ∧
    (∀ a, x.IsInt a → Fits a (s.count x) → Aligned x (s.count x)) ∧
    ((arrayKeys x (s.count x)).Nodup → s.count x < 2 ^ 53 → ∀ calls ending t,
      filter.Calls setting frame callee x 0 (s.count x) (s.readVariable x.key).2 calls ending t →
        (filter.afterCalls x calls t).ReadsArray x (kept calls)) := by
  have ends (result : Except RuntimeError Number) (after : Session) :=
    (@ends_handler_iff setting frame s after result f.name [cellAt x, callee] _ (find_name standard f) rfl).trans
      (ElementFunction.ends_handler (x := x) standard callable f result after)
  refine ⟨ends, fun _ _ _ _ made => made.counted, fun succeeds => ?_, stores_iff_aligned,
    fun _ whole fits => aligned_whole whole fits, fun apart small calls ending t made => ?_⟩
  · obtain ⟨calls, t, made⟩ := Calls.complete succeeds 0 (s.count x) (s.readVariable x.key).2
    exact ⟨_, _, (ends _ _).mpr ⟨calls, _, t, made, rfl⟩⟩
  · have le := Nat.le_trans (length_kept calls) made.counted.length_le
    exact t.readsArray_stored (nodup_arrayKeys_of_le apart le) (Nat.lt_of_le_of_lt le small)

/-- A filter that keeps both elements. -/
theorem callbacks_once_per_element_filter :
    let setting : Setting := ⟨.standard, true⟩
    let s := ((Engine.new .standard (.withInput .buffer [])).session.push .main).setVariable "0" (.ofNat 2)
    let callee := Expr.lambda ["x", "i"] (.constant .one)
    callee.isCallable = true ∧ ∃ calls ending t after,
      filter.Calls setting 0 callee .zero 0 2 (s.readVariable "0").2 calls ending t ∧ ending = .ok () ∧
        calls.length = 2 ∧ after.ReadsArray .zero (kept calls) ∧
        Eval.Ends (setting.solve · (.call "filter" [cellAt .zero, callee]) 0) s
          (.ok (.ofNat (kept calls).length)) after := by
  intro setting s callee
  have counted : s.count .zero = 2 := by decide +kernel
  have apart : (arrayKeys zero (s.count .zero)).Nodup := by
    rw [counted]
    decide +kernel
  obtain ⟨ends, count, complete, -, -, reads⟩ :=
    @callbacks_once_per_element setting 0 callee rfl rfl .filter .zero s
  obtain ⟨result, after, comes⟩ := complete fun element index t =>
    ⟨.one, t, callEnds_lambda (gives_constant .one)⟩
  obtain ⟨calls, ending, t, made, same⟩ := (ends _ _).mp comes
  cases ending with
  | error error => cases same
  | ok =>
      cases same
      have all := count _ _ _ _ made
      have kept := reads apart (by rw [counted]; decide) _ _ _ made
      rw [counted] at made all
      rcases all with ⟨-, length, -⟩ | ⟨_, _, -, -, -, stops, -⟩ | ⟨_, failed, -⟩
      · exact ⟨rfl, calls, _, t, _, made, rfl, length, kept, comes⟩
      · cases stops
      · cases failed

def twice (f : ElementFunction) (x value : Number) (s : Session) : Session :=
  let t := f.afterCall x 0 value (s.readVariable (elementKey x 0)).2
  f.afterCall x 1 value (t.readVariable (elementKey x 1)).2

theorem calls_twice {f : ElementFunction} {x value : Number}
    (calls : ∀ element index t, CallEnds setting frame callee element index t (.ok value) t)
    (goesOn : f.stops value = false) (s : Session) :
    ∃ made, f.Calls setting frame callee x 0 2 s made (.ok ()) (twice f x value s) ∧ made.length = 2 :=
  ⟨_, .next (calls _ 0 _) goesOn (.next (calls _ 1 _) goesOn .done), rfl⟩

/-- An element whose cell `mut` misses: one more than the address and one is not two more than the address. -/
theorem mutated_cell_missed :
    let setting : Setting := ⟨.standard, true⟩
    let y : Number := ⟨false, 971 * binade + binade / 4, by decide⟩
    let s := (((⟨∅, ∅, #[.main], .withInput .buffer []⟩ : Session).setVariable y.key (.ofNat 2)).setVariable
      (elementKey y 0) (.ofNat 5)).setVariable (elementKey y 1) (.ofNat 6)
    let callee := Expr.lambda ["x", "i"] (.constant (.ofNat 7))
    ∃ t, Eval.Ends (setting.solve · (.call "mut" [cellAt y, callee]) 0) s (.ok (.ofNat 2)) t ∧
      s.ReadsArray y [.ofNat 5, .ofNat 6] ∧ t.ReadsArray y [.ofNat 7, .ofNat 6] ∧
      ¬t.ReadsArray y [.ofNat 7, .ofNat 7] := by
  intro setting y s callee
  have counted : s.count y = 2 := by decide +kernel
  have calls (element : Number) (index : Nat) (t : Session) :
      CallEnds setting 0 callee element index t (.ok (.ofNat 7)) t := callEnds_lambda (gives_constant _)
  obtain ⟨made, all, length⟩ := calls_twice (f := mutate) (x := y) calls rfl (s.readVariable y.key).2
  rw [← counted] at all
  have standard : setting.registry = .standard := rfl
  have callable : callee.isCallable = true := rfl
  have handled := (@ElementFunction.ends_handler setting 0 callee y s standard callable .mutate _ _).mpr
    ⟨made, _, _, all, rfl⟩
  have value : mutate.value made = .ofNat 2 := congrArg Number.ofNat length
  have before : s.elements y = [.ofNat 5, .ofNat 6] := by decide +kernel
  have left : (twice .mutate y (.ofNat 7) (s.readVariable y.key).2).elements y = [.ofNat 7, .ofNat 6] := by
    decide +kernel
  have reads := readsArray_of_eq left
  refine ⟨twice .mutate y (.ofNat 7) (s.readVariable y.key).2, ?_, readsArray_of_eq before, reads,
    fun other => absurd (reads.unique other) (by decide +kernel)⟩
  rw [← value]
  exact (ends_handler_iff (find_name standard .mutate) rfl).mpr handled

end Calls

end Calculator
