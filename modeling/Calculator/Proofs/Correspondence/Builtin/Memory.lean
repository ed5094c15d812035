import Calculator.Builtin.Memory
import Calculator.Proofs.Correspondence.Builtin.Control

/-! Functions on arrays, on machines that evaluate alike. -/

namespace Calculator

namespace Correspondence

variable {C : Correspondence} {w : C.World}

theorem keeps_alloc : C.Keeps ⟨.atLeast 1, Builtin.alloc⟩ := by
  intro w m m' args args' f f' h parts frames takes
  apply (pointer_arg parts "alloc" 0 (takes.given rfl)).andThen
  intro p p' pointers
  have rest : List.Forall₂ C.expr args.tail args'.tail := by
    cases parts with
    | nil => exact .nil
    | cons _ rest => exact rest
  exact (h.stored rest frames).andThenSame fun values => h.allocate pointers frames values

theorem keeps_calloc : C.Keeps ⟨.exact 2, Builtin.calloc⟩ := by
  intro w m m' args args' f f' h parts frames takes
  apply (pointer_arg parts "calloc" 0 (takes.given rfl)).andThen
  intro p p' pointers
  exact (h.solveArg parts frames "calloc" 1 (takes.given rfl)).andThenSame fun _ => h.allocate pointers frames _

theorem keeps_malloc : C.Keeps ⟨.exact 2, Builtin.malloc⟩ := by
  intro w m m' args args' f f' h parts frames takes
  apply (pointer_arg parts "malloc" 0 (takes.given rfl)).andThen
  intro p p' pointers
  apply (h.solveArg parts frames "malloc" 1 (takes.given rfl)).andThenSame
  intro length
  apply (h.address pointers frames).andThenSame
  intro base
  exact (h.writeCell base length pointers frames).andThenSame fun _ => .value rfl

theorem Related.countUp (bound next : Number) {fuel fuel' : Nat} (bounds : C.Bounds fuel fuel')
    (values : List Number) :
    C.Related w Eq (Builtin.countUp bound fuel next values)
      (Builtin.countUp bound fuel' next values) := by
  induction fuel generalizing fuel' next values with
  | zero =>
      exact .outOfFuel (y := fun fuel' => Builtin.countUp bound fuel' next values) bounds rfl
  | succ fuel ih =>
      obtain ⟨fuel', rfl, fewer⟩ := Comparison.bounds_succ bounds
      unfold Builtin.countUp
      split
      · exact ih _ fewer _
      · exact .value rfl

theorem keeps_range : C.Keeps ⟨.oneOf [2, 3], Builtin.range⟩ := by
  intro w m m' args args' f f' h parts frames takes
  apply (pointer_arg parts "range" 0 (takes.given rfl)).andThen
  intro p p' pointers
  have write : ∀ first bound : Number,
      C.Related w Eq
        (do CellArray.allocate m p (← Builtin.countUp bound m.fuel first []) f)
        (do CellArray.allocate m' p' (← Builtin.countUp bound m'.fuel first []) f') := by
    intro first bound
    exact (Related.countUp bound first h.fuel []).andThenSame fun values =>
      h.allocate pointers frames values
  apply (h.solveArg parts frames "range" 1 (takes.given rfl)).andThenSame
  intro second
  rw [← parts.length_eq]
  split
  · rename_i three
    simp only [pure_bind]
    exact (h.solveArg parts frames "range" 2 fun _ => three).andThenSame fun third => write second third
  · exact write .zero second

theorem keeps_len : C.Keeps ⟨.exact 1, Builtin.len⟩ := by
  intro w m m' args args' f f' h parts frames takes
  exact (pointer_arg parts "len" 0 (takes.given rfl)).andThen fun _ _ pointers => h.arrayLength pointers frames

theorem keeps_get : C.Keeps ⟨.exact 2, Builtin.get⟩ := by
  intro w m m' args args' f f' h parts frames takes
  apply (pointer_arg parts "get" 0 (takes.given rfl)).andThen
  intro p p' pointers
  exact (h.solveArg parts frames "get" 1 (takes.given rfl)).andThenSame fun index =>
    h.arrayGet pointers frames index

theorem keeps_set : C.Keeps ⟨.exact 3, Builtin.set⟩ := by
  intro w m m' args args' f f' h parts frames takes
  apply (pointer_arg parts "set" 0 (takes.given rfl)).andThen
  intro p p' pointers
  apply (h.solveArg parts frames "set" 1 (takes.given rfl)).andThenSame
  intro index
  exact (h.solveArg parts frames "set" 2 (takes.given rfl)).andThenSame fun value =>
    h.arraySet pointers frames index value

theorem keeps_add : C.Keeps ⟨.exact 2, Builtin.add⟩ := by
  intro w m m' args args' f f' h parts frames takes
  apply (pointer_arg parts "add" 0 (takes.given rfl)).andThen
  intro p p' pointers
  exact (h.solveArg parts frames "add" 1 (takes.given rfl)).andThenSame fun value =>
    h.arrayAdd pointers frames value

theorem keeps_insert : C.Keeps ⟨.exact 3, Builtin.insert⟩ := by
  intro w m m' args args' f f' h parts frames takes
  apply (pointer_arg parts "insert" 0 (takes.given rfl)).andThen
  intro p p' pointers
  apply (h.solveArg parts frames "insert" 1 (takes.given rfl)).andThenSame
  intro index
  exact (h.solveArg parts frames "insert" 2 (takes.given rfl)).andThenSame fun value =>
    h.arrayInsert pointers frames index value

theorem keeps_remove : C.Keeps ⟨.exact 2, Builtin.remove⟩ := by
  intro w m m' args args' f f' h parts frames takes
  apply (pointer_arg parts "remove" 0 (takes.given rfl)).andThen
  intro p p' pointers
  apply (h.solveArg parts frames "remove" 1 (takes.given rfl)).andThenSame
  intro value
  exact (h.arrayRemove pointers frames value).andThenSame fun _ => .value rfl

theorem keeps_indexOf : C.Keeps ⟨.exact 2, Builtin.indexOf⟩ := by
  intro w m m' args args' f f' h parts frames takes
  apply (pointer_arg parts "indexof" 0 (takes.given rfl)).andThen
  intro p p' pointers
  apply (h.solveArg parts frames "indexof" 1 (takes.given rfl)).andThenSame
  intro value
  apply (h.indexOf pointers frames value).andThenSame
  intro index
  cases index with
  | none => exact .value rfl
  | some index => exact .value rfl

theorem keeps_contains : C.Keeps ⟨.exact 2, Builtin.contains⟩ := by
  intro w m m' args args' f f' h parts frames takes
  apply (pointer_arg parts "contains" 0 (takes.given rfl)).andThen
  intro p p' pointers
  apply (h.solveArg parts frames "contains" 1 (takes.given rfl)).andThenSame
  intro value
  exact (h.indexOf pointers frames value).andThenSame fun _ => .value rfl

theorem keeps_clear : C.Keeps ⟨.exact 1, Builtin.clear⟩ := by
  intro w m m' args args' f f' h parts frames takes
  exact (pointer_arg parts "clear" 0 (takes.given rfl)).andThen fun _ _ pointers => h.allocate pointers frames []

theorem keeps_concat : C.Keeps ⟨.oneOf [2, 3], Builtin.concat⟩ := by
  intro w m m' args args' f f' h parts frames takes
  apply (pointer_arg parts "concat" 0 (takes.given rfl)).andThen
  intro p p' firsts
  apply (pointer_arg parts "concat" 1 (takes.given rfl)).andThen
  intro q q' seconds
  rw [← parts.length_eq]
  split
  · rename_i three
    exact (pointer_arg parts "concat" 2 fun _ => three).andThen fun _ _ targets =>
      h.concat firsts seconds targets frames
  · exact h.concat firsts seconds firsts frames

theorem keeps_copy : C.Keeps ⟨.exact 2, Builtin.copy⟩ := by
  intro w m m' args args' f f' h parts frames takes
  apply (pointer_arg parts "copy" 0 (takes.given rfl)).andThen
  intro p p' sources
  exact (pointer_arg parts "copy" 1 (takes.given rfl)).andThen fun _ _ targets => h.copy sources targets frames

theorem keeps_setify : C.Keeps ⟨.exact 1, Builtin.setify⟩ := by
  intro w m m' args args' f f' h parts frames takes
  exact (pointer_arg parts "setify" 0 (takes.given rfl)).andThen fun _ _ pointers => h.setify pointers frames

theorem keeps_sort : C.Keeps ⟨.exact 1, Builtin.sort⟩ := by
  intro w m m' args args' f f' h parts frames takes
  exact (pointer_arg parts "sort" 0 (takes.given rfl)).andThen fun _ _ pointers => h.sort pointers frames

theorem Machines.visitCalls {σ : Type} {m m' : Machine} (h : C.Machines m m')
    {args args' : List Expr} {f f' : FrameId} (parts : List.Forall₂ C.expr args args')
    (frames : C.frame w f f') (takes : (Arity.exact 2).Takes C.strict args) (function : String)
    (state : σ)
    {look look' : Expr → σ → Nat → Number → Number → Eval (ForInStep σ)}
    (visits : ∀ p p', C.expr p p' → ∀ state index element result,
      C.Related w Eq (look p state index element result) (look' p' state index element result)) :
    C.Related w (fun a b => C.expr a.1 b.1 ∧ a.2 = b.2)
      (Builtin.visitCalls function state look m args f)
      (Builtin.visitCalls function state look' m' args' f') := by
  apply (pointer_arg parts function 0 (takes.given rfl)).andThen
  intro p p' pointers
  apply (callable_arg parts function 1 (takes.given rfl)).andThen
  intro callee callee' callees
  have visited := h.visit pointers frames (fun state index element =>
    (h.callWithElement callees element index frames).andThenSame fun result =>
      visits p p' pointers state index element result) state
  exact visited.andThenSame fun state => .value ⟨pointers, rfl⟩

theorem keeps_iter : C.Keeps ⟨.exact 2, Builtin.iter⟩ := by
  intro w m m' args args' f f' h parts frames takes
  unfold Builtin.iter
  refine (h.visitCalls parts frames takes "iter" 0 ?_).andThen ?_
  · exact fun _ _ _ _ _ _ _ => .value rfl
  · rintro ⟨p, count⟩ ⟨p', _⟩ ⟨_, rfl⟩
    exact .value rfl

theorem keeps_mutate : C.Keeps ⟨.exact 2, Builtin.mutate⟩ := by
  intro w m m' args args' f f' h parts frames takes
  unfold Builtin.mutate
  refine (h.visitCalls parts frames takes "mut" 0 ?_).andThen ?_
  · intro p p' pointers count index _ result
    exact (h.arraySet pointers frames _ result).andThenSame fun _ => .value rfl
  · rintro ⟨p, count⟩ ⟨p', _⟩ ⟨_, rfl⟩
    exact .value rfl

theorem keeps_filter : C.Keeps ⟨.exact 2, Builtin.filter⟩ := by
  intro w m m' args args' f f' h parts frames takes
  unfold Builtin.filter
  refine (h.visitCalls parts frames takes "filter" [] ?_).andThen ?_
  · exact fun _ _ _ _ _ _ _ => .value rfl
  · rintro ⟨p, kept⟩ ⟨p', _⟩ ⟨pointers, rfl⟩
    exact (h.allocate pointers frames _).andThenSame fun _ => .value rfl

theorem keeps_any : C.Keeps ⟨.exact 2, Builtin.any⟩ := by
  intro w m m' args args' f f' h parts frames takes
  unfold Builtin.any
  refine (h.visitCalls parts frames takes "any" false ?_).andThen ?_
  · exact fun _ _ _ _ _ _ _ => .value rfl
  · rintro ⟨p, found⟩ ⟨p', _⟩ ⟨_, rfl⟩
    exact .value rfl

theorem keeps_count : C.Keeps ⟨.exact 2, Builtin.count⟩ := by
  intro w m m' args args' f f' h parts frames takes
  unfold Builtin.count
  refine (h.visitCalls parts frames takes "count" 0 ?_).andThen ?_
  · exact fun _ _ _ _ _ _ _ => .value rfl
  · rintro ⟨p, count⟩ ⟨p', _⟩ ⟨_, rfl⟩
    exact .value rfl

theorem keeps_memprint : C.Keeps ⟨.exact 1, Builtin.memprint⟩ := by
  intro w m m' args args' f f' h parts frames takes
  apply (pointer_arg parts "memprint" 0 (takes.given rfl)).andThen
  intro p p' pointers
  apply (h.address pointers frames).andThenSame
  intro base
  apply (h.readCell base pointers frames).andThenSame
  intro value
  exact (Related.onConsole _).andThenSame fun _ => .value rfl

theorem keeps_memoryTable : C.KeepsAll Builtin.memoryTable := by
  simp only [KeepsAll, Builtin.memoryTable, List.forall_mem_cons]
  exact ⟨keeps_alloc, keeps_calloc, keeps_malloc, keeps_range, keeps_len, keeps_get, keeps_set,
    keeps_add, keeps_insert, keeps_remove, keeps_indexOf, keeps_contains, keeps_clear, keeps_concat,
    keeps_copy, keeps_setify, keeps_sort, keeps_iter, keeps_mutate, keeps_filter, keeps_any,
    keeps_count, keeps_memprint, List.forall_mem_nil _⟩

end Correspondence

end Calculator
