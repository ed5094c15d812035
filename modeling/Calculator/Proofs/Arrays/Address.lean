import Calculator.Proofs.Arrays.Asking

/-!
Calls on an array whose address is an expression.

A call evaluates its operands first and then asks for the address. The address may be any expression: if it
has effects, a function that asks again may be led to another array.
-/

namespace Calculator

open Number Session

/-- A call of a function on an array, without the pointer. Operands are expressions in a call as it is
written, and numbers once they are evaluated. -/
inductive PointerCall (α : Type) where
  | get (index : α)
  | set (index value : α)
  | add (value : α)
  | insert (index value : α)
  | remove (value : α)
  | indexOf (value : α)
  | contains (value : α)
  | clear
  | setify
  | sort
  | each (f : ElementFunction) (callee : Expr) (callable : callee.isCallable = true)

namespace PointerCall

variable {α β : Type}

def map (g : α → β) : PointerCall α → PointerCall β
  | get index => get (g index)
  | set index value => set (g index) (g value)
  | add value => add (g value)
  | insert index value => insert (g index) (g value)
  | remove value => remove (g value)
  | indexOf value => indexOf (g value)
  | contains value => contains (g value)
  | clear => clear
  | setify => setify
  | sort => sort
  | each f callee callable => each f callee callable

def name : PointerCall α → String
  | get .. => "get"
  | set .. => "set"
  | add .. => "add"
  | insert .. => "insert"
  | remove .. => "remove"
  | indexOf .. => "indexof"
  | contains .. => "contains"
  | clear => "clear"
  | setify => "setify"
  | sort => "sort"
  | each f .. => f.name

def builtin : PointerCall α → Builtin
  | get .. => ⟨.exact 2, Builtin.get⟩
  | set .. => ⟨.exact 3, Builtin.set⟩
  | add .. => ⟨.exact 2, Builtin.add⟩
  | insert .. => ⟨.exact 3, Builtin.insert⟩
  | remove .. => ⟨.exact 2, Builtin.remove⟩
  | indexOf .. => ⟨.exact 2, Builtin.indexOf⟩
  | contains .. => ⟨.exact 2, Builtin.contains⟩
  | clear => ⟨.exact 1, Builtin.clear⟩
  | setify => ⟨.exact 1, Builtin.setify⟩
  | sort => ⟨.exact 1, Builtin.sort⟩
  | each f .. => ⟨.exact 2, f.handler⟩

def args : PointerCall Expr → List Expr
  | get index => [index]
  | set index value | insert index value => [index, value]
  | add value | remove value | indexOf value | contains value => [value]
  | clear | setify | sort => []
  | each _ callee _ => [callee]

def expr (call : PointerCall Expr) (pointer : Expr) : Expr := .call call.name (pointer :: call.args)

def solve (m : Machine) (frame : FrameId) : PointerCall Expr → Eval (PointerCall Number)
  | get index => return get (← m.solve index frame)
  | set index value => return set (← m.solve index frame) (← m.solve value frame)
  | add value => return add (← m.solve value frame)
  | insert index value => return insert (← m.solve index frame) (← m.solve value frame)
  | remove value => return remove (← m.solve value frame)
  | indexOf value => return indexOf (← m.solve value frame)
  | contains value => return contains (← m.solve value frame)
  | clear => return clear
  | setify => return setify
  | sort => return sort
  | each f callee callable => return each f callee callable

def act (m : Machine) (pointer : Expr) (frame : FrameId) : PointerCall Number → Eval Number
  | get index => CellArray.get m pointer index frame
  | set index value => CellArray.set m pointer index value frame
  | add value => CellArray.add m pointer value frame
  | insert index value => CellArray.insert m pointer index value frame
  | remove value => return .ofBool (← CellArray.remove m pointer value frame)
  | indexOf value => do
    match ← CellArray.indexOf? m pointer value frame with
    | some index => return .ofNat index
    | none => return .negativeOne
  | contains value => return .ofBool (← CellArray.indexOf? m pointer value frame).isSome
  | clear => CellArray.allocate m pointer [] frame
  | setify => CellArray.setify m pointer frame
  | sort => CellArray.sort m pointer frame
  | each f callee _ => f.handler m [pointer, callee] frame

/-- Whether the function asks for the address no more than once. -/
def AsksOnce : PointerCall Number → Prop
  | get index | set index _ => ¬index.less .zero = true
  | add _ | indexOf _ | contains _ | clear => True
  | each f _ _ => f ≠ .mutate ∧ f ≠ .filter
  | _ => False

/-- The sessions that can come up between one look at the address and the next: cells are read, and the
callable is called, the results of which may be stored. -/
inductive Later (setting : Setting) (frame : FrameId) (call : PointerCall Number) (x : Number) (s : Session) :
    Session → Prop
  | refl : Later setting frame call x s s
  | read {t : Session} (y : Number) (later : Later setting frame call x s t) :
      Later setting frame call x s (t.readVariable y.key).2
  | called {f : ElementFunction} {callee : Expr} {callable : callee.isCallable = true} {t u : Session}
      {element result : Number} {index : Nat} (calls : call = each f callee callable)
      (later : Later setting frame call x s t)
      (called : CallEnds setting frame callee element index t (.ok result) u) :
      Later setting frame call x s u
  | stored {f : ElementFunction} {callee : Expr} {callable : callee.isCallable = true} {t : Session}
      (index : Nat) (result : Number) (calls : call = each f callee callable)
      (later : Later setting frame call x s t) :
      Later setting frame call x s (f.afterCall x index result t)

/-- Once the expression came to the address, it does so again for as long as the call goes on, and does
nothing else. -/
def Settled (setting : Setting) (frame : FrameId) (e : Expr) (call : PointerCall Number) (x : Number)
    (s : Session) : Prop :=
  ∀ t, call.Later setting frame x s t → setting.Gives frame t e x

variable {setting : Setting} {frame : FrameId} {e base : Expr} {s : Session}

theorem mem_memoryTable (call : PointerCall α) : (call.name, call.builtin) ∈ Builtin.memoryTable := by
  cases call with
  | each f =>
      cases f <;>
        simp [name, builtin, ElementFunction.name, ElementFunction.handler, Builtin.memoryTable]
  | _ => simp [name, builtin, Builtin.memoryTable]

theorem accepts (call : PointerCall Expr) (pointer : Expr) :
    call.builtin.arity.accepts (pointer :: call.args).length = true := by
  cases call with
  | _ => rfl

theorem handler_eq (call : PointerCall Expr) (m : Machine) :
    call.builtin.handler m (.pointer base :: call.args) frame =
      call.solve m frame >>= fun values => values.act m (.pointer base) frame := by
  cases call with
  | each f callee callable => rfl
  | clear | setify | sort => rfl
  | _ =>
    simp only [solve, act, bind_assoc, pure_bind]
    rfl

theorem grows_solve (standard : setting.registry = .standard) (call : PointerCall Expr) :
    Eval.Grows fun fuel => call.solve (setting.machineAt fuel) frame := by
  have operand (e : Expr) := Calculator.grows_solve standard e frame
  cases call with
  | set index value | insert index value =>
      exact (operand index).andThen fun _ => (operand value).andThen fun _ => Eval.grows_pure _
  | get e | add e | remove e | indexOf e | contains e => exact (operand e).andThen fun _ => Eval.grows_pure _
  | clear | setify | sort | each => exact Eval.grows_pure _

theorem eventually_constants (values : PointerCall Number) (s : Session) :
    Eval.Eventually (fun fuel => (values.map .constant).solve (setting.machineAt fuel) frame) s (.ok values) s := by
  have operand (x : Number) : setting.Gives frame s (.constant x) x := gives_constant x
  cases values with
  | set x y | insert x y => exact (operand x).andThen ((operand y).andThen (Eval.eventually_pure _ s))
  | get x | add x | remove x | indexOf x | contains x => exact (operand x).andThen (Eval.eventually_pure _ s)
  | clear | setify | sort | each => exact Eval.eventually_pure _ s

theorem steady_of_constants (standard : setting.registry = .standard) (values : PointerCall Number)
    (steady : ∀ c mid, Eval.Ends (setting.solve · e frame) s (.ok c) mid →
      values.AsksOnce ∨ values.Settled setting frame e c mid) :
    ∀ values' t c mid,
      Eval.Ends (fun fuel => (values.map .constant).solve (setting.machineAt fuel) frame) s (.ok values') t →
        Eval.Ends (setting.solve · e frame) t (.ok c) mid →
          values'.AsksOnce ∨ values'.Settled setting frame e c mid := by
  intro values' t c mid solved asked
  obtain ⟨same, rfl⟩ := (grows_solve standard (values.map .constant)).unique solved
    (eventually_constants values s).ends
  cases same
  exact steady c mid asked

theorem grows_act (standard : setting.registry = .standard) (values : PointerCall Number) (base : Expr) :
    Eval.Grows fun fuel => values.act (setting.machineAt fuel) (.pointer base) frame := by
  refine grows_of_related (x := fun m => values.act m (.pointer base) frame) standard
    fun spare stack m m' h => ?_
  cases values with
  | get y => exact h.arrayGet rfl rfl y
  | set y value => exact h.arraySet rfl rfl y value
  | add value => exact h.arrayAdd rfl rfl value
  | insert y value => exact h.arrayInsert rfl rfl y value
  | remove value => exact (h.arrayRemove rfl rfl value).andThenSame fun _ => .value rfl
  | indexOf value =>
      refine (h.indexOf rfl rfl value).andThenSame fun found => ?_
      cases found with
      | none => exact .value rfl
      | some index => exact .value rfl
  | contains value => exact (h.indexOf rfl rfl value).andThenSame fun _ => .value rfl
  | clear => exact h.allocate rfl rfl []
  | setify => exact h.setify rfl rfl
  | sort => exact h.sort rfl rfl
  | each f callee callable =>
      exact Correspondence.keeps_memoryTable _ (each f callee callable : PointerCall Number).mem_memoryTable h
        (.cons rfl (.cons rfl .nil)) rfl fun _ => rfl

def Between (setting : Setting) (frame : FrameId) (e : Expr) (s : Session) (values : PointerCall Number)
    (c : Number) (t : Session) : Prop :=
  ∃ mid, Eval.Ends (setting.solve · e frame) s (.ok c) mid ∧ values.Later setting frame c mid t

theorem opens_act (standard : setting.registry = .standard) (values : PointerCall Number)
    (steady : ∀ c mid, Eval.Ends (setting.solve · e frame) s (.ok c) mid →
      values.AsksOnce ∨ values.Settled setting frame e c mid) :
    Eval.Opens setting frame e s (fun fuel => values.act (setting.machineAt fuel) (.pointer e) frame)
      fun c fuel => values.act (setting.machineAt fuel) (cellAt c) frame := by
  have entered (c : Number) (mid : Session) (asked : Eval.Ends (setting.solve · e frame) s (.ok c) mid) :
      values.Between setting frame e s c mid := ⟨mid, asked, .refl⟩
  have reads (c : Number) (t : Session) (y : Number) :
      values.Between setting frame e s c t → values.Between setting frame e s c (t.readVariable y.key).2 :=
    fun ⟨mid, asked, later⟩ => ⟨mid, asked, later.read y⟩
  have again (twice : ¬values.AsksOnce) (c : Number) (t : Session) :
      values.Between setting frame e s c t → setting.Gives frame t e c :=
    fun ⟨mid, asked, later⟩ => (steady c mid asked).resolve_left twice t later
  cases values with
  | get y =>
      exact (CellArray.opens_cell standard entered reads y fun back => again (not_not.mpr back)).thenSame
        fun z => Eval.grows_readVariable z.key
  | set y value =>
      exact (CellArray.opens_cell standard entered reads y fun back => again (not_not.mpr back)).thenSame
        fun z => (Eval.grows_setVariable z.key value).andThen fun _ => Eval.grows_pure value
  | add value => exact CellArray.opens_add standard value
  | insert y value => exact CellArray.opens_insert standard entered reads (again id) y value
  | remove value =>
      exact (CellArray.opens_remove standard entered reads (again id) value).thenSame fun _ => Eval.grows_pure _
  | indexOf value =>
      refine (CellArray.opens_indexOf standard value).thenSame fun found => ?_
      cases found with
      | none => exact Eval.grows_pure _
      | some index => exact Eval.grows_pure _
  | contains value => exact (CellArray.opens_indexOf standard value).thenSame fun _ => Eval.grows_pure _
  | clear => exact CellArray.opens_clear standard
  | setify => exact CellArray.opens_setify standard entered reads (again id)
  | sort => exact CellArray.opens_sort standard entered reads (again id)
  | each f callee callable =>
      have calls (c : Number) (t u : Session) (element : Number) (index : Nat) (result : Number) :
          (each f callee callable).Between setting frame e s c t →
            CallEnds setting frame callee element index t (.ok result) u →
              (each f callee callable).Between setting frame e s c u :=
        fun ⟨mid, asked, later⟩ called => ⟨mid, asked, later.called rfl called⟩
      cases f with
      | iter => exact ElementFunction.opens_iter standard callable
      | any => exact ElementFunction.opens_any standard callable
      | count => exact ElementFunction.opens_count standard callable
      | filter =>
          exact ElementFunction.opens_filter standard callable entered reads calls (again fun once => once.2 rfl)
      | mutate =>
          exact ElementFunction.opens_mutate standard callable entered reads calls (again fun once => once.1 rfl)
            fun c t index result ⟨mid, asked, later⟩ => ⟨mid, asked, later.stored index result rfl⟩

variable (standard : setting.registry = .standard)
include standard

theorem ends_expr_iff (call : PointerCall Expr) (result : Except RuntimeError Number) (after : Session) :
    Eval.Ends (setting.solve · (call.expr (.pointer base)) frame) s result after ↔
      Eval.Ends (fun fuel => call.solve (setting.machineAt fuel) frame >>= fun values =>
        values.act (setting.machineAt fuel) (.pointer base) frame) s result after := by
  rw [expr, ends_handler_iff (find_of_memoryTable standard call.mem_memoryTable) (call.accepts _)]
  simp only [handler_eq]

theorem ends_constants_iff (values : PointerCall Number) (result : Except RuntimeError Number)
    (after : Session) :
    Eval.Ends (setting.solve · ((values.map .constant).expr (.pointer base)) frame) s result after ↔
      Eval.Ends (fun fuel => values.act (setting.machineAt fuel) (.pointer base) frame) s result after :=
  (ends_expr_iff standard (values.map .constant) result after).trans
    ((eventually_constants values s).ends.andThen_iff (grows_solve standard _) (grows_act standard values base))

end PointerCall

def Session.Retains (s t : Session) : Prop :=
  ∀ (key : String) (value : Number), s.globals[key]? = some value → t.globals[key]? = some value

theorem Session.Retains.trans {s t u : Session} (first : s.Retains t) (second : t.Retains u) : s.Retains u :=
  fun key value held => second key value (first key value held)

theorem Session.retains_readVariable (s : Session) (name : String) : s.Retains (s.readVariable name).2 := by
  intro key value held
  unfold readVariable
  split
  · exact held
  · rename_i missing
    have other : Text.fold name ≠ key := by
      rintro rfl
      cases missing.symm.trans held
    rwa [setVariable, Std.TreeMap.getElem?_insert, if_neg (mt Std.LawfulEqCmp.compare_eq_iff_eq.mp other)]

theorem Session.held_readVariable (s : Session) (name : String) :
    (s.readVariable name).2.globals[Text.fold name]? = some (s.valueOf name) := by
  unfold readVariable valueOf
  split
  · rename_i found
    rw [found]
    rfl
  · rename_i missing
    rw [missing]
    exact getElem?_setVariable_self name .zero

inductive Expr.OnlyReads : Expr → Prop
  | constant (value : Number) : OnlyReads (.constant value)
  | globalVar (name : String) : OnlyReads (.globalVar name)
  | pointer {address : Expr} (inner : OnlyReads address) : OnlyReads (.pointer address)
  | unary (op : UnaryOp) {operand : Expr} (inner : OnlyReads operand) : OnlyReads (.unary op operand)
  | binary (op : ValueOp) {left right : Expr} (first : OnlyReads left) (second : OnlyReads right) :
    OnlyReads (.binary (.value op) left right)

section Calls

variable {setting : Setting} {frame : FrameId} {e : Expr} {s : Session}

theorem Expr.OnlyReads.gives (reads : e.OnlyReads) (s : Session) :
    ∃ c mid, Eval.Eventually (setting.solve · e frame) s (.ok c) mid ∧ s.Retains mid ∧
      ∀ t, mid.Retains t → setting.Gives frame t e c := by
  induction reads generalizing s with
  | constant value => exact ⟨value, s, gives_constant value, fun _ _ => id, fun _ _ => gives_constant value⟩
  | globalVar name =>
      refine ⟨_, _, Place.eventually_read (.named name) s, s.retains_readVariable name, fun t retains => ?_⟩
      exact gives_globalVar (retains _ _ (s.held_readVariable name))
  | @pointer address inner ih =>
      obtain ⟨x, mid, comes, retains, again⟩ := ih s
      have read (fuel : Nat) := @CellArray.costs_readValue frame mid (setting.machineAt fuel) address x
      refine ⟨_, _, eventually_solve (comes.andThen (Eval.Costs.eventually read)),
        retains.trans (mid.retains_readVariable x.key), fun t retains' => ?_⟩
      exact gives_pointer (again t ((mid.retains_readVariable x.key).trans retains'))
        (retains' _ _ (mid.held_readVariable x.key))
  | unary op inner ih =>
      obtain ⟨a, mid, comes, retains, again⟩ := ih s
      exact ⟨_, mid, eventually_solve (comes.map op.apply), retains, fun t retains' => gives_unary (again t retains')⟩
  | binary op first second ih ih' =>
      obtain ⟨a, mid, comes, retains, again⟩ := ih s
      obtain ⟨b, mid', comes', retains', again'⟩ := ih' mid
      refine ⟨_, mid', eventually_solve (comes.andThen (comes'.map (op.apply a))), retains.trans retains',
        fun t retains'' => ?_⟩
      exact gives_binary (again t (retains'.trans retains'')) (again' t retains'')

theorem PointerCall.settled_of_onlyReads (standard : setting.registry = .standard) {values : PointerCall Number}
    (plain : ∀ f callee callable, values ≠ each f callee callable) (reads : e.OnlyReads) {c : Number}
    {mid : Session} (asked : Eval.Ends (setting.solve · e frame) s (.ok c) mid) :
    values.Settled setting frame e c mid := by
  obtain ⟨c', mid', comes, -, again⟩ := @Expr.OnlyReads.gives setting frame e reads s
  obtain ⟨same, rfl⟩ := (Calculator.grows_solve standard e frame).unique asked comes.ends
  cases same
  intro t later
  refine again t ?_
  induction later with
  | refl => exact fun _ _ => id
  | read y later ih => exact ih.trans (Session.retains_readVariable _ y.key)
  | called calls => exact absurd calls (plain _ _ _)
  | stored _ _ calls => exact absurd calls (plain _ _ _)

/-- A call on the array at the address that an expression comes to evaluates its operands, then the
expression, and then does what the same call on that address does, with the operands as numbers, provided
that the function asks for the address once, or that the expression keeps to the address for as long as the
call goes on. -/
theorem call_at_address (standard : setting.registry = .standard) (call : PointerCall Expr)
    (steady : ∀ values t c mid,
      Eval.Ends (fun fuel => call.solve (setting.machineAt fuel) frame) s (.ok values) t →
        Eval.Ends (setting.solve · e frame) t (.ok c) mid →
          values.AsksOnce ∨ values.Settled setting frame e c mid)
    (result : Except RuntimeError Number) (after : Session) :
    Eval.Ends (setting.solve · (call.expr (.pointer e)) frame) s result after ↔
      Eval.Ends (fun fuel => do
        let values ← call.solve (setting.machineAt fuel) frame
        let c ← setting.solve fuel e frame
        setting.solve fuel ((values.map .constant).expr (cellAt c)) frame) s result after := by
  have operands := @PointerCall.grows_solve setting frame standard call
  have asks := grows_solve standard e frame
  have calls (values : PointerCall Number) (c : Number) :=
    grows_solve standard ((values.map .constant).expr (cellAt c)) frame
  rw [call.ends_expr_iff standard, Eval.ends_andThen_iff operands fun values => values.grows_act standard e,
    Eval.ends_andThen_iff operands fun values => asks.andThen (calls values)]
  refine or_congr Iff.rfl (exists_congr fun values => exists_congr fun t => and_congr_right fun done => ?_)
  rw [CellArray.ends_of_opens standard (values.opens_act standard fun c mid => steady values t c mid done),
    Eval.ends_andThen_iff asks (values.grows_act standard <| .constant ·), Eval.ends_andThen_iff asks (calls values)]
  simp only [values.ends_constants_iff standard]

/-- A value is inserted where the address is one more than a variable, which only reads, and added where the
variable is counted up, which `add` asks for once. -/
theorem call_at_address_inserts_and_adds :
    let setting : Setting := ⟨.standard, true⟩
    let s := ((⟨∅, ∅, #[.main], .withInput .buffer []⟩ : Session).stored (.ofNat 10) [.ofNat 2, .ofNat 1]).setVariable
      "k" (.ofNat 9)
    let next := Expr.binary (.value .add) (.globalVar "k") (.constant .one)
    let countUp := Expr.assign (.globalVar "k") next
    let insert : PointerCall Expr := .insert (.constant .zero) (.constant (.ofNat 7))
    let add : PointerCall Expr := .add (.constant (.ofNat 7))
    let once (call : PointerCall Expr) (e : Expr) (fuel : Nat) : Eval Number := do
      let values ← call.solve (setting.machineAt fuel) 0
      let c ← setting.solve fuel e 0
      setting.solve fuel ((values.map .constant).expr (cellAt c)) 0
    (∃ t, Eval.Ends (setting.solve · (insert.expr (.pointer next)) 0) s (.ok (.ofNat 7)) t ∧
      Eval.Ends (once insert next) s (.ok (.ofNat 7)) t ∧
      t.ReadsArray (.ofNat 10) [.ofNat 7, .ofNat 2, .ofNat 1]) ∧
    ∃ t, Eval.Ends (setting.solve · (add.expr (.pointer countUp)) 0) s (.ok (.ofNat 7)) t ∧
      Eval.Ends (once add countUp) s (.ok (.ofNat 7)) t ∧
      t.ReadsArray (.ofNat 10) [.ofNat 2, .ofNat 1, .ofNat 7] ∧ t.valueOf "k" = .ofNat 10 := by
  intro setting s next countUp insert add once
  have standard : setting.registry = .standard := rfl
  have reads : next.OnlyReads := .binary .add (.globalVar "k") (.constant .one)
  have settled := @PointerCall.steady_of_constants setting 0 next s standard (.insert .zero (.ofNat 7))
    fun c mid asked =>
      .inr (PointerCall.settled_of_onlyReads standard (fun _ _ _ same => by cases same) reads asked)
  have asksOnce := @PointerCall.steady_of_constants setting 0 countUp s standard (.add (.ofNat 7))
    fun _ _ _ => .inl trivial
  let inserts (fuel : Nat) : Eval Number := setting.solve fuel (insert.expr (.pointer next)) 0
  let adds (fuel : Nat) : Eval Number := setting.solve fuel (add.expr (.pointer countUp)) 0
  let t := ((inserts 9).run ⟨99, s⟩).2.session
  let u := ((adds 9).run ⟨99, s⟩).2.session
  obtain ⟨value, inserted⟩ : ((inserts 9).run ⟨99, s⟩).1 = .value (.ofNat 7) ∧
      t.elements (.ofNat 10) = [.ofNat 7, .ofNat 2, .ofNat 1] := by decide +kernel
  obtain ⟨value', added, counted⟩ : ((adds 9).run ⟨99, s⟩).1 = .value (.ofNat 7) ∧
      u.elements (.ofNat 10) = [.ofNat 2, .ofNat 1, .ofNat 7] ∧ u.valueOf "k" = .ofNat 10 := by decide +kernel
  have ends : Eval.Ends inserts s (.ok (.ofNat 7)) t := Eval.ends_of_run value
  have ends' : Eval.Ends adds s (.ok (.ofNat 7)) u := Eval.ends_of_run value'
  exact ⟨⟨t, ends, (call_at_address standard insert settled _ _).mp ends, readsArray_of_eq inserted⟩,
    u, ends', (call_at_address standard add asksOnce _ _).mp ends', readsArray_of_eq added, counted⟩

/-- The address moves on by ten whenever it is asked for: the array at 10 is read, and the one at 20 is
written. -/
theorem insert_reads_one_writes_another :
    let setting : Setting := ⟨.standard, true⟩
    let s := (((⟨∅, ∅, #[.main], .withInput .buffer []⟩ : Session).stored (.ofNat 10) [.ofNat 2, .ofNat 1]).stored
      (.ofNat 20) [.ofNat 9]).setVariable "k" .zero
    let e := Expr.assign (.globalVar "k") (.binary (.value .add) (.globalVar "k") (.constant (.ofNat 10)))
    let call : PointerCall Expr := .insert (.constant .zero) (.constant (.ofNat 7))
    ∃ t u, Eval.Ends (setting.solve · (call.expr (.pointer e)) 0) s (.ok (.ofNat 7)) t ∧
      t.ReadsArray (.ofNat 10) [.ofNat 2, .ofNat 1] ∧ t.ReadsArray (.ofNat 20) [.ofNat 7, .ofNat 2, .ofNat 1] ∧
      Eval.Ends (fun fuel => do
        let values ← call.solve (setting.machineAt fuel) 0
        let c ← setting.solve fuel e 0
        setting.solve fuel ((values.map .constant).expr (cellAt c)) 0) s (.ok (.ofNat 7)) u ∧
      u.ReadsArray (.ofNat 10) [.ofNat 7, .ofNat 2, .ofNat 1] ∧ u.ReadsArray (.ofNat 20) [.ofNat 9] := by
  intro setting s e call
  let twice (fuel : Nat) : Eval Number := setting.solve fuel (call.expr (.pointer e)) 0
  let once (fuel : Nat) : Eval Number := do
    let values ← call.solve (setting.machineAt fuel) 0
    let c ← setting.solve fuel e 0
    setting.solve fuel ((values.map .constant).expr (cellAt c)) 0
  let t := ((twice 9).run ⟨99, s⟩).2.session
  let u := ((once 9).run ⟨99, s⟩).2.session
  obtain ⟨value, kept, moved⟩ : ((twice 9).run ⟨99, s⟩).1 = .value (.ofNat 7) ∧
      t.elements (.ofNat 10) = [.ofNat 2, .ofNat 1] ∧
      t.elements (.ofNat 20) = [.ofNat 7, .ofNat 2, .ofNat 1] := by decide +kernel
  obtain ⟨value', inserted, kept'⟩ : ((once 9).run ⟨99, s⟩).1 = .value (.ofNat 7) ∧
      u.elements (.ofNat 10) = [.ofNat 7, .ofNat 2, .ofNat 1] ∧ u.elements (.ofNat 20) = [.ofNat 9] := by
    decide +kernel
  have ends : Eval.Ends twice s (.ok (.ofNat 7)) t := Eval.ends_of_run value
  have ends' : Eval.Ends once s (.ok (.ofNat 7)) u := Eval.ends_of_run value'
  exact ⟨t, u, ends, readsArray_of_eq kept, readsArray_of_eq moved, ends', readsArray_of_eq inserted,
    readsArray_of_eq kept'⟩

end Calls

end Calculator
