import Calculator.Proofs.Calls.Frame

/-! Lambdas are called by value, and see the frame that they were found in. Where a lambda's body only
computes, calling the lambda is evaluating the arguments, in the frame of the call, and then the body, in
the lambda's own frame, with the values in place of their aliases. -/

namespace Calculator

/-- Expressions of which a lambda receives the value. -/
def Expr.PassedByValue : Expr → Prop
  | .constant _ | .binary .. | .unary .. | .assign .. | .call .. => True
  | _ => False

/-- Errors that are the same but for the frame in which a local is missed. -/
inductive RuntimeError.UpToFrame : RuntimeError → RuntimeError → Prop
  | refl (error : RuntimeError) : UpToFrame error error
  | unknownLocal (name frame frame' : String) :
      UpToFrame (.unknownLocal name frame) (.unknownLocal name frame')

inductive Binding.Passes (invoker : FrameId) : Binding → Number → Prop
  | value (value : Number) : Passes invoker (.value value) value
  | constant (value : Number) : Passes invoker (.reference (.constant value) invoker) value

def Session.Ordered (s : Session) (s' t' : Session) : Prop :=
  s' = t' ∧ t'.OrderedBy True ∧ t'.skeleton = s.skeleton

theorem surely_constant (setting : Setting) (n : Nat) (value : Number) (id : FrameId) (s : Session) :
    (setting.solve (n + 1) (.constant value) id).Surely s value s :=
  (Eval.surely_tick s).andThen (Eval.surely_pure value s)

section Arguments

variable {setting : Setting} (standard : setting.registry = .standard) {s : Session}
  {invoker : FrameId} (live : invoker < s.frames.size) {args : List Expr} {n k : Nat}
  (less : n < k)

def Session.following (s : Session) : Eval.Congruence := Eval.following Eq s.Ordered Eq.refl

include standard live in
theorem solve_ordered (le : n ≤ k) (expr : Expr) :
    s.following.Rel Eq (setting.solve n expr invoker) (setting.solve k expr invoker) := by
  let C := orderCorrespondence True []
  let w : C.World := ⟨s.skeleton, List.nil_prefix⟩
  have frames : C.frame w invoker invoker := ⟨rfl, s.length_skeleton.symm ▸ live⟩
  have related : (C.lasting 0).Related w Eq (setting.solve n expr invoker)
      (setting.solve k expr invoker) :=
    (machines_lasting standard (settles_order []) 0 le).solve rfl frames
  intro s' t' ordered
  obtain ⟨rfl, ordered, stack⟩ := ordered
  refine (related.follows (solve_lasts standard k expr invoker) ⟨rfl, ordered, stack⟩).mono
    (fun _ _ => id) ?_
  rintro s t ⟨rfl, ordered, stack⟩
  exact ⟨rfl, ordered, stack⟩

include standard live less

theorem lambdaBinding_followed {arg : Expr} (passed : arg.PassedByValue) :
    s.following.Rel (Binding.Passes invoker)
      ((setting.machine n (setting.solve n)).lambdaBinding arg invoker)
      (setting.solve k arg invoker) := by
  have solved : s.following.Rel (Binding.Passes invoker)
      (do return .value (← setting.solve n arg invoker)) (setting.solve k arg invoker) := by
    rw [← bind_pure (setting.solve k arg invoker)]
    exact s.following.andThenSame (solve_ordered standard live (Nat.le_of_lt less) arg)
      fun value => s.following.value (.value value)
  cases arg with
  | constant value =>
      intro s' t' now
      obtain ⟨k, rfl⟩ := Nat.exists_eq_succ_of_ne_zero (Nat.ne_zero_of_lt less)
      exact .sure (Eval.surely_pure _ s') (surely_constant setting k value invoker t')
        (.constant value) now
  | binary | unary | assign | call => exact solved
  | _ => exact passed.elim

theorem lambdaBinding_follows {arg : Expr} (passed : arg.PassedByValue) :
    s.following.Rel (fun value binding => Binding.Passes invoker binding value)
      (setting.solve n arg invoker)
      ((setting.machine k (setting.solve k)).lambdaBinding arg invoker) := by
  have solved : s.following.Rel (fun value binding => Binding.Passes invoker binding value)
      (setting.solve n arg invoker) (do return .value (← setting.solve k arg invoker)) := by
    rw [← bind_pure (setting.solve n arg invoker)]
    exact s.following.andThenSame (solve_ordered standard live (Nat.le_of_lt less) arg)
      fun value => s.following.value (.value value)
  cases arg with
  | constant value =>
      intro s' t' now
      cases n with
      | zero => exact .exhausted
      | succ n =>
          exact .sure (surely_constant setting n value invoker s') (Eval.surely_pure _ t')
            (.constant value) now
  | binary | unary | assign | call => exact solved
  | _ => exact passed.elim

variable (passed : ∀ arg ∈ args, arg.PassedByValue)
include passed

theorem arguments_followed :
    s.following.Rel
      (fun bindings values =>
        bindings.length = args.length ∧ List.Forall₂ (Binding.Passes invoker) bindings values)
      (args.mapM ((setting.machine n (setting.solve n)).lambdaBinding · invoker))
      (Argument.solveAll (setting.machine k (setting.solve k)) args invoker) :=
  s.following.mapM (r := fun arg arg' => arg = arg' ∧ arg.PassedByValue)
    (List.forall₂_same.mpr fun arg mem => ⟨rfl, passed arg mem⟩)
    fun _ _ both => both.1 ▸ lambdaBinding_followed standard live less both.2

theorem arguments_follow :
    s.following.Rel
      (fun values bindings => values.length = args.length ∧
        List.Forall₂ (fun value binding => Binding.Passes invoker binding value) values bindings)
      (Argument.solveAll (setting.machine n (setting.solve n)) args invoker)
      (args.mapM ((setting.machine k (setting.solve k)).lambdaBinding · invoker)) :=
  s.following.mapM (r := fun arg arg' => arg = arg' ∧ arg.PassedByValue)
    (List.forall₂_same.mpr fun arg mem => ⟨rfl, passed arg mem⟩)
    fun _ _ both => both.1 ▸ lambdaBinding_follows standard live less both.2

end Arguments

theorem taken_constant (m : Machine) (value : Number) (id : FrameId) :
    m.taken (.constant value) id = m.solve (.constant value) id := by
  refine m.taken_eq (fun name same => ?_) id
  cases same

structure Frame.Closes (fr : Frame) (aliases : List String) (values : List Number)
    (reads : String → Prop) (invoker definition : FrameId) : Prop where
  captures : fr.captures = true
  parent : fr.parent = some definition
  locals : ∀ name, reads name →
    Option.Rel (Binding.Passes invoker) fr.locals[Text.fold name]? (inPlaceOf aliases values name)

theorem Session.lookup_captured {s : Session} {id parent : FrameId} {fr : Frame} {name : String}
    (here : s.frames[id]? = some fr) (captures : fr.captures = true) (link : fr.parent = some parent)
    (lower : parent < id) (absent : fr.locals[Text.fold name]? = none) :
    s.lookup name id = s.lookup name parent := by
  rw [lookup, lookupFolded, here]
  dsimp only
  rw [absent, captures, link]
  exact if_pos lower

section Body

variable {setting : Setting} (standard : setting.registry = .standard) {n k : Nat}

include standard in
theorem taken_captured {g : Ground} {a b : Session} (now : g.Now a b) {id f f' : FrameId}
    (low : id < g.shared) {name : String} (found : a.lookup name f = a.lookup name id)
    (found' : b.lookup name f' = b.lookup name id) (le : n ≤ k) :
    Eval.Follows RuntimeError.UpToFrame g.Now Eq
      ((setting.machine n (setting.solve n)).taken (.localVar name) f) a
      ((setting.machine k (setting.solve k)).taken (.localVar name) f') b := by
  have required : Eval.Follows RuntimeError.UpToFrame g.Now (g.Held id) (Eval.require name f) a
      (Eval.require name f') b := by
    apply Eval.Follows.afterFirst (Eval.surely_session a)
    apply Eval.Follows.afterSecond (Eval.surely_session b)
    have lookups : Option.Rel (g.Held id) (a.lookup name f) (b.lookup name f') := by
      rw [found, found']
      exact now.lookupFolded (Text.fold name) (.shared low)
    generalize a.lookup name f = binding at lookups ⊢
    generalize b.lookup name f' = binding' at lookups ⊢
    cases lookups with
    | some held => exact .value held now
    | none =>
        apply Eval.Follows.afterFirst (Eval.surely_session a)
        apply Eval.Follows.afterSecond (Eval.surely_session b)
        exact .throwing (.unknownLocal name _ _) now
  exact required.andThen (fun _ _ a b held now =>
    g.follows_resolve .refl standard le held a b now) fun _ _ now => now

theorem first_passes {fault : RuntimeError → RuntimeError → Prop} {now : Session → Session → Prop}
    {a b : Session} (held : now a b) {invoker id : FrameId} {binding : Binding} {value : Number}
    (passes : binding.Passes invoker value) (positive : 0 < k) :
    Eval.Follows fault now Eq ((setting.machine n (setting.solve n)).resolve binding) a
      (setting.solve k (.constant value) id) b := by
  obtain ⟨k, rfl⟩ := Nat.exists_eq_succ_of_ne_zero (Nat.ne_of_gt positive)
  have constant := surely_constant setting k value id b
  cases passes with
  | value => exact .sure (Eval.surely_pure value a) constant rfl held
  | constant =>
      cases n with
      | zero => exact .exhausted
      | succ n => exact .sure (surely_constant setting n value invoker a) constant rfl held

theorem second_passes {fault : RuntimeError → RuntimeError → Prop} {now : Session → Session → Prop}
    {a b : Session} (held : now a b) {invoker id : FrameId} {binding : Binding} {value : Number}
    (passes : binding.Passes invoker value) (positive : 0 < k) :
    Eval.Follows fault now Eq (setting.solve n (.constant value) id) a
      ((setting.machine k (setting.solve k)).resolve binding) b := by
  obtain ⟨k, rfl⟩ := Nat.exists_eq_succ_of_ne_zero (Nat.ne_of_gt positive)
  cases n with
  | zero => exact .exhausted
  | succ n =>
      have constant := surely_constant setting n value id a
      cases passes with
      | value => exact .sure constant (Eval.surely_pure value b) rfl held
      | constant => exact .sure constant (surely_constant setting k value invoker b) rfl held

variable {s : Session} {fr : Frame} {aliases : List String} {values : List Number}
  {reads : String → Prop} {invoker definition : FrameId}
  (closes : fr.Closes aliases values reads invoker definition)
include closes

theorem Frame.Closes.cases {name : String} (read : reads name) {a : Session} {top : FrameId}
    (here : a.frames[top]? = some fr) (lower : definition < top) :
    (∃ binding value, binding.Passes invoker value ∧ a.lookup name top = some binding ∧
        (Expr.localVar name).substitute (inPlaceOf aliases (values.map .constant)) =
          .constant value) ∨
      a.lookup name top = a.lookup name definition ∧
        (Expr.localVar name).substitute (inPlaceOf aliases (values.map .constant)) =
          .localVar name := by
  have bound := closes.locals name read
  rw [Expr.substitute, inPlaceOf_map]
  generalize inPlaceOf aliases values name = value at bound ⊢
  generalize binds : fr.locals[Text.fold name]? = binding at bound
  cases bound with
  | some passes => exact .inl ⟨_, _, passes, Session.lookup_here here binds, rfl⟩
  | none => exact .inr ⟨Session.lookup_captured here closes.captures closes.parent lower binds, rfl⟩

variable (live : definition < s.frames.size)
include standard live

theorem values_simulate :
    Expr.Simulates ((Ground.under s fr).following RuntimeError.UpToFrame.refl) setting reads
      (fun _ => none) (inPlaceOf aliases (values.map .constant)) s.frames.size definition := by
  let g := Ground.under s fr
  have low : definition < g.shared := live
  refine g.simulates _ (fun {name} read {n k} less a b now => ?_)
    (fun {name} read {n k} less a b now => ?_)
  all_goals
    have positive : 0 < k := Nat.zero_lt_of_lt less
    obtain ⟨binding, value, passes, found, place⟩ | ⟨found, place⟩ :=
      closes.cases read (Ground.Now.top now) live
    all_goals rw [place, Expr.substitute]
  · cases n with
    | zero => exact .exhausted
    | succ n => exact firstReads found (first_passes now passes positive)
  · cases n with
    | zero => exact .exhausted
    | succ n =>
        obtain ⟨k, rfl⟩ := Nat.exists_eq_succ_of_ne_zero (Nat.ne_of_gt positive)
        apply Eval.Follows.afterFirst (Eval.surely_tick a)
        apply Eval.Follows.afterSecond (Eval.surely_tick b)
        have le : n ≤ k := Nat.le_of_succ_le (Nat.le_of_lt_succ less)
        exact taken_captured standard now low found rfl le
  · rw [taken_constant]
    exact firstTakes found (first_passes now passes positive)
  · exact taken_captured standard now low found rfl (Nat.le_of_lt less)

theorem locals_simulate :
    Expr.Simulates ((Ground.under s fr).flip.following RuntimeError.UpToFrame.refl) setting reads
      (inPlaceOf aliases (values.map .constant)) (fun _ => none) definition s.frames.size := by
  let g := (Ground.under s fr).flip
  have low : definition < g.shared := live
  refine g.simulates _ (fun {name} read {n k} less a b now => ?_)
    (fun {name} read {n k} less a b now => ?_)
  all_goals
    obtain ⟨k, rfl⟩ := Nat.exists_eq_succ_of_ne_zero (Nat.ne_zero_of_lt less)
    obtain ⟨binding, value, passes, found, place⟩ | ⟨found, place⟩ :=
      closes.cases read (Ground.Now.flip now).top live
    all_goals rw [place, Expr.substitute]
  · cases n with
    | zero => exact .exhausted
    | succ n =>
        exact secondReads found
          (second_passes now passes (Nat.zero_lt_of_lt (Nat.lt_of_succ_lt_succ less)))
  · cases n with
    | zero => exact .exhausted
    | succ n =>
        apply Eval.Follows.afterFirst (Eval.surely_tick a)
        apply Eval.Follows.afterSecond (Eval.surely_tick b)
        exact taken_captured standard now low rfl found (Nat.le_of_lt (Nat.lt_of_succ_lt_succ less))
  · rw [taken_constant]
    exact secondTakes found (second_passes now passes (Nat.succ_pos k))
  · exact taken_captured standard now low rfl found (Nat.le_of_lt less)

end Body

section Call

/-- A lambda that only computes. Apart from its arguments, which have names that differ in more than the
case of letters, its body may read the locals that it captures, but no argument by its position. -/
structure Lambda.Computes (aliases : List String) (body : Expr) : Prop where
  distinct : (aliases.map Text.fold).Nodup
  body : body.Computes fun name => ¬Positional aliases.length name

theorem closes_ofLambda {aliases : List String} {bindings : List Binding} {values : List Number}
    {invoker : FrameId} (distinct : (aliases.map Text.fold).Nodup)
    (all : List.Forall₂ (Binding.Passes invoker) bindings values)
    (lengths : bindings.length = aliases.length) (definition : FrameId) :
    ((Frame.ofLambda definition).withArguments 0 bindings aliases).Closes aliases values
      (fun name => ¬Positional aliases.length name) invoker definition := by
  have bare := Frame.bare_withArguments 0 bindings aliases (.ofLambda definition)
  refine ⟨congrArg Frame.captures bare, congrArg Frame.parent bare, fun name named => ?_⟩
  rw [← lengths, ← Nat.zero_add bindings.length] at named
  have none : (Frame.ofLambda definition).locals[Text.fold name]? = none :=
    Std.TreeMap.getElem?_emptyc
  rw [Frame.locals_withArguments distinct named, none, Option.or_none]
  exact inPlaceOf_rel all aliases name

variable {setting : Setting} (standard : setting.registry = .standard) {s : Session}
  (stacked : s.WellStacked) {invoker definition : FrameId} (live : invoker < s.frames.size)
  (live' : definition < s.frames.size) {aliases : List String} {body : Expr}
  (computes : Lambda.Computes aliases body) {args : List Expr}
  (lengths : args.length = aliases.length) (passed : ∀ arg ∈ args, arg.PassedByValue) {n k : Nat}
  (less : n < k)

/-- Evaluating the arguments of a lambda and then its body with the values in place of their aliases. -/
def Setting.applied (setting : Setting) (fuel : Nat) (aliases : List String) (body : Expr)
    (args : List Expr) (invoker definition : FrameId) : Eval Number := do
  let values ← Argument.solveAll (setting.machine fuel (setting.solve fuel)) args invoker
  setting.solve fuel (body.substitute (inPlaceOf aliases (values.map .constant))) definition

include standard live' computes less

section Body

variable {s' : Session} (ordered : s'.OrderedBy True) (stack : s'.skeleton = s.skeleton)
  {bindings : List Binding} {values : List Number}
  (all : List.Forall₂ (Binding.Passes invoker) bindings values)
  (counts : bindings.length = aliases.length)
include ordered stack all counts

theorem body_followed :
    Eval.Follows RuntimeError.UpToFrame Eq Eq
      (Eval.withFrame (.ofLambda definition) fun frame => do
        Machine.bindArguments 0 bindings aliases frame
        setting.solve n body frame) s'
      (setting.solve k (body.substitute (inPlaceOf aliases (values.map .constant))) definition) s' := by
  have height : s'.frames.size = s.frames.size := by
    rw [← s'.length_skeleton, stack, s.length_skeleton]
  let fr := (Frame.ofLambda definition).withArguments 0 bindings aliases
  have bodies := (values_simulate standard (closes_ofLambda computes.distinct all counts definition)
    (height ▸ live')).solve standard less computes.body _ _
    (Ground.now_push (s'.wellStacked_iff.mpr ordered) fr)
  rw [computes.body.substitute_none] at bodies
  have inside := bodies.afterFirst (f := fun _ => setting.solve n body s'.frames.size)
    (surely_bindArguments s' (.ofLambda definition) 0 bindings aliases)
  exact inside.firstInFrame fun _ _ now => now.cutTo_eq

theorem body_follows :
    Eval.Follows RuntimeError.UpToFrame Eq Eq
      (setting.solve n (body.substitute (inPlaceOf aliases (values.map .constant))) definition) s'
      (Eval.withFrame (.ofLambda definition) fun frame => do
        Machine.bindArguments 0 bindings aliases frame
        setting.solve k body frame) s' := by
  have height : s'.frames.size = s.frames.size := by
    rw [← s'.length_skeleton, stack, s.length_skeleton]
  let fr := (Frame.ofLambda definition).withArguments 0 bindings aliases
  have bodies := (locals_simulate standard (closes_ofLambda computes.distinct all counts definition)
    (height ▸ live')).solve standard less computes.body _ _
    (Ground.now_push (s'.wellStacked_iff.mpr ordered) fr).flip
  rw [computes.body.substitute_none] at bodies
  have inside := bodies.afterSecond (g := fun _ => setting.solve k body s'.frames.size)
    (surely_bindArguments s' (.ofLambda definition) 0 bindings aliases)
  exact inside.secondInFrame fun _ _ now => now.flip.cutTo_eq.symm

end Body

include stacked live lengths passed

theorem call_followed_by_applied :
    Eval.Follows RuntimeError.UpToFrame Eq Eq
      ((setting.machine n (setting.solve n)).call (.lambda aliases body) args invoker definition) s
      (setting.applied k aliases body args invoker definition) s := by
  have arguments := arguments_followed standard live less passed s s
    ⟨rfl, s.wellStacked_iff.mp stacked, rfl⟩
  refine (arguments.mono (fun error _ same => same ▸ .refl error) fun _ _ => id).andThen ?_
    fun _ _ now => now.1
  rintro bindings values s' _ ⟨count, all⟩ ⟨rfl, ordered, stack⟩
  exact body_followed standard live' computes less ordered stack all (count.trans lengths)

theorem applied_followed_by_call :
    Eval.Follows RuntimeError.UpToFrame Eq Eq
      (setting.applied n aliases body args invoker definition) s
      ((setting.machine k (setting.solve k)).call (.lambda aliases body) args invoker definition)
      s := by
  have arguments := arguments_follow standard live less passed s s
    ⟨rfl, s.wellStacked_iff.mp stacked, rfl⟩
  refine (arguments.mono (fun error _ same => same ▸ .refl error) fun _ _ => id).andThen ?_
    fun _ _ now => now.1
  rintro values bindings s' _ ⟨count, all⟩ ⟨rfl, ordered, stack⟩
  have passes := List.Forall₂.flip all
  exact body_follows standard live' computes less ordered stack passes
    (passes.length_eq.trans (count.trans lengths))

end Call

/-- Calling a lambda by value is evaluating its arguments, each of them once and from left to right,
where it is called, and then its body, where it was found, with the values in place of their aliases:
the one comes to a result exactly where the other does, and leaves the same session. The results are
the same but for the frame in which a local is missed. -/
theorem call_by_value (imply : Bool) {s : Session} (stacked : s.WellStacked)
    {invoker definition : FrameId} (live : invoker < s.frames.size)
    (live' : definition < s.frames.size) {aliases : List String} {body : Expr}
    (computes : Lambda.Computes aliases body) {args : List Expr}
    (lengths : args.length = aliases.length) (passed : ∀ arg ∈ args, arg.PassedByValue)
    (result : Except RuntimeError Number) (after : Session) :
    let setting : Setting := ⟨.standard, imply⟩
    let called : Nat → Eval Number := fun n =>
      (setting.machine n (setting.solve n)).call (.lambda aliases body) args invoker definition
    let applied : Nat → Eval Number := (setting.applied · aliases body args invoker definition)
    (Eval.Ends called s result after → ∃ result', Eval.Ends applied s result' after ∧
      Results RuntimeError.UpToFrame Eq result result') ∧
    (Eval.Ends applied s result after → ∃ result', Eval.Ends called s result' after ∧
      Results RuntimeError.UpToFrame Eq result result') := by
  intro setting called applied
  have standard : setting.registry = .standard := rfl
  constructor
  · intro ends
    have follows : ∀ n, ∃ k, Eval.Follows RuntimeError.UpToFrame Eq Eq (called n) s (applied k) s :=
      fun n => ⟨n + 1, call_followed_by_applied standard stacked live live' computes lengths passed
        (Nat.lt_succ_self n)⟩
    obtain ⟨result', after', ends', results, rfl⟩ := ends.followed follows
    exact ⟨result', ends', results⟩
  · intro ends
    have follows : ∀ n, ∃ k, Eval.Follows RuntimeError.UpToFrame Eq Eq (applied n) s (called k) s :=
      fun n => ⟨n + 1, applied_followed_by_call standard stacked live live' computes lengths passed
        (Nat.lt_succ_self n)⟩
    obtain ⟨result', after', ends', results, rfl⟩ := ends.followed follows
    exact ⟨result', ends', results⟩

/-- The argument of a lambda is evaluated once, however often its value is read. -/
theorem call_by_value_twice :
    let body : Expr := .binary .sequence (.localVar "a") (.localVar "A")
    let one : Expr := .assign (.globalVar "n") (.constant .one)
    let s : Session := ⟨∅, ∅, #[.main, .ofMacro "m" 0], .withInput .buffer []⟩
    let setting : Setting := ⟨.standard, true⟩
    s.WellStacked ∧ Lambda.Computes ["a"] body ∧ one.PassedByValue ∧
      Eval.Ends
        (fun n => (setting.machine n (setting.solve n)).call (.lambda ["a"] body) [one] 1 0) s
        (.ok .one) (s.setVariable "n" .one) := by
  intro body one s setting
  have same : Text.fold "a" = Text.fold "A" := by decide +kernel
  have stacked : s.WellStacked := by
    have main := Session.wellStacked_main ∅ ∅ (.withInput .buffer [])
    refine s.wellStacked_iff.mpr ((Session.wellStacked_iff _).mp main |>.push ?_)
    refine orderedAt_noLocals rfl fun parent link => ?_
    obtain rfl := Option.some.inj link
    exact Nat.zero_lt_one
  have named : ∀ name, Text.fold name = Text.fold "a" → ¬Positional 1 name := by
    rintro name folded ⟨i, low, position⟩
    obtain rfl := Nat.lt_one_iff.mp low
    exact absurd (folded.symm.trans position) (by decide +kernel)
  have computes : Lambda.Computes ["a"] body :=
    ⟨List.pairwise_singleton .., .binary .sequence (.localVar (named _ rfl))
      (.localVar (named _ same.symm))⟩
  have passed : ∀ arg ∈ [one], arg.PassedByValue := by
    intro arg mem
    rw [List.mem_singleton.mp mem]
    trivial
  refine ⟨stacked, computes, trivial, ?_⟩
  have applied : Eval.Ends (setting.applied · ["a"] body [one] 1 0) s (.ok .one)
      (s.setVariable "n" .one) := by
    have first : (Argument.solveAll (setting.machine 2 (setting.solve 2)) [one] 1).run ⟨6, s⟩ =
        (.value [.one], ⟨3, s.setVariable "n" .one⟩) := rfl
    have lower : inPlaceOf ["a"] [Expr.constant .one] "a" = some (.constant .one) := if_pos rfl
    have upper : inPlaceOf ["a"] [Expr.constant .one] "A" = some (.constant .one) := if_pos same
    have substituted : body.substitute (inPlaceOf ["a"] ([Number.one].map .constant)) =
        .binary .sequence (.constant .one) (.constant .one) := by
      simp only [body, Expr.substitute, List.map_cons, List.map_nil, lower, upper, Option.getD_some]
    refine ⟨2, 6, 0, ?_⟩
    change (setting.applied 2 ["a"] body [one] 1 0).run ⟨6, s⟩ = _
    rw [Setting.applied, Eval.run_bind, first]
    dsimp only
    rw [substituted]
    rfl
  have called := (call_by_value true stacked (by decide) (by decide) computes rfl passed _ _).2 applied
  obtain ⟨result, ends, results⟩ := called
  cases results with
  | value same => exact same ▸ ends

end Calculator
