import Calculator.Proofs.Correspondence.Lasting

/-! Expressions with other expressions in place of their locals.

What is computed depends on a local only through the evaluations of that local. So two expressions that
have different things in place of a local follow each other if these do. -/

namespace Calculator

namespace Expr

mutual

/-- An expression with other expressions in place of its locals. The names that a lambda gives to its
arguments stand for these. -/
def substitute (replace : String → Option Expr) : Expr → Expr
  | .constant value => .constant value
  | .globalVar name => .globalVar name
  | .localVar name => (replace name).getD (.localVar name)
  | .macroRef name args definable => .macroRef name (substituteAll replace args) definable
  | .lambda aliases body =>
    .lambda aliases (body.substitute fun name =>
      if Text.fold name ∈ aliases.map Text.fold then none else replace name)
  | .pointer address => .pointer (address.substitute replace)
  | .localPointer address => .localPointer (address.substitute replace)
  | .assign target value => .assign (target.substitute replace) (value.substitute replace)
  | .binary op left right => .binary op (left.substitute replace) (right.substitute replace)
  | .unary op operand => .unary op (operand.substitute replace)
  | .call name args => .call name (substituteAll replace args)
  | .quote text => .quote text

def substituteAll (replace : String → Option Expr) : List Expr → List Expr
  | [] => []
  | e :: rest => e.substitute replace :: substituteAll replace rest

end

theorem substituteAll_eq (replace : String → Option Expr) (exprs : List Expr) :
    substituteAll replace exprs = exprs.map (substitute replace) := by
  induction exprs with
  | nil => rfl
  | cons e rest ih => rw [substituteAll, ih, List.map_cons]

end Expr

def inPlaceOf {α : Type} : List String → List α → String → Option α
  | other :: aliases, value :: values, name =>
    if Text.fold other = Text.fold name then some value else inPlaceOf aliases values name
  | _, _, _ => none

section InPlace

variable {α β : Type} {aliases : List String} {values : List α} {name : String}

theorem inPlaceOf_map (f : α → β) (aliases : List String) (values : List α) (name : String) :
    inPlaceOf aliases (values.map f) name = (inPlaceOf aliases values name).map f := by
  induction aliases generalizing values with
  | nil => rfl
  | cons other aliases ih =>
      cases values with
      | nil => rfl
      | cons value values =>
          rw [List.map_cons, inPlaceOf, inPlaceOf]
          split
          · rfl
          · exact ih values

theorem inPlaceOf_none (absent : Text.fold name ∉ aliases.map Text.fold) (values : List α) :
    inPlaceOf aliases values name = none := by
  induction aliases generalizing values with
  | nil => rfl
  | cons other aliases ih =>
      rw [List.map_cons, List.mem_cons, not_or] at absent
      cases values with
      | nil => rfl
      | cons value values =>
          rw [inPlaceOf, if_neg (Ne.symm absent.1)]
          exact ih absent.2 values

theorem inPlaceOf_some (present : Text.fold name ∈ aliases.map Text.fold)
    (lengths : values.length = aliases.length) :
    ∃ value ∈ values, inPlaceOf aliases values name = some value := by
  induction aliases generalizing values with
  | nil => cases present
  | cons other aliases ih =>
      cases values with
      | nil => cases lengths
      | cons value values =>
          rw [inPlaceOf]
          split
          · exact ⟨value, .head _, rfl⟩
          · rename_i different
            rw [List.map_cons, List.mem_cons] at present
            obtain ⟨found, mem, same⟩ :=
              ih (present.resolve_left (Ne.symm different)) (Nat.succ.inj lengths)
            exact ⟨found, .tail _ mem, same⟩

theorem inPlaceOf_rel {r : α → β → Prop} {others : List β} (all : List.Forall₂ r values others)
    (aliases : List String) (name : String) :
    Option.Rel r (inPlaceOf aliases values name) (inPlaceOf aliases others name) := by
  induction all generalizing aliases with
  | nil => cases aliases <;> exact .none
  | cons first _ ih =>
      cases aliases with
      | nil => exact .none
      | cons other aliases =>
          rw [inPlaceOf, inPlaceOf]
          split
          · exact .some first
          · exact ih aliases

end InPlace

def Builtin.evaluating : List String :=
  ["if", "else", "switch", "while", "dowhile", "for", "repeat", "eval"] ++ mathTable.map Prod.fst

theorem Builtin.onlyEvaluates_evaluating {name : String} (mem : name ∈ evaluating) :
    ∃ builtin, (name, builtin) ∈ standardTable ∧ OnlyEvaluates builtin := by
  rcases List.mem_append.mp mem with control | math
  · simp only [List.mem_cons, List.not_mem_nil, or_false] at control
    rcases control with rfl | rfl | rfl | rfl | rfl | rfl | rfl | rfl
    · exact ⟨⟨.oneOf [2, 3], ifThen⟩, by simp [standardTable, controlTable], onlyEvaluates_ifThen⟩
    · exact ⟨⟨.exact 2, elseThen⟩, by simp [standardTable, controlTable], onlyEvaluates_elseThen⟩
    · exact ⟨⟨.atLeast 1, switch⟩, by simp [standardTable, controlTable], onlyEvaluates_switch⟩
    · exact ⟨⟨.exact 2, whileLoop⟩, by simp [standardTable, controlTable], onlyEvaluates_whileLoop⟩
    · exact ⟨⟨.exact 2, doWhile⟩, by simp [standardTable, controlTable], onlyEvaluates_doWhile⟩
    · exact ⟨⟨.exact 4, forLoop⟩, by simp [standardTable, controlTable], onlyEvaluates_forLoop⟩
    · exact ⟨⟨.exact 2, repeatTimes⟩, by simp [standardTable, controlTable], onlyEvaluates_repeatTimes⟩
    · exact ⟨⟨.exact 1, eval⟩, by simp [standardTable, programTable], onlyEvaluates_eval⟩
  · obtain ⟨entry, entries, rfl⟩ := List.mem_map.mp math
    refine ⟨entry.2, ?_, onlyEvaluates_mathTable entry entries⟩
    simp only [standardTable, List.mem_append]
    exact .inl (.inr entries)

namespace Expr

/-- Expressions that compute: their only effects are on variables, and what they read of a frame are
certain locals. -/
inductive Computes (reads : String → Prop) : Expr → Prop
  | constant (value : Number) : Computes reads (.constant value)
  | quote (text : String) : Computes reads (.quote text)
  | globalVar (name : String) : Computes reads (.globalVar name)
  | localVar {name : String} (read : reads name) : Computes reads (.localVar name)
  | unary (op : UnaryOp) {operand : Expr} (operands : Computes reads operand) :
      Computes reads (.unary op operand)
  | binary (op : BinaryOp) {left right : Expr} (lefts : Computes reads left)
      (rights : Computes reads right) : Computes reads (.binary op left right)
  | assign (name : String) {value : Expr} (values : Computes reads value) :
      Computes reads (.assign (.globalVar name) value)
  | call {name : String} {args : List Expr} (function : Text.fold name ∈ Builtin.evaluating)
      (parts : ∀ arg ∈ args, Computes reads arg) : Computes reads (.call name args)

variable {reads : String → Prop} {e : Expr}

theorem Computes.substitute_none (computes : e.Computes reads) :
    e.substitute (fun _ => none) = e := by
  induction computes with
  | constant | quote | globalVar | localVar => rfl
  | unary op _ operand => rw [substitute, operand]
  | binary op _ _ left right => rw [substitute, left, right]
  | assign name _ value => rw [substitute, substitute, value]
  | call function _ parts =>
      rw [substitute, substituteAll_eq, List.map_congr_left parts, List.map_id']

theorem Computes.local_or_not (computes : e.Computes reads) :
    (∃ name, reads name ∧ e = .localVar name) ∨
      ∀ replace name, e.substitute replace ≠ .localVar name := by
  cases computes with
  | localVar read => exact .inl ⟨_, read, rfl⟩
  | _ =>
      refine .inr fun replace name same => ?_
      rw [substitute] at same
      cases same

end Expr

def Machine.taken (m : Machine) (expr : Expr) (frame : FrameId) : Eval Number := do
  m.resolve (← m.handOn expr frame)

theorem Machine.taken_eq (m : Machine) {expr : Expr} (other : ∀ name, expr ≠ .localVar name)
    (frame : FrameId) : m.taken expr frame = m.solve expr frame := by
  unfold taken handOn
  cases expr with
  | localVar name => exact absurd rfl (other name)
  | _ =>
      rw [bind_assoc]
      exact bind_pure _

theorem Machine.assignment_globalVar (m : Machine) (name : String) (value : Expr)
    (frame : FrameId) :
    m.assignment (.globalVar name) value frame = do
      let x ← m.taken value frame
      Eval.setVariable name x
      return x := by
  unfold taken
  rw [bind_assoc]
  rfl

theorem Setting.solve_localVar (setting : Setting) (fuel : Nat) (name : String) (frame : FrameId) :
    setting.solve (fuel + 1) (.localVar name) frame =
      (do Eval.tick; (setting.machine fuel (setting.solve fuel)).taken (.localVar name) frame) :=
  rfl

namespace Correspondence.Machines

variable {C : Correspondence} {w : C.World} {m m' : Machine} (h : C.Machines m m') {e e' : Expr}
  {f f' : FrameId}
include h

theorem taken (exprs : C.expr e e') (frames : C.frame w f f') :
    C.Related w Eq (m.taken e f) (m'.taken e' f') :=
  (h.handOn exprs frames).andThen fun _ _ bindings =>
    h.resolve (C.binding_layer frames bindings)

end Correspondence.Machines

theorem taken_lasts {setting : Setting} (standard : setting.registry = .standard) (fuel : Nat)
    (expr : Expr) (id : FrameId) :
    ((setting.machine fuel (setting.solve fuel)).taken expr id).Lasts :=
  Eval.lasts_of_related fun spare _ =>
    (machines_lasting standard settles_stack spare (Nat.le_refl fuel)).taken rfl rfl

/-- Evaluations in two frames, with different things in place of the same locals. -/
structure Expr.Simulates (K : Eval.Congruence) (setting : Setting) (reads : String → Prop)
    (replace replace' : String → Option Expr) (f f' : FrameId) : Prop where
  bounds {n k : Nat} : n ≤ k → K.Bounds n k
  tick : K.Rel Eq Eval.tick Eval.tick
  readVariable (name : String) : K.Rel Eq (Eval.readVariable name) (Eval.readVariable name)
  setVariable (name : String) (value : Number) :
    K.Rel Eq (Eval.setVariable name value) (Eval.setVariable name value)
  read {name : String} (read : reads name) {n k : Nat} (less : n < k) :
    K.Rel Eq (setting.solve n ((Expr.localVar name).substitute replace) f)
      (setting.solve k ((Expr.localVar name).substitute replace') f')
  take {name : String} (read : reads name) {n k : Nat} (less : n < k) :
    K.Rel Eq
      ((setting.machine n (setting.solve n)).taken ((Expr.localVar name).substitute replace) f)
      ((setting.machine k (setting.solve k)).taken ((Expr.localVar name).substitute replace') f')

namespace Expr.Simulates

variable {K : Eval.Congruence} {setting : Setting} {reads : String → Prop}
  {replace replace' : String → Option Expr} {f f' : FrameId}

theorem binary (op : BinaryOp) {n k : Nat} {left left' right right' : Expr}
    (lefts : K.Rel Eq (setting.solve n left f) (setting.solve k left' f'))
    (rights : K.Rel Eq (setting.solve n right f) (setting.solve k right' f')) :
    K.Rel Eq ((setting.machine n (setting.solve n)).binary op left right f)
      ((setting.machine k (setting.solve k)).binary op left' right' f') := by
  apply K.andThenSame lefts
  intro x
  cases op with
  | value op => exact K.andThenSame rights fun _ => K.value rfl
  | and =>
      dsimp only
      split
      · exact K.andThenSame rights fun _ => K.value rfl
      · exact K.value rfl
  | or =>
      dsimp only
      split
      · exact K.value rfl
      · exact K.andThenSame rights fun _ => K.value rfl
  | xor => exact K.andThenSame rights fun _ => K.value rfl
  | sequence => exact rights

theorem call {name : String} (function : Text.fold name ∈ Builtin.evaluating) {m m' : Machine}
    (bounds : K.Bounds m.fuel m'.fuel) {args args' : List Expr}
    (arguments : K.Arguments m m' args args' f f') :
    K.Rel Eq (Registry.standard.call m name args f) (Registry.standard.call m' name args' f') := by
  obtain ⟨builtin, mem, evaluates⟩ := Builtin.onlyEvaluates_evaluating function
  unfold Registry.call
  rw [Registry.find_standard mem rfl, ← arguments.length_eq]
  dsimp only
  split
  · rename_i accepted
    exact evaluates K bounds arguments fun _ => accepted
  · have start : Argument.OtherMessage "expects " := rfl
    exact K.refuse (((start.append _).append _).append _)

variable (simulates : Simulates K setting reads replace replace' f f')
include simulates

/-- What an expression computes follows from what stands in place of its locals. The induction is on the
fuel, of which the second evaluation is always given more. -/
theorem solve (standard : setting.registry = .standard) {n k : Nat} (less : n < k) {e : Expr}
    (computes : e.Computes reads) :
    K.Rel Eq (setting.solve n (e.substitute replace) f)
      (setting.solve k (e.substitute replace') f') := by
  induction n generalizing k e with
  | zero =>
      exact K.outOfFuel (y := fun k => setting.solve k (e.substitute replace') f')
        (simulates.bounds (Nat.zero_le k)) rfl
  | succ n ih =>
      obtain ⟨k, rfl⟩ := Nat.exists_eq_succ_of_ne_zero (Nat.ne_zero_of_lt less)
      have fewer : n < k := Nat.lt_of_succ_lt_succ less
      cases computes with
      | localVar read => exact simulates.read read less
      | constant value => exact K.andThenSame simulates.tick fun _ => K.value rfl
      | quote text => exact K.andThenSame simulates.tick fun _ => K.value rfl
      | globalVar name => exact K.andThenSame simulates.tick fun _ => simulates.readVariable name
      | unary op operands =>
          apply K.andThenSame simulates.tick
          intro _
          exact K.andThenSame (ih fewer operands) fun _ => K.value rfl
      | binary op lefts rights =>
          exact K.andThenSame simulates.tick fun _ => binary op (ih fewer lefts) (ih fewer rights)
      | @assign name value values =>
          have taken : K.Rel Eq
              ((setting.machine n (setting.solve n)).taken (value.substitute replace) f)
              ((setting.machine k (setting.solve k)).taken (value.substitute replace') f') := by
            rcases values.local_or_not with ⟨name, read, rfl⟩ | other
            · exact simulates.take read fewer
            · rw [Machine.taken_eq _ (other replace), Machine.taken_eq _ (other replace')]
              exact ih fewer values
          apply K.andThenSame simulates.tick
          intro _
          change K.Rel Eq (Machine.assignment _ (.globalVar name) (value.substitute replace) f)
            (Machine.assignment _ (.globalVar name) (value.substitute replace') f')
          rw [Machine.assignment_globalVar, Machine.assignment_globalVar]
          apply K.andThenSame taken
          intro x
          exact K.andThenSame (simulates.setVariable name x) fun _ => K.value rfl
      | @call name args function parts =>
          apply K.andThenSame simulates.tick
          intro _
          change K.Rel Eq (setting.registry.call _ name (substituteAll replace args) f)
            (setting.registry.call _ name (substituteAll replace' args) f')
          rw [standard, substituteAll_eq, substituteAll_eq]
          refine call function (simulates.bounds (Nat.le_of_lt fewer)) ?_
          unfold Eval.Congruence.Arguments
          rw [List.forall₂_map_left_iff, List.forall₂_map_right_iff, List.forall₂_same]
          exact fun arg mem => ih fewer (parts arg mem)

end Expr.Simulates

end Calculator
