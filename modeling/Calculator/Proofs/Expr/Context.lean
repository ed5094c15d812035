import Calculator.Proofs.Expr.Folding

/-! Where an operand stands in the expression that elements collapse to. The place depends on the
operators around the operand, and not on what the operand is. -/

namespace Calculator

namespace Expr

def joined (symbol : String) (left right : Expr) : Expr :=
  match Operator.info? symbol with
  | some (_, role) => left.build role right
  | none => left

/-- An expression with a hole, made of prefix operators and operators with two operands. -/
inductive Context where
  | hole
  | prefixed (symbol : String) (inner : Context)
  | left (inner : Context) (symbol : String) (right : Expr)
  | right (left : Expr) (symbol : String) (inner : Context)

namespace Context

def fill (e : Expr) : Context → Expr
  | .hole => e
  | .prefixed symbol inner => Element.applied symbol (inner.fill e)
  | .left inner symbol other => joined symbol (inner.fill e) other
  | .right other symbol inner => joined symbol other (inner.fill e)

def lefts : Context → List String
  | .hole => []
  | .prefixed _ inner => inner.lefts
  | .left inner symbol _ => symbol :: inner.lefts
  | .right _ _ inner => inner.lefts

/-- The hole is part of what is assigned to. -/
def InTarget (k : Context) : Prop := ∃ symbol ∈ k.lefts, Operator.tier? symbol = some Operator.assignmentTier

end Context

end Expr

namespace Operator

def decides (symbol : String) : Bool := (tier? symbol).any (assignmentTier ≤ ·)

/-- Whether an assignment comes before any operator that binds looser. -/
def assignsAhead (symbols : List String) : Bool :=
  (symbols.find? decides).any fun symbol => tier? symbol = some assignmentTier

theorem assignsAhead_filter (symbols : List String) :
    assignsAhead (symbols.filter decides) = assignsAhead symbols := by
  simp [assignsAhead]

theorem decides_unary {symbol : String} (unary : isUnary symbol = true) : decides symbol = false := by
  refine Bool.eq_false_iff.mpr fun heavy => ?_
  obtain ⟨tier, found, high⟩ := (Option.any_eq_true _ _).mp heavy
  exact nomatch (isUnary_of_tier found (of_decide_eq_true high)).symm.trans unary

theorem decides_coefficient : decides coefficient = false := by decide +kernel

end Operator

namespace Element

def operators (elements : List Element) : List String :=
  elements.filterMap fun
    | .node _ => none
    | .op symbol => some symbol

theorem operators_append (front more : List Element) :
    operators (front ++ more) = operators front ++ operators more :=
  List.filterMap_append

theorem mem_operators {elements : List Element} {symbol : String} :
    symbol ∈ operators elements ↔ .op symbol ∈ elements := by
  unfold operators
  rw [List.mem_filterMap]
  constructor
  · rintro ⟨e, mem, found⟩
    cases e with
    | node => cases found
    | op other => exact Option.some.inj found ▸ mem
  · exact fun mem => ⟨_, mem, rfl⟩

end Element

namespace Chain

theorem decides_applyFirst {unary : String} (c : Chain) :
    (c.applyFirst unary).symbols.filter Operator.decides = c.symbols.filter Operator.decides := by
  unfold applyFirst
  split
  · rfl
  · exact List.filter_cons_of_neg (by simp [Operator.decides_coefficient])

end Chain

namespace Element

theorem Folds.decides {elements : List Element} {c : Chain} (folds : Folds elements c) :
    c.symbols.filter Operator.decides = (operators elements).filter Operator.decides := by
  induction folds with
  | single => rfl
  | prefixed unary _ ih =>
      rw [Chain.decides_applyFirst, ih]
      exact (List.filter_cons_of_neg (by simp [Operator.decides_unary unary])).symm
  | @joined e symbol elements c _ ih =>
      change (symbol :: c.symbols).filter _ = (symbol :: operators elements).filter _
      rw [List.filter_cons, List.filter_cons, ih]

end Element

namespace Chain

/-- A chain with a hole for an operand. -/
inductive Hole where
  | first (after : List (String × Expr))
  | behind (e : Expr) (symbol : String) (h : Hole)

namespace Hole

def fill (e : Expr) : Hole → Chain
  | .first after => ⟨e, after⟩
  | .behind other symbol h => append ⟨other, []⟩ symbol (h.fill e)

def after : Hole → List String
  | .first after => after.map Prod.fst
  | .behind _ _ h => h.after

theorem symbols_fill (h : Hole) (e other : Expr) : (h.fill e).symbols = (h.fill other).symbols := by
  induction h with
  | first after => rfl
  | behind _ symbol h ih => exact congrArg (symbol :: ·) ih

theorem split {c d : Chain} {symbol : String} {e : Expr} {h : Hole} (whole : h.fill e = c.append symbol d) :
    (∃ k : Hole, d = k.fill e ∧ h.after = k.after ∧ ∀ x, h.fill x = c.append symbol (k.fill x)) ∨
    ∃ k : Hole, c = k.fill e ∧ h.after = k.after ++ symbol :: d.symbols ∧
      ∀ x, h.fill x = (k.fill x).append symbol d := by
  induction h generalizing c with
  | first after =>
      obtain ⟨rfl, rfl⟩ := Chain.mk.inj whole
      exact .inr ⟨.first c.rest, rfl, by simp [Hole.after, symbols], fun x => rfl⟩
  | behind other sign h ih =>
      obtain ⟨_, others⟩ := c
      obtain ⟨rfl, rest⟩ := Chain.mk.inj whole
      cases others with
      | nil =>
          obtain ⟨next, further⟩ := List.cons.inj rest
          obtain ⟨rfl, first⟩ := Prod.mk.inj next
          exact .inl ⟨h, congrArg₂ Chain.mk first.symm further.symm, rfl, fun x => rfl⟩
      | cons next others =>
          obtain ⟨rfl, further⟩ := List.cons.inj rest
          obtain ⟨k, same, ends, fills⟩ | ⟨k, same, ends, fills⟩ :=
            ih (c := ⟨(h.fill e).first, others⟩) (congrArg (Chain.mk _) further)
          · refine .inl ⟨k, same, ends, fun x => ?_⟩
            rw [fill, fills x, append_assoc]
            rfl
          · refine .inr ⟨.behind other sign k, ?_, ends, fun x => ?_⟩
            · rw [fill, ← same]
              rfl
            · rw [fill, fills x, append_assoc]
              rfl

end Hole

section Congr

variable {c c' d d' : Chain} {symbol : String} {tier : Nat} {role : Operator.Role}
  (lefts : c.symbols = c'.symbols) (rights : d.symbols = d'.symbols)

include lefts in
theorem withinTier_congr (within : c.WithinTier tier) : c'.WithinTier tier := by
  rwa [WithinTier, ← lefts]

include lefts in
theorem op_mem_congr {e : Element} {other : String} (isOp : e = .op other) (mem : e ∈ c'.elements) :
    e ∈ c.elements := by
  subst isOp
  rw [op_mem_elements, lefts]
  exact op_mem_elements.mp mem

include lefts rights in
theorem isRoot_congr (isRoot : Element.IsRoot c.elements symbol tier role d.elements) :
    Element.IsRoot c'.elements symbol tier role d'.elements := by
  refine ⟨isRoot.info, fun e mem other tiers => ?_, fun groups e mem => ?_, fun groups e mem => ?_⟩
  · cases e with
    | node => cases tiers
    | op sign =>
        refine isRoot.loosest _ (List.mem_append.mpr ?_) other tiers
        exact (List.mem_append.mp mem).imp (op_mem_congr lefts rfl) (op_mem_congr rights rfl)
  · cases e with
    | node => rfl
    | op sign => exact isRoot.first groups _ (op_mem_congr lefts rfl mem)
  · cases e with
    | node => rfl
    | op sign => exact isRoot.last groups _ (op_mem_congr rights rfl mem)

end Congr

end Chain

namespace Operator

theorem assignsAhead_append (front more : List String) :
    assignsAhead (front ++ more) =
      if (front.find? decides).isSome then assignsAhead front else assignsAhead more := by
  unfold assignsAhead
  rw [List.find?_append]
  cases front.find? decides <;> rfl

theorem assignsAhead_cons (symbol : String) (more : List String) :
    assignsAhead (symbol :: more) =
      if decides symbol then decide (tier? symbol = some assignmentTier) else assignsAhead more := by
  unfold assignsAhead
  rw [List.find?_cons]
  cases decides symbol <;> rfl

theorem decides_of_info {symbol : String} {tier : Nat} {role : Role}
    (info : info? symbol = some (tier, role)) :
    decides symbol = decide (assignmentTier ≤ tier) := by
  simp [decides, tier?, info]

end Operator

namespace Chain

theorem assignsAhead_root {c d : Chain} {symbol : String} {tier : Nat} {role : Operator.Role}
    (isRoot : Element.IsRoot c.elements symbol tier role d.elements) (lefts : c.WithinTier tier)
    (rights : d.WithinTier tier) {after : List String} (within : ∀ other ∈ after, other ∈ c.symbols) :
    Operator.assignsAhead (after ++ symbol :: d.symbols) = true ↔
      Operator.tier? symbol = some Operator.assignmentTier ∨ Operator.assignsAhead after = true := by
  have here : Operator.tier? symbol = some tier := by simp [Operator.tier?, isRoot.info]
  rw [Operator.assignsAhead_append]
  cases found : after.find? Operator.decides with
  | some other =>
      -- The root is a sequence then: an assignment at the root would be the first one of its side.
      obtain ⟨u, _, info, le⟩ := lefts other (within other (List.mem_of_find?_eq_some found))
      have high : Operator.assignmentTier ≤ u := by
        simpa [Operator.decides_of_info info] using List.find?_some found
      have ne : tier ≠ Operator.assignmentTier := by
        rintro rfl
        obtain rfl := Nat.le_antisymm le high
        have mem := op_mem_elements.mpr (within other (List.mem_of_find?_eq_some found))
        exact ne_true_of_eq_false (isRoot.first rfl _ mem) (Element.hasTier_of_info info)
      simp [here, ne]
  | none =>
      have nothing : Operator.assignsAhead after = false := by simp [Operator.assignsAhead, found]
      have decides := Operator.decides_of_info isRoot.info
      simp only [Option.isSome_none, Bool.false_eq_true, if_false, Operator.assignsAhead_cons, decides, here,
        nothing, or_false]
      by_cases high : Operator.assignmentTier ≤ tier
      · simp [high]
      · have ne : tier ≠ Operator.assignmentTier := fun same => high (Nat.le_of_eq same.symm)
        have later : d.symbols.find? Operator.decides = none := by
          refine List.find?_eq_none.mpr fun other mem => ?_
          obtain ⟨u, _, info, le⟩ := rights other mem
          simp [Operator.decides_of_info info, show ¬Operator.assignmentTier ≤ u by omega]
        simp [high, ne, Operator.assignsAhead, later]

open Calculator.Expr (Context)

theorem Hole.after_subset (h : Hole) (e : Expr) : h.after ⊆ (h.fill e).symbols := by
  induction h with
  | first after => exact List.Subset.refl _
  | behind _ symbol h ih => exact fun other mem => .tail symbol (ih mem)

theorem sweeps_joined {c d : Chain} {symbol : String} {tier : Nat} {role : Operator.Role} {left right : Expr}
    (isRoot : Element.IsRoot c.elements symbol tier role d.elements) (lefts : c.WithinTier tier)
    (rights : d.WithinTier tier) (leftSwept : c.sweeps Operator.tiers = ⟨left, []⟩)
    (rightSwept : d.sweeps Operator.tiers = ⟨right, []⟩) :
    (c.append symbol d).sweeps Operator.tiers = ⟨Expr.joined symbol left right, []⟩ := by
  rw [sweeps_root isRoot lefts rights, leftSwept, rightSwept]
  simp [Expr.joined, isRoot.info]

theorem Hole.sweeps {inner : Context} (plain : inner.lefts = []) {h : Hole} {e : Expr}
    (known : (h.fill e).Known) :
    ∃ k : Context, (∀ x, (h.fill (inner.fill x)).sweeps Operator.tiers = ⟨k.fill x, []⟩) ∧
      (k.InTarget ↔ Operator.assignsAhead h.after = true) ∧ k.lefts ⊆ h.after := by
  -- The induction is on the number of operators: the side of the root that has the hole has fewer.
  induction total : (h.fill e).rest.length using Nat.strongRecOn generalizing h with
  | ind size ih =>
      by_cases joins : (h.fill e).rest = []
      · cases h with
        | first after =>
            obtain rfl : after = [] := joins
            refine ⟨inner, fun x => sweeps_single _ _, ?_, by simp [plain]⟩
            simp [Context.InTarget, plain, Hole.after, Operator.assignsAhead]
        | behind _ symbol h => cases joins
      · obtain ⟨c, symbol, d, tier, role, whole, isRoot, lefts, rights⟩ := exists_root known joins
        obtain ⟨knownLeft, knownRight⟩ := known_append (whole ▸ known)
        rw [whole, append, List.length_append, List.length_cons] at total
        obtain ⟨k, rfl, ends, fills⟩ | ⟨k, rfl, ends, fills⟩ := Hole.split whole
        · obtain ⟨place, swept, target, within⟩ := ih _ (by omega) knownRight rfl
          obtain ⟨left, leftSwept, -⟩ := sweeps_tree knownLeft
          refine ⟨.right left symbol place, fun x => ?_, ends ▸ target, ends ▸ within⟩
          have same := k.symbols_fill e (inner.fill x)
          rw [fills]
          exact sweeps_joined (isRoot_congr rfl same isRoot) lefts (withinTier_congr same rights) leftSwept
            (swept x)
        · obtain ⟨place, swept, target, within⟩ := ih _ (by omega) knownLeft rfl
          obtain ⟨right, rightSwept, -⟩ := sweeps_tree knownRight
          refine ⟨.left place symbol right, fun x => ?_, ?_, ?_⟩
          · have same := k.symbols_fill e (inner.fill x)
            rw [fills]
            exact sweeps_joined (isRoot_congr same rfl isRoot) (withinTier_congr same lefts) rights (swept x)
              rightSwept
          · rw [ends, assignsAhead_root isRoot lefts rights (k.after_subset e), ← target]
            simp [Context.InTarget, Context.lefts]
          · rw [ends]
            exact List.cons_subset.mpr ⟨by simp, fun other mem => List.mem_append_left _ (within mem)⟩

end Chain

namespace Element

open Chain (Hole)
open Calculator.Expr (Context)

theorem Folds.hole {later : List Element} {e : Expr} :
    (before : List Element) → ∀ {c}, Folds (before ++ .node e :: later) c →
      ∃ (h : Hole) (inner : Context), inner.lefts = [] ∧ c = h.fill (inner.fill e) ∧
        (∀ x, Folds (before ++ .node x :: later) (h.fill (inner.fill x))) ∧
        h.after.filter Operator.decides = (operators later).filter Operator.decides ∧
        ∀ symbol ∈ h.after, .op symbol ∈ later ∨ symbol = Operator.coefficient
  | [], _, folds => by
      cases folds with
      | single => exact ⟨.first [], .hole, rfl, rfl, fun x => .single x, rfl, nofun⟩
      | @joined _ symbol _ c rest =>
          refine ⟨.first ((symbol, c.first) :: c.rest), .hole, rfl, rfl, fun x => .joined x symbol rest, ?_,
            ?_⟩
          · change (symbol :: c.symbols).filter _ = (symbol :: operators _).filter _
            rw [List.filter_cons, List.filter_cons, rest.decides]
          · intro other mem
            rcases List.mem_cons.mp mem with rfl | mem
            · exact .inl (.head _)
            · exact (rest.symbols mem).imp_left (.tail _)
  | .op symbol :: before, _, folds => by
      cases folds with
      | prefixed unary rest =>
          obtain ⟨h, inner, plain, rfl, all, decides, symbols⟩ := rest.hole before
          by_cases minus : symbol = "-"
          · subst minus
            exact ⟨.behind (.constant .negativeOne) Operator.coefficient h, inner, plain, rfl,
              fun x => .prefixed unary (all x), decides, symbols⟩
          · have applied (x : Expr) := Folds.prefixed unary (all x)
            simp only [Chain.applyFirst_other unary minus] at applied ⊢
            cases h with
            | first after =>
                exact ⟨.first after, .prefixed symbol inner, plain, rfl, applied, decides, symbols⟩
            | behind other sign h =>
                exact ⟨.behind (Element.applied symbol other) sign h, inner, plain, rfl, applied, decides,
                  symbols⟩
  | [.node _], _, folds => by cases folds
  | .node other :: .op symbol :: before, _, folds => by
      cases folds with
      | joined _ _ rest =>
          obtain ⟨h, inner, plain, rfl, all, decides, symbols⟩ := rest.hole before
          exact ⟨.behind other symbol h, inner, plain, rfl, fun x => .joined other symbol (all x), decides,
            symbols⟩
  | .node _ :: .node _ :: _, _, folds => by cases folds

/-- Every operand has its place in what the elements collapse to, whatever operand it is. The place is part
of what is assigned to if the operators after the operand come to an assignment before a looser one. -/
theorem exists_place {before later : List Element} {e : Expr} {root : Option Expr}
    (collapsed : collapse (before ++ .node e :: later) = .ok root) :
    ∃ place : Context, root = some (place.fill e) ∧
      (∀ x, collapse (before ++ .node x :: later) = .ok (some (place.fill x))) ∧
      (place.InTarget ↔ Operator.assignsAhead (operators later) = true) ∧
      ∀ symbol ∈ place.lefts, .op symbol ∈ later ∨ symbol = Operator.coefficient := by
  cases root with
  | none =>
      have nothing := collapse_none_iff.mp collapsed
      simp at nothing
  | some root =>
      obtain ⟨_, folds, known, _⟩ := collapse_iff.mp collapsed
      obtain ⟨h, inner, plain, rfl, all, decides, symbols⟩ := folds.hole before
      obtain ⟨place, swept, target, within⟩ := Hole.sweeps plain known
      have each (x : Expr) : collapse (before ++ .node x :: later) = .ok (some (place.fill x)) := by
        refine (all x).collapse ?_ (swept x)
        rwa [Chain.Known, h.symbols_fill _ (inner.fill e)]
      refine ⟨place, ?_, each, ?_, fun symbol mem => symbols symbol (within mem)⟩
      · exact Except.ok.inj (collapsed.symm.trans (each e))
      · rw [target, ← Operator.assignsAhead_filter, decides, Operator.assignsAhead_filter]

end Element

end Calculator
