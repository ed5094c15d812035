import Calculator.Proofs.Expr.Formed
import Calculator.Proofs.Expr.Prefixes

/-! Which elements collapse, and to what: operands, each behind prefix operators, with an operator
between every two. -/

namespace Calculator

namespace Element

/-- The operands and operators that elements come to once the prefix operators are applied. -/
inductive Folds : List Element → Chain → Prop
  | single (e : Expr) : Folds [.node e] ⟨e, []⟩
  | prefixed {symbol : String} {elements : List Element} {c : Chain}
      (unary : Operator.isUnary symbol = true) (rest : Folds elements c) :
      Folds (.op symbol :: elements) (c.applyFirst symbol)
  | joined (e : Expr) (symbol : String) {elements : List Element} {c : Chain}
      (rest : Folds elements c) :
      Folds (.node e :: .op symbol :: elements) (Chain.append ⟨e, []⟩ symbol c)

/-- Applies the prefix operators of `before` (nearest first), where `after` holds none any more. -/
def foldAll (before after : List Element) : Except ParseError (List Element) :=
  match before with
  | [] => .ok after
  | last :: before => foldPrefixes before last after

theorem foldPrefixes_applyFirst {symbol : String} (unary : Operator.isUnary symbol = true)
    {before : List Element} (operand : atOperand before = true) (c : Chain) (after : List Element) :
    foldPrefixes (.op symbol :: before) (.node c.first) (c.elements.tail ++ after) =
      foldPrefixes before (.node (c.applyFirst symbol).first)
        ((c.applyFirst symbol).elements.tail ++ after) :=
  foldPrefixes_run [symbol] (List.forall_mem_singleton.mpr unary) operand c after

theorem Folds.foldAll_eq {elements : List Element} {c : Chain} (folds : Folds elements c)
    {before : List Element} (operand : atOperand before = true) (after : List Element) :
    foldAll (elements.reverse ++ before) after =
      foldPrefixes before (.node c.first) (c.elements.tail ++ after) := by
  induction folds generalizing before after with
  | single e => rfl
  | @prefixed symbol elements c unary _ ih =>
      rw [List.reverse_cons, List.append_assoc, List.singleton_append, ih rfl]
      exact foldPrefixes_applyFirst unary operand c after
  | @joined e symbol elements c _ ih =>
      rw [List.reverse_cons, List.reverse_cons, List.append_assoc, List.append_assoc,
        List.singleton_append, List.singleton_append, ih rfl]
      rfl

theorem Folds.applyPrefixes {elements : List Element} {c : Chain} (folds : Folds elements c) :
    applyPrefixes elements = .ok c.elements := by
  have folded := folds.foldAll_eq (rfl : atOperand [] = true) []
  rw [List.append_nil, List.append_nil] at folded
  exact folded

theorem folds_elements (first : Expr) (rest : List (String × Expr)) :
    Folds (Chain.elements ⟨first, rest⟩) ⟨first, rest⟩ := by
  induction rest generalizing first with
  | nil => exact .single first
  | cons pair rest ih => exact .joined first pair.1 (ih pair.2)

theorem atOperand_of_cons {e : Element} {front : List Element}
    (operand : atOperand (e :: front).reverse = true) : atOperand front.reverse = true := by
  rw [List.reverse_cons] at operand
  cases reversed : front.reverse with
  | nil => rfl
  | cons last before =>
      rw [reversed] at operand
      exact operand

theorem Folds.replace {xs ys : List Element} (alike : ∀ c, Folds xs c → Folds ys c) :
    (front : List Element) → atOperand front.reverse = true → ∀ {c}, Folds (front ++ xs) c →
      Folds (front ++ ys) c
  | [], _, c, folds => alike c folds
  | .op symbol :: front, operand, _, folds => by
      cases folds with
      | prefixed unary rest => exact .prefixed unary (rest.replace alike front (atOperand_of_cons operand))
  | [.node e], operand, _, _ => by cases operand
  | .node e :: .op symbol :: front, operand, _, folds => by
      cases folds with
      | joined _ _ rest =>
          exact .joined e symbol
            (rest.replace alike front (atOperand_of_cons (atOperand_of_cons operand)))
  | .node _ :: .node _ :: _, _, _, folds => by cases folds

theorem Folds.unapply {symbol : String} (unary : Operator.isUnary symbol = true) {operand e : Expr}
    (applies : prefixed? symbol operand = some e) {after : List Element} {c : Chain}
    (folds : Folds (.node e :: after) c) : Folds (.op symbol :: .node operand :: after) c := by
  have applied (rest : List (String × Expr)) : Chain.applyFirst symbol ⟨operand, rest⟩ = ⟨e, rest⟩ := by
    simp only [Chain.applyFirst, applies]
  cases folds with
  | single => exact applied [] ▸ .prefixed unary (.single operand)
  | @joined _ other _ c rest =>
      have same : Chain.append ⟨e, []⟩ other c =
          Chain.applyFirst symbol (Chain.append ⟨operand, []⟩ other c) := (applied _).symm
      exact same ▸ .prefixed unary (.joined operand other rest)

theorem Folds.unapply_minus {symbol : String} (unary : Operator.isUnary symbol = true)
    {operand : Expr} (minus : prefixed? symbol operand = none) {after : List Element} {c : Chain}
    (folds : Folds (.node (.constant .negativeOne) :: .op Operator.coefficient :: .node operand :: after) c) :
    Folds (.op symbol :: .node operand :: after) c := by
  have applied (rest : List (String × Expr)) : Chain.applyFirst symbol ⟨operand, rest⟩ =
      Chain.append ⟨.constant .negativeOne, []⟩ Operator.coefficient ⟨operand, rest⟩ := by
    simp only [Chain.applyFirst, minus]
    rfl
  cases folds with
  | joined _ _ rest =>
      cases rest with
      | single => exact applied [] ▸ .prefixed unary (.single operand)
      | @joined _ other _ c rest =>
          exact applied ((other, c.first) :: c.rest) ▸ .prefixed unary (.joined operand other rest)

theorem folds_of_foldPrefixes {before after : List Element} {current : Element} {c : Chain}
    (folded : foldPrefixes before current after = .ok c.elements) :
    Folds (before.reverse ++ current :: after) c := by
  fun_induction foldPrefixes before current after with
  | case1 current after =>
      rw [List.reverse_nil, List.nil_append, Except.ok.inj folded]
      exact folds_elements c.first c.rest
  | case2 symbol before operand after _ ih => simpa using ih folded
  | case3 => cases folded
  | case4 symbol before operand after inside unary e applies ih =>
      have place : atOperand before.reverse.reverse = true := by simpa using inside
      have folds := (ih folded).replace (fun _ => .unapply (by simpa using unary) applies) _ place
      simpa using folds
  | case5 symbol before operand after inside unary minus ih =>
      have place : atOperand before.reverse.reverse = true := by simpa using inside
      have folds := (ih folded).replace (fun _ => .unapply_minus (by simpa using unary) minus) _ place
      simpa using folds
  | case6 e before current after _ ih => simpa using ih folded

theorem folds_of_applyPrefixes {elements : List Element} {c : Chain}
    (applied : Element.applyPrefixes elements = .ok c.elements) : Folds elements c := by
  unfold Element.applyPrefixes at applied
  split at applied
  · cases applied
  · rename_i last before reversed
    have split : elements = before.reverse ++ [last] := by
      rw [← List.reverse_reverse elements, reversed, List.reverse_cons]
    rw [split]
    exact folds_of_foldPrefixes applied

theorem Folds.ne_nil {elements : List Element} {c : Chain} (folds : Folds elements c) :
    elements ≠ [] := by
  cases folds <;> exact List.cons_ne_nil _ _

theorem joinTiers_elements {c : Chain} (known : c.Known) :
    joinTiers c.elements = .ok (c.sweeps Operator.tiers).elements := by
  rw [joinTiers_known fun symbol mem => known symbol (Chain.op_mem_elements.mp mem),
    Chain.foldTiers_elements]

theorem known_of_joinTiers {c : Chain} {elements : List Element}
    (joined : joinTiers c.elements = .ok elements) : c.Known := by
  unfold joinTiers at joined
  split at joined
  · cases joined
  · rename_i none
    exact fun symbol mem => unknown?_eq_none.mp none symbol (Chain.op_mem_elements.mpr mem)

theorem Folds.collapse {elements : List Element} {c : Chain} {e : Expr} (folds : Folds elements c)
    (known : c.Known) (swept : c.sweeps Operator.tiers = ⟨e, []⟩) :
    collapse elements = .ok (some e) := by
  unfold Element.collapse
  split
  · exact absurd rfl folds.ne_nil
  · rw [folds.applyPrefixes]
    change (joinTiers c.elements >>= _) = _
    rw [joinTiers_elements known, swept]
    rfl

theorem Folds.known {elements : List Element} {c : Chain} {root : Option Expr} (folds : Folds elements c)
    (collapsed : Element.collapse elements = .ok root) : c.Known := by
  unfold Element.collapse at collapsed
  split at collapsed
  · exact absurd rfl folds.ne_nil
  · rw [folds.applyPrefixes] at collapsed
    change (joinTiers c.elements >>= _) = _ at collapsed
    cases joins : joinTiers c.elements with
    | error fault =>
        rw [joins] at collapsed
        cases collapsed
    | ok joined => exact known_of_joinTiers joins

/-- Elements collapse to an expression if they are operands, each behind prefix operators, with a known
operator between every two. -/
theorem collapse_iff {elements : List Element} {e : Expr} :
    collapse elements = .ok (some e) ↔
      ∃ c, Folds elements c ∧ c.Known ∧ c.sweeps Operator.tiers = ⟨e, []⟩ := by
  constructor
  · intro collapsed
    obtain ⟨_, none⟩ | ⟨operands, joined, applied, reduces, ⟨_, rfl, same⟩ | ⟨_, none⟩⟩ :=
      collapse_ok collapsed
    · cases none
    · obtain ⟨c, rfl⟩ := Chain.exists_of_alternates operands (reduces.alternates_iff.mp trivial)
      have folds := folds_of_applyPrefixes applied
      have known := folds.known collapsed
      obtain ⟨root, swept, _⟩ := Chain.sweeps_tree known
      have collapses := folds.collapse known swept
      rw [collapsed] at collapses
      cases collapses
      exact ⟨c, folds, known, swept⟩
    · cases none
  · rintro ⟨c, folds, known, swept⟩
    exact folds.collapse known swept

theorem foldPrefixes_ne_nil {before after elements : List Element} {current : Element}
    (folded : foldPrefixes before current after = .ok elements) : elements ≠ [] := by
  fun_induction foldPrefixes before current after with
  | case1 current after =>
      cases folded
      exact List.cons_ne_nil _ _
  | case2 _ _ _ _ _ ih => exact ih folded
  | case3 => cases folded
  | case4 _ _ _ _ _ _ _ _ ih => exact ih folded
  | case5 _ _ _ _ _ _ _ ih => exact ih folded
  | case6 _ _ _ _ _ ih => exact ih folded

theorem applyPrefixes_ne_nil {elements operands : List Element}
    (applied : applyPrefixes elements = .ok operands) (nonempty : elements ≠ []) : operands ≠ [] := by
  unfold applyPrefixes at applied
  split at applied
  · rename_i reversed
    exact absurd (List.reverse_eq_nil_iff.mp reversed) nonempty
  · exact foldPrefixes_ne_nil applied

theorem joinTiers_ok {xs ys : List Element} (joined : joinTiers xs = .ok ys) :
    Reduces xs ys ∧ ∀ symbol, .op symbol ∉ ys := by
  unfold joinTiers at joined
  split at joined
  · cases joined
  · rename_i none
    exact ⟨(foldTiers_reduces joined).1, nodes_of_joinTiers (unknown?_eq_none.mp none) joined⟩

theorem collapse_none_iff {elements : List Element} : collapse elements = .ok none ↔ elements = [] := by
  constructor
  · intro collapsed
    unfold collapse at collapsed
    split at collapsed
    · rfl
    · exfalso
      cases applied : applyPrefixes elements with
      | error fault =>
          rw [applied] at collapsed
          cases collapsed
      | ok operands =>
          have operands_ne_nil := applyPrefixes_ne_nil applied ‹_›
          rw [applied] at collapsed
          change (joinTiers operands >>= _) = _ at collapsed
          cases joins : joinTiers operands with
          | error fault =>
              rw [joins] at collapsed
              cases collapsed
          | ok joined =>
              obtain ⟨reduces, nodes⟩ := joinTiers_ok joins
              rw [joins] at collapsed
              match joined with
              | [] => exact reduces.ne_nil operands_ne_nil rfl
              | [.op symbol] => exact nodes symbol (.head _)
              | [.node _] => cases collapsed
              | .node _ :: _ :: _ => cases collapsed
              | .op _ :: _ :: _ => cases collapsed
  · rintro rfl
    rfl

end Element

namespace Chain

theorem append_assoc (b c d : Chain) (symbol other : String) :
    b.append symbol (c.append other d) = (b.append symbol c).append other d := by
  simp [append]

theorem applyFirst_append (unary symbol : String) (c d : Chain) :
    (c.append symbol d).applyFirst unary = (c.applyFirst unary).append symbol d := by
  unfold applyFirst append
  cases Element.prefixed? unary c.first <;> rfl

theorem symbols_applyFirst {unary symbol : String} {c : Chain}
    (mem : symbol ∈ (c.applyFirst unary).symbols) : symbol ∈ c.symbols ∨ symbol = Operator.coefficient := by
  unfold applyFirst at mem
  split at mem
  · exact .inl mem
  · exact (List.mem_cons.mp mem).symm

end Chain

namespace Element

section Split

variable {symbol : String} (binary : Operator.isUnary symbol = false)
include binary

theorem Folds.split {more : List Element} :
    (front : List Element) → ∀ {c}, Folds (front ++ .op symbol :: more) c →
      ∃ left right, Folds front left ∧ Folds more right ∧ c = left.append symbol right
  | [], _, folds => by
      cases folds with
      | prefixed unary => exact nomatch binary.symm.trans unary
  | .op other :: front, _, folds => by
      cases folds with
      | prefixed unary rest =>
          obtain ⟨left, right, before, after, rfl⟩ := rest.split front
          exact ⟨_, right, .prefixed unary before, after, Chain.applyFirst_append ..⟩
  | [.node e], _, folds => by
      cases folds with
      | joined _ _ rest => exact ⟨_, _, .single e, rest, rfl⟩
  | .node e :: .op other :: front, _, folds => by
      cases folds with
      | joined _ _ rest =>
          obtain ⟨left, right, before, after, rfl⟩ := rest.split front
          exact ⟨_, right, .joined e other before, after, Chain.append_assoc ..⟩
  | .node _ :: .node _ :: _, _, folds => by cases folds

omit binary in
theorem Folds.append {front more : List Element} {left right : Chain} (first : Folds front left)
    (second : Folds more right) : Folds (front ++ .op symbol :: more) (left.append symbol right) := by
  induction first with
  | single e => exact .joined e symbol second
  | prefixed unary _ ih =>
      rw [← Chain.applyFirst_append]
      exact .prefixed unary ih
  | joined e other _ ih =>
      rw [← Chain.append_assoc]
      exact .joined e other ih

end Split

theorem Folds.symbols {elements : List Element} {c : Chain} (folds : Folds elements c) {symbol : String}
    (mem : symbol ∈ c.symbols) : .op symbol ∈ elements ∨ symbol = Operator.coefficient := by
  induction folds with
  | single => cases mem
  | prefixed _ _ ih =>
      rcases Chain.symbols_applyFirst mem with mem | same
      · exact (ih mem).imp_left (.tail _)
      · exact .inr same
  | joined e other _ ih =>
      rw [Chain.symbols_append] at mem
      rcases List.mem_cons.mp mem with rfl | mem
      · exact .inl (.tail _ (.head _))
      · exact (ih mem).imp_left fun mem => .tail _ (.tail _ mem)

end Element

namespace Operator

def loose (symbol : String) : Bool := (tier? symbol).any (assignmentTier < ·)

theorem isUnary_of_tier {symbol : String} {tier : Nat} (found : tier? symbol = some tier)
    (high : assignmentTier ≤ tier) : isUnary symbol = false := by
  have none : ∀ unary ∈ unarySymbols, ∀ tier ∈ tier? unary, tier < assignmentTier := by decide +kernel
  refine Bool.eq_false_iff.mpr fun unary => ?_
  exact Nat.not_lt.mpr high (none symbol (Element.mem_unarySymbols unary) tier found)

theorem tier_of_loose {symbol : String} (isLoose : loose symbol = true) :
    ∃ tier, tier? symbol = some tier ∧ assignmentTier < tier := by
  obtain ⟨tier, found, high⟩ := (Option.any_eq_true _ _).mp isLoose
  exact ⟨tier, found, of_decide_eq_true high⟩

theorem isUnary_of_loose {symbol : String} (isLoose : loose symbol = true) : isUnary symbol = false := by
  obtain ⟨tier, found, high⟩ := tier_of_loose isLoose
  exact isUnary_of_tier found (Nat.le_of_lt high)

end Operator

namespace Chain

theorem sweepRight_congr {tier : Nat} {symbol : String} {d d' : Chain}
    (same : sweepRight tier d.first d.rest = sweepRight tier d'.first d'.rest) (first : Expr)
    (rest : List (String × Expr)) :
    sweepRight tier first (rest ++ (symbol, d.first) :: d.rest) =
      sweepRight tier first (rest ++ (symbol, d'.first) :: d'.rest) := by
  induction rest generalizing first with
  | nil => simp only [List.nil_append, sweepRight, same]
  | cons pair rest ih => simp only [List.cons_append, sweepRight, ih pair.2]

theorem sweep_append_congr {tier : Nat} (groups : Operator.groupsRight tier = true) (c : Chain)
    (symbol : String) {d d' : Chain} (same : d.sweep tier = d'.sweep tier) :
    (c.append symbol d).sweep tier = (c.append symbol d').sweep tier := by
  simp only [sweep, groups, if_true] at same ⊢
  exact sweepRight_congr same c.first c.rest

def attach (c : Chain) : Option (String × Chain) → Chain
  | none => c
  | some (symbol, tail) => c.append symbol tail

theorem mem_symbols_attach {c : Chain} {tail : Option (String × Chain)} {symbol : String} :
    symbol ∈ (c.attach tail).symbols ↔
      symbol ∈ c.symbols ∨ ∃ pair ∈ tail, symbol = pair.1 ∨ symbol ∈ pair.2.symbols := by
  cases tail with
  | none => simp [attach]
  | some pair => simp [attach, symbols_append]

theorem known_operand {left c : Chain} {symbol : String} {tail : Option (String × Chain)} (e : Expr) :
    (left.append symbol (c.attach tail)).Known ↔
      c.Known ∧ (left.append symbol (attach ⟨e, []⟩ tail)).Known := by
  have single : symbols ⟨e, []⟩ = [] := rfl
  simp only [Known, symbols_append, List.mem_append, List.mem_cons, mem_symbols_attach, single,
    List.not_mem_nil, false_or]
  constructor
  · exact fun known => ⟨fun other mem => known other (.inr (.inr (.inl mem))),
      fun other mem => known other (mem.imp_right fun mem => mem.imp_right .inr)⟩
  · rintro ⟨operand, known⟩ other (mem | mem | mem | mem)
    · exact known other (.inl mem)
    · exact known other (.inr (.inl mem))
    · exact operand other mem
    · exact known other (.inr (.inr mem))

section Assignment

variable {lower upper : List Nat} (split : Operator.tiers = lower ++ Operator.assignmentTier :: upper)
include split

theorem apart_of_tier {symbol : String} {tier : Nat} (found : Operator.tier? symbol = some tier)
    (high : Operator.assignmentTier ≤ tier) : ∀ u ∈ lower, roleAt? u symbol = none := by
  intro u low
  obtain ⟨⟨_, role⟩, info, rfl⟩ := Option.map_eq_some_iff.mp found
  have ne : ¬_ = u := Nat.ne_of_gt (Nat.lt_of_lt_of_le ((tiers_sorted split).1 u low) high)
  simp [roleAt?, info, ne]

theorem sweep_attach {c : Chain} {tail : Option (String × Chain)}
    (cut : ∀ pair ∈ tail, Operator.loose pair.1 = true) :
    ((c.attach tail).sweeps lower).sweep Operator.assignmentTier =
      ((c.sweeps lower).sweep Operator.assignmentTier).attach (tail.map fun pair =>
        (pair.1, (pair.2.sweeps lower).sweep Operator.assignmentTier)) := by
  cases tail with
  | none => rfl
  | some pair =>
      obtain ⟨tier, found, high⟩ := Operator.tier_of_loose (cut pair rfl)
      have here : roleAt? Operator.assignmentTier pair.1 = none := by
        obtain ⟨⟨_, role⟩, info, rfl⟩ := Option.map_eq_some_iff.mp found
        simp [roleAt?, info, Nat.ne_of_gt high]
      change (((c.append pair.1 pair.2).sweeps lower).sweep _) = append _ _ _
      rw [sweeps_append (apart_of_tier split found (Nat.le_of_lt high)), sweep_append here]

/-- The right operand of an assignment ends before the first looser operator, and counts as what it comes
to. -/
theorem sweeps_operand {symbol : String} (assigns : Operator.tier? symbol = some Operator.assignmentTier)
    (left : Chain) {c : Chain} (within : c.WithinTier Operator.assignmentTier) {e : Expr}
    (swept : c.sweeps Operator.tiers = ⟨e, []⟩) {tail : Option (String × Chain)}
    (cut : ∀ pair ∈ tail, Operator.loose pair.1 = true) :
    (left.append symbol (c.attach tail)).sweeps Operator.tiers =
      (left.append symbol (attach ⟨e, []⟩ tail)).sweeps Operator.tiers := by
  have apart := apart_of_tier split assigns (Nat.le_refl _)
  have operand : ((c.attach tail).sweeps lower).sweep Operator.assignmentTier =
      ((attach ⟨e, []⟩ tail).sweeps lower).sweep Operator.assignmentTier := by
    have single : (sweeps lower ⟨e, []⟩).sweep Operator.assignmentTier = ⟨e, []⟩ := by
      rw [sweeps_single]
      exact sweeps_single [Operator.assignmentTier] e
    rw [sweep_attach split cut, sweep_attach split cut, sweep_within split within, swept, single]
  rw [split, sweeps_split, sweeps_split, sweeps_append apart, sweeps_append apart,
    sweep_append_congr rfl _ _ operand]

end Assignment

end Chain

namespace Element

def Without (kind : String → Bool) (elements : List Element) : Prop :=
  ∀ symbol, .op symbol ∈ elements → kind symbol = false

section Without

variable {kind : String → Bool}

theorem without_nil : Without kind [] := by
  intro symbol mem
  cases mem

theorem without_node (e : Expr) : Without kind [.node e] := by
  intro symbol mem
  cases List.mem_singleton.mp mem

theorem without_op {symbol : String} (other : kind symbol = false) : Without kind [.op symbol] := by
  intro symbol mem
  cases List.mem_singleton.mp mem
  exact other

theorem Without.append {front more : List Element} (first : Without kind front) (others : Without kind more) :
    Without kind (front ++ more) :=
  fun symbol mem => (List.mem_append.mp mem).elim (first symbol) (others symbol)

end Without

abbrev Tight : List Element → Prop := Without Operator.loose

def Cut (rest : List Element) : Prop :=
  rest = [] ∨ ∃ symbol more, rest = .op symbol :: more ∧ Operator.loose symbol = true

inductive FoldsRest : List Element → Option (String × Chain) → Prop
  | none : FoldsRest [] none
  | some {symbol : String} {more : List Element} {c : Chain} (isLoose : Operator.loose symbol = true)
      (folds : Folds more c) : FoldsRest (.op symbol :: more) (some (symbol, c))

theorem FoldsRest.loose {rest : List Element} {tail : Option (String × Chain)} (folds : FoldsRest rest tail) :
    ∀ pair ∈ tail, Operator.loose pair.1 = true := by
  cases folds with
  | none => nofun
  | some isLoose =>
      rintro _ ⟨⟩
      exact isLoose

theorem folds_cut {body rest : List Element} (cut : Cut rest) {d : Chain} :
    Folds (body ++ rest) d ↔ ∃ c tail, Folds body c ∧ FoldsRest rest tail ∧ d = c.attach tail := by
  constructor
  · intro folds
    obtain rfl | ⟨symbol, more, rfl, isLoose⟩ := cut
    · rw [List.append_nil] at folds
      exact ⟨d, none, folds, .none, rfl⟩
    · obtain ⟨left, right, before, after, rfl⟩ := folds.split (Operator.isUnary_of_loose isLoose) body
      exact ⟨left, some (symbol, right), before, .some isLoose after, rfl⟩
  · rintro ⟨c, tail, first, others, rfl⟩
    cases others with
    | none => rwa [List.append_nil]
    | some _ more => exact first.append more

theorem Folds.within {body : List Element} {c : Chain} (folds : Folds body c) (known : c.Known)
    (tight : Tight body) : c.WithinTier Operator.assignmentTier := by
  intro symbol mem
  obtain ⟨⟨tier, role⟩, info⟩ := Option.isSome_iff_exists.mp (known symbol mem)
  refine ⟨tier, role, info, Nat.not_lt.mp fun high => ?_⟩
  have isLoose : Operator.loose symbol = true := by simp [Operator.loose, Operator.tier?, info, high]
  rcases folds.symbols mem with mem | rfl
  · exact ne_true_of_eq_false (tight symbol mem) isLoose
  · exact absurd isLoose (by decide +kernel)

section Operand

variable {symbol : String} (assigns : Operator.tier? symbol = some Operator.assignmentTier)
  {body rest : List Element} (tight : Tight body) (cut : Cut rest) {front : List Element} {root : Expr}
include assigns tight

theorem sweeps_of_operand {left c : Chain} {tail : Option (String × Chain)} {e : Expr} (folds : Folds body c)
    (known : c.Known) (others : FoldsRest rest tail) (swept : c.sweeps Operator.tiers = ⟨e, []⟩) :
    (left.append symbol (c.attach tail)).sweeps Operator.tiers =
      (left.append symbol (Chain.attach ⟨e, []⟩ tail)).sweeps Operator.tiers := by
  have split : Operator.tiers = List.range 13 ++ Operator.assignmentTier :: [14] := rfl
  exact Chain.sweeps_operand split assigns left (folds.within known tight) swept others.loose

include cut

theorem collapse_assignment :
    collapse (front ++ .op symbol :: (body ++ rest)) = .ok (some root) ↔
      ∃ e, collapse body = .ok (some e) ∧
        collapse (front ++ .op symbol :: .node e :: rest) = .ok (some root) := by
  have binary : Operator.isUnary symbol = false := Operator.isUnary_of_tier assigns (Nat.le_refl _)
  constructor
  · intro collapsed
    obtain ⟨_, folds, known, swept⟩ := collapse_iff.mp collapsed
    obtain ⟨left, _, before, after, rfl⟩ := folds.split binary front
    obtain ⟨c, tail, operand, others, rfl⟩ := (folds_cut cut).mp after
    obtain ⟨operandKnown, _⟩ := (Chain.known_operand c.first).mp known
    obtain ⟨e, operandSwept, -⟩ := Chain.sweeps_tree operandKnown
    have placed : Folds ([.node e] ++ rest) (Chain.attach ⟨e, []⟩ tail) :=
      (folds_cut cut).mpr ⟨_, tail, .single e, others, rfl⟩
    refine ⟨e, operand.collapse operandKnown operandSwept, (before.append placed).collapse ?_ ?_⟩
    · exact ((Chain.known_operand e).mp known).2
    · rw [← sweeps_of_operand assigns tight operand operandKnown others operandSwept, swept]
  · rintro ⟨e, collapsed, placed⟩
    obtain ⟨c, operand, known, operandSwept⟩ := collapse_iff.mp collapsed
    obtain ⟨_, folds, placedKnown, swept⟩ := collapse_iff.mp placed
    obtain ⟨left, _, before, after, rfl⟩ := folds.split binary front
    have after : Folds ([.node e] ++ rest) _ := after
    obtain ⟨single, tail, node, others, rfl⟩ := (folds_cut cut).mp after
    cases node with
    | single =>
        have whole : Folds (body ++ rest) (c.attach tail) :=
          (folds_cut cut).mpr ⟨c, tail, operand, others, rfl⟩
        refine (before.append whole).collapse ?_ ?_
        · exact (Chain.known_operand e).mpr ⟨known, placedKnown⟩
        · rw [sweeps_of_operand assigns tight operand known others operandSwept, swept]

end Operand

end Element

end Calculator
