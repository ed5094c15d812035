import Calculator.Proofs.Expr.Joining

/-! The operator table as a grammar: an expression is split at its loosest operators first. Joining the
tightest operators first comes to the same tree. -/

namespace Calculator

namespace Element

def loosest? (elements : List Element) : Option Nat := (elements.filterMap tier?).max?

/-- The place of the operator at the root: the first one of the loosest tier if that groups to the right,
and the last one otherwise. -/
def root? (elements : List Element) : Option Nat :=
  (loosest? elements).bind fun tier =>
    if Operator.groupsRight tier then elements.findIdx? (hasTier tier)
    else (elements.reverse.findIdx? (hasTier tier)).map (elements.length - 1 - ·)

def single? : List Element → Option Expr
  | [.node e] => some e
  | _ => none

/-- The expression of operands and operators in turn. -/
def tree (elements : List Element) : Option Expr :=
  match root? elements with
  | none => single? elements
  | some i =>
    if h : i < elements.length then
      match elements[i] with
      | .node _ => none
      | .op symbol => do
        let (_, role) ← Operator.info? symbol
        let left ← tree (elements.take i)
        let right ← tree (elements.drop (i + 1))
        return left.build role right
    else none
termination_by elements.length
decreasing_by
  · rw [List.length_take]
    omega
  · rw [List.length_drop]
    omega

/-- What the operator at the root is. -/
structure IsRoot (before : List Element) (symbol : String) (tier : Nat) (role : Operator.Role)
    (after : List Element) : Prop where
  info : Operator.info? symbol = some (tier, role)
  loosest : ∀ e ∈ before ++ after, ∀ other, tier? e = some other → other ≤ tier
  first : Operator.groupsRight tier = true → ∀ e ∈ before, hasTier tier e = false
  last : Operator.groupsRight tier = false → ∀ e ∈ after, hasTier tier e = false

section Root

variable {before after : List Element} {symbol : String} {tier : Nat} {role : Operator.Role}
  (isRoot : IsRoot before symbol tier role after)
include isRoot

theorem loosest?_eq : loosest? (before ++ .op symbol :: after) = some tier := by
  have here : tier? (.op symbol) = some tier := by simp [tier?, Operator.tier?, isRoot.info]
  rw [loosest?, List.max?_eq_some_iff]
  refine ⟨List.mem_filterMap.mpr ⟨.op symbol, by simp, here⟩, fun other mem => ?_⟩
  obtain ⟨e, mem, tiers⟩ := List.mem_filterMap.mp mem
  rcases List.mem_append.mp mem with early | late
  · exact isRoot.loosest e (List.mem_append_left _ early) other tiers
  · rcases List.mem_cons.mp late with rfl | late
    · exact Nat.le_of_eq (Option.some.inj (tiers.symm.trans here))
    · exact isRoot.loosest e (List.mem_append_right _ late) other tiers

theorem root?_eq : root? (before ++ .op symbol :: after) = some before.length := by
  have here : hasTier tier (.op symbol) = true := hasTier_of_info isRoot.info
  rw [root?, loosest?_eq isRoot, Option.bind_some]
  split
  · rename_i right
    have none := isRoot.first right
    rw [List.findIdx?_append, List.findIdx?_eq_none_iff.mpr none, List.findIdx?_cons, here]
    simp
  · rename_i left
    have none := isRoot.last (by simpa using left)
    rw [List.reverse_append, List.reverse_cons, List.append_assoc, List.findIdx?_append,
      List.findIdx?_eq_none_iff.mpr fun e mem => none e (List.mem_reverse.mp mem),
      List.singleton_append, List.findIdx?_cons, here]
    simp

theorem tree_eq {left right : Expr} (lefts : tree before = some left) (rights : tree after = some right) :
    tree (before ++ .op symbol :: after) = some (left.build role right) := by
  rw [tree, root?_eq isRoot]
  simp [isRoot.info, lefts, rights]

end Root

theorem tree_node (e : Expr) : tree [.node e] = some e := by
  rw [tree]
  rfl

end Element

structure Chain where
  first : Expr
  rest : List (String × Expr)

namespace Chain

def elements (c : Chain) : List Element :=
  .node c.first :: c.rest.flatMap fun (symbol, e) => [.op symbol, .node e]

def append (c : Chain) (symbol : String) (d : Chain) : Chain :=
  ⟨c.first, c.rest ++ (symbol, d.first) :: d.rest⟩

def roleAt? (tier : Nat) (symbol : String) : Option Operator.Role :=
  (Operator.info? symbol).bind fun (found, role) => if found = tier then some role else none

def sweepLeft (tier : Nat) (first : Expr) : List (String × Expr) → Chain
  | [] => ⟨first, []⟩
  | (symbol, e) :: rest =>
    match roleAt? tier symbol with
    | some role => sweepLeft tier (first.build role e) rest
    | none => append ⟨first, []⟩ symbol (sweepLeft tier e rest)

def sweepRight (tier : Nat) (first : Expr) : List (String × Expr) → Chain
  | [] => ⟨first, []⟩
  | (symbol, e) :: rest =>
    let swept := sweepRight tier e rest
    match roleAt? tier symbol with
    | some role => ⟨first.build role swept.first, swept.rest⟩
    | none => append ⟨first, []⟩ symbol swept

def sweep (tier : Nat) (c : Chain) : Chain :=
  if Operator.groupsRight tier then sweepRight tier c.first c.rest
  else sweepLeft tier c.first c.rest

def sweeps (tiers : List Nat) (c : Chain) : Chain := tiers.foldl (fun c tier => c.sweep tier) c

theorem elements_append (c : Chain) (symbol : String) (d : Chain) :
    (c.append symbol d).elements = c.elements ++ .op symbol :: d.elements := by
  simp [elements, append]

theorem exists_of_alternates (elements : List Element) (alternates : Element.Alternates elements) :
    ∃ c : Chain, c.elements = elements := by
  induction elements using Element.Alternates.induct with
  | case1 e => exact ⟨⟨e, []⟩, rfl⟩
  | case2 e symbol rest ih =>
      obtain ⟨c, rfl⟩ := ih alternates
      exact ⟨append ⟨e, []⟩ symbol c, elements_append ..⟩
  | case3 elements notNode notPair =>
      unfold Element.Alternates at alternates
      split at alternates
      · exact absurd rfl (notNode _)
      · exact absurd rfl (notPair _ _ _)
      · exact alternates.elim

theorem hasTier_op (tier : Nat) (symbol : String) :
    Element.hasTier tier (.op symbol) = (roleAt? tier symbol).isSome := by
  cases info : Operator.info? symbol with
  | none => simp [Element.hasTier, Operator.tier?, roleAt?, info]
  | some entry =>
      by_cases same : entry.1 = tier
      · simp [Element.hasTier, Operator.tier?, roleAt?, info, same]
      · simp [Element.hasTier, Operator.tier?, roleAt?, info, same]

theorem info_of_roleAt? {tier : Nat} {symbol : String} {role : Operator.Role}
    (found : roleAt? tier symbol = some role) : Operator.info? symbol = some (tier, role) := by
  obtain ⟨⟨other, role⟩, info, same⟩ := Option.bind_eq_some_iff.mp found
  dsimp only at same
  split at same
  · rename_i tiers
    cases same
    rw [info, tiers]
  · cases same

theorem joinLeft_pass {tier : Nat} {symbol : String} (other : roleAt? tier symbol = none)
    (before rest : List Element) :
    Element.joinLeft tier before (.op symbol :: rest) =
      Element.joinLeft tier (.op symbol :: before) rest := by
  rw [Element.joinLeft.eq_def]
  simp [hasTier_op, other]

theorem joinLeft_join {tier : Nat} {symbol : String} {role : Operator.Role}
    (here : roleAt? tier symbol = some role) (left right : Expr) (before rest : List Element) :
    Element.joinLeft tier (.node left :: before) (.op symbol :: .node right :: rest) =
      Element.joinLeft tier (.node (left.build role right) :: before) rest := by
  rw [Element.joinLeft.eq_def]
  simp [hasTier_op, here, Element.join, info_of_roleAt? here]

theorem joinRight_pass {tier : Nat} {symbol : String} (other : roleAt? tier symbol = none)
    (before after : List Element) :
    Element.joinRight tier (.op symbol :: before) after =
      Element.joinRight tier before (.op symbol :: after) := by
  rw [Element.joinRight.eq_def]
  simp [hasTier_op, other]

theorem joinRight_join {tier : Nat} {symbol : String} {role : Operator.Role}
    (here : roleAt? tier symbol = some role) (left right : Expr) (before after : List Element) :
    Element.joinRight tier (.op symbol :: .node left :: before) (.node right :: after) =
      Element.joinRight tier before (.node (left.build role right) :: after) := by
  rw [Element.joinRight.eq_def]
  simp [hasTier_op, here, Element.join, info_of_roleAt? here]

theorem elements_cons (first : Expr) (symbol : String) (e : Expr) (rest : List (String × Expr)) :
    elements ⟨first, (symbol, e) :: rest⟩ =
      .node first :: .op symbol :: elements ⟨e, rest⟩ := rfl

theorem joinLeft_elements (tier : Nat) (first : Expr) (rest : List (String × Expr))
    (before : List Element) :
    Element.joinLeft tier before (elements ⟨first, rest⟩) =
      .ok (before.reverse ++ (sweepLeft tier first rest).elements) := by
  -- The induction is on the operators still to come; the operand before them has grown out of all that were
  -- joined.
  induction rest generalizing first before with
  | nil => simp [elements, sweepLeft, Element.joinLeft]
  | cons pair rest ih =>
      obtain ⟨symbol, e⟩ := pair
      rw [elements_cons, Element.joinLeft, sweepLeft]
      cases found : roleAt? tier symbol with
      | none =>
          rw [joinLeft_pass found, ih, elements_append]
          simp [elements]
      | some role => exact (joinLeft_join found first e before _).trans (ih _ before)

theorem joinRight_elements (tier : Nat) (first : Expr) (rest : List (String × Expr))
    (before after : List Element) :
    Element.joinRight tier ((elements ⟨first, rest⟩).reverse ++ before) after =
      Element.joinRight tier before ((sweepRight tier first rest).elements ++ after) := by
  induction rest generalizing first before after with
  | nil => rfl
  | cons pair rest ih =>
      obtain ⟨symbol, e⟩ := pair
      rw [elements_cons, List.reverse_cons, List.reverse_cons, List.append_assoc, List.append_assoc,
        ih, sweepRight]
      cases found : roleAt? tier symbol with
      | none =>
          dsimp only
          rw [elements_append, List.singleton_append, joinRight_pass found]
          rfl
      | some role => exact joinRight_join found ..

theorem joinTier_elements (tier : Nat) (c : Chain) :
    Element.joinTier c.elements tier = .ok (c.sweep tier).elements := by
  unfold Element.joinTier sweep
  split
  · have joined := joinRight_elements tier c.first c.rest [] []
    rw [List.append_nil, List.append_nil] at joined
    exact joined
  · exact joinLeft_elements tier c.first c.rest []

theorem foldTiers_elements (tiers : List Nat) (c : Chain) :
    tiers.foldlM Element.joinTier c.elements = .ok (c.sweeps tiers).elements := by
  induction tiers generalizing c with
  | nil => rfl
  | cons tier tiers ih =>
      rw [List.foldlM_cons, joinTier_elements]
      exact ih (c.sweep tier)

def symbols (c : Chain) : List String := c.rest.map Prod.fst

theorem symbols_append (c : Chain) (symbol : String) (d : Chain) :
    (c.append symbol d).symbols = c.symbols ++ symbol :: d.symbols := by
  simp [symbols, append]

theorem symbols_sweepLeft (tier : Nat) (first : Expr) (rest : List (String × Expr)) :
    (sweepLeft tier first rest).symbols =
      (rest.map Prod.fst).filter fun symbol => (roleAt? tier symbol).isNone := by
  induction rest generalizing first with
  | nil => rfl
  | cons pair rest ih =>
      obtain ⟨symbol, e⟩ := pair
      rw [sweepLeft, List.map_cons, List.filter_cons]
      cases found : roleAt? tier symbol with
      | none =>
          dsimp only
          rw [symbols_append, ih]
          rfl
      | some role => exact ih _

theorem symbols_sweepRight (tier : Nat) (first : Expr) (rest : List (String × Expr)) :
    (sweepRight tier first rest).symbols =
      (rest.map Prod.fst).filter fun symbol => (roleAt? tier symbol).isNone := by
  induction rest generalizing first with
  | nil => rfl
  | cons pair rest ih =>
      obtain ⟨symbol, e⟩ := pair
      rw [sweepRight, List.map_cons, List.filter_cons]
      cases found : roleAt? tier symbol with
      | none =>
          dsimp only
          rw [symbols_append, ih]
          rfl
      | some role => exact ih e

theorem symbols_sweep (tier : Nat) (c : Chain) :
    (c.sweep tier).symbols = c.symbols.filter fun symbol => (roleAt? tier symbol).isNone := by
  unfold sweep
  split
  · exact symbols_sweepRight tier c.first c.rest
  · exact symbols_sweepLeft tier c.first c.rest

theorem mem_symbols_sweeps {tiers : List Nat} {c : Chain} {symbol : String} :
    symbol ∈ (c.sweeps tiers).symbols ↔
      symbol ∈ c.symbols ∧ ∀ tier ∈ tiers, roleAt? tier symbol = none := by
  induction tiers generalizing c with
  | nil => simp [sweeps]
  | cons tier tiers ih =>
      have swept : c.sweeps (tier :: tiers) = (c.sweep tier).sweeps tiers := rfl
      rw [swept, ih, symbols_sweep, List.mem_filter, Option.isNone_iff_eq_none, List.forall_mem_cons,
        and_assoc]

theorem eq_single_of_symbols {c : Chain} (none : c.symbols = []) : c = ⟨c.first, []⟩ := by
  obtain ⟨first, rest⟩ := c
  obtain rfl : rest = [] := List.map_eq_nil_iff.mp none
  rfl

section Apart

variable {tier : Nat} {symbol : String} (other : roleAt? tier symbol = none)
include other

theorem sweepLeft_append (first : Expr) (rest : List (String × Expr)) (d : Chain) :
    sweepLeft tier first (rest ++ (symbol, d.first) :: d.rest) =
      (sweepLeft tier first rest).append symbol (sweepLeft tier d.first d.rest) := by
  induction rest generalizing first with
  | nil => simp only [List.nil_append, sweepLeft, other]
  | cons pair rest ih =>
      obtain ⟨next, e⟩ := pair
      rw [List.cons_append, sweepLeft, sweepLeft]
      cases found : roleAt? tier next with
      | none =>
          dsimp only
          rw [ih e]
          rfl
      | some role => exact ih _

theorem sweepRight_append (first : Expr) (rest : List (String × Expr)) (d : Chain) :
    sweepRight tier first (rest ++ (symbol, d.first) :: d.rest) =
      (sweepRight tier first rest).append symbol (sweepRight tier d.first d.rest) := by
  induction rest generalizing first with
  | nil => simp only [List.nil_append, sweepRight, other]
  | cons pair rest ih =>
      obtain ⟨next, e⟩ := pair
      rw [List.cons_append, sweepRight, sweepRight, ih e]
      cases found : roleAt? tier next with
      | none => rfl
      | some role => rfl

theorem sweep_append (c d : Chain) :
    (c.append symbol d).sweep tier = (c.sweep tier).append symbol (d.sweep tier) := by
  unfold sweep
  split
  · exact sweepRight_append other c.first c.rest d
  · exact sweepLeft_append other c.first c.rest d

end Apart

theorem sweeps_append {tiers : List Nat} {symbol : String}
    (others : ∀ tier ∈ tiers, roleAt? tier symbol = none) (c d : Chain) :
    (c.append symbol d).sweeps tiers = (c.sweeps tiers).append symbol (d.sweeps tiers) := by
  induction tiers generalizing c d with
  | nil => rfl
  | cons tier tiers ih =>
      obtain ⟨other, others⟩ := List.forall_mem_cons.mp others
      have swept : (c.append symbol d).sweeps (tier :: tiers) =
          ((c.append symbol d).sweep tier).sweeps tiers := rfl
      rw [swept, sweep_append other, ih others]
      rfl

theorem sweeps_single (tiers : List Nat) (e : Expr) : sweeps tiers ⟨e, []⟩ = ⟨e, []⟩ := by
  induction tiers with
  | nil => rfl
  | cons tier tiers ih =>
      have swept : sweep tier ⟨e, []⟩ = ⟨e, []⟩ := by
        unfold sweep
        split <;> rfl
      calc
        sweeps (tier :: tiers) ⟨e, []⟩ = sweeps tiers (sweep tier ⟨e, []⟩) := rfl
        _ = ⟨e, []⟩ := by rw [swept, ih]

section Root

variable {tier : Nat} {symbol : String} {role : Operator.Role} {c d : Chain} {left right : Expr}
  (here : roleAt? tier symbol = some role)
include here

theorem sweep_last (groups : Operator.groupsRight tier = false) (lefts : c.sweep tier = ⟨left, []⟩) :
    (c.append symbol ⟨right, []⟩).sweep tier = ⟨left.build role right, []⟩ := by
  obtain ⟨first, rest⟩ := c
  simp only [sweep, groups, append, Bool.false_eq_true, if_false] at lefts ⊢
  induction rest generalizing first with
  | nil =>
      cases lefts
      simp [sweepLeft, here]
  | cons pair rest ih =>
      obtain ⟨next, e⟩ := pair
      rw [sweepLeft] at lefts
      rw [List.cons_append, sweepLeft]
      cases found : roleAt? tier next with
      | none =>
          rw [found] at lefts
          cases lefts
      | some other =>
          rw [found] at lefts
          exact ih _ lefts

theorem sweep_first (groups : Operator.groupsRight tier = true) (rights : d.sweep tier = ⟨right, []⟩) :
    (append ⟨left, []⟩ symbol d).sweep tier = ⟨left.build role right, []⟩ := by
  simp only [sweep, groups, append, if_true, List.nil_append] at rights ⊢
  rw [sweepRight, here, rights]

end Root

theorem sweeps_covered {c : Chain} {tiers : List Nat}
    (covered : ∀ symbol ∈ c.symbols, ∃ tier ∈ tiers, roleAt? tier symbol ≠ none) (more : List Nat) :
    c.sweeps tiers = ⟨(c.sweeps (tiers ++ more)).first, []⟩ := by
  have none : (c.sweeps tiers).symbols = [] := by
    rw [List.eq_nil_iff_forall_not_mem]
    intro symbol mem
    obtain ⟨mem, gone⟩ := mem_symbols_sweeps.mp mem
    obtain ⟨tier, here, role⟩ := covered symbol mem
    exact role (gone tier here)
  have single := eq_single_of_symbols none
  have all : c.sweeps (tiers ++ more) = (c.sweeps tiers).sweeps more := List.foldl_append
  rw [all, single, sweeps_single]

theorem op_mem_elements {c : Chain} {symbol : String} :
    .op symbol ∈ c.elements ↔ symbol ∈ c.symbols := by
  simp [elements, symbols]

theorem sweeps_split (lower upper : List Nat) (tier : Nat) (c : Chain) :
    c.sweeps (lower ++ tier :: upper) = ((c.sweeps lower).sweep tier).sweeps upper := by
  rw [sweeps, List.foldl_append]
  rfl

theorem roleAt?_of_info {tier : Nat} {symbol : String} {role : Operator.Role}
    (info : Operator.info? symbol = some (tier, role)) : roleAt? tier symbol = some role := by
  simp [roleAt?, info]

def WithinTier (tier : Nat) (c : Chain) : Prop :=
  ∀ symbol ∈ c.symbols, ∃ u role, Operator.info? symbol = some (u, role) ∧ u ≤ tier

section Tiers

variable {c d : Chain} {tier : Nat} {lower upper : List Nat}
  (split : Operator.tiers = lower ++ tier :: upper)
include split

theorem tiers_sorted : (∀ u ∈ lower, u < tier) ∧ ∀ u ∈ upper, tier < u := by
  have sorted : Operator.tiers.Pairwise (· < ·) := List.pairwise_lt_range
  rw [split, List.pairwise_append, List.pairwise_cons] at sorted
  obtain ⟨_, ⟨above, _⟩, below⟩ := sorted
  exact ⟨fun u low => below u low tier (.head _), above⟩

theorem WithinTier.covered (within : c.WithinTier tier) (symbol : String)
    (mem : symbol ∈ c.symbols) :
    ∃ u, (u ∈ lower ∨ u = tier) ∧ roleAt? u symbol ≠ none := by
  obtain ⟨u, role, info, le⟩ := within symbol mem
  refine ⟨u, ?_, by simp [roleAt?_of_info info]⟩
  have place := Element.tier_mem info
  rw [split, List.mem_append, List.mem_cons] at place
  rcases place with low | same | high
  · exact .inl low
  · exact .inr same
  · exact absurd ((tiers_sorted split).2 u high) (Nat.not_lt.mpr le)

theorem sweep_within (within : c.WithinTier tier) :
    (c.sweeps lower).sweep tier = ⟨(c.sweeps Operator.tiers).first, []⟩ := by
  have covered : ∀ symbol ∈ c.symbols, ∃ u ∈ lower ++ [tier], roleAt? u symbol ≠ none := by
    intro symbol mem
    obtain ⟨u, place, role⟩ := within.covered split symbol mem
    exact ⟨u, by simpa using place, role⟩
  have swept := sweeps_covered covered upper
  rw [List.append_assoc, List.singleton_append, ← split, sweeps_split] at swept
  exact swept

theorem sweeps_without (within : c.WithinTier tier)
    (absent : ∀ e ∈ c.elements, Element.hasTier tier e = false) :
    c.sweeps lower = ⟨(c.sweeps Operator.tiers).first, []⟩ := by
  rw [split]
  refine sweeps_covered (fun symbol mem => ?_) (tier :: upper)
  obtain ⟨u, place, role⟩ := within.covered split symbol mem
  rcases place with low | same
  · exact ⟨u, low, role⟩
  · have none := absent _ (op_mem_elements.mpr mem)
    rw [hasTier_op, Option.isSome_eq_false_iff, Option.isNone_iff_eq_none] at none
    exact absurd none (same ▸ role)

end Tiers

theorem sweeps_root {c d : Chain} {symbol : String} {tier : Nat} {role : Operator.Role}
    (isRoot : Element.IsRoot c.elements symbol tier role d.elements) (lefts : c.WithinTier tier)
    (rights : d.WithinTier tier) :
    (c.append symbol d).sweeps Operator.tiers =
      ⟨(c.sweeps Operator.tiers).first.build role (d.sweeps Operator.tiers).first, []⟩ := by
  have here : roleAt? tier symbol = some role := roleAt?_of_info isRoot.info
  obtain ⟨lower, upper, split⟩ := List.append_of_mem (Element.tier_mem isRoot.info)
  have apart : ∀ u ∈ lower, roleAt? u symbol = none := by
    intro u low
    have ne : ¬tier = u := Nat.ne_of_gt ((tiers_sorted split).1 u low)
    simp [roleAt?, isRoot.info, ne]
  have joined : ((c.append symbol d).sweeps lower).sweep tier =
      ⟨(c.sweeps Operator.tiers).first.build role (d.sweeps Operator.tiers).first, []⟩ := by
    rw [sweeps_append apart]
    cases groups : Operator.groupsRight tier with
    | true =>
        rw [sweeps_without split lefts (isRoot.first groups)]
        exact sweep_first here groups (sweep_within split rights)
    | false =>
        rw [sweeps_without split rights (isRoot.last groups)]
        exact sweep_last here groups (sweep_within split lefts)
  have all := sweeps_split lower upper tier (c.append symbol d)
  rw [joined, sweeps_single, ← split] at all
  exact all

def Known (c : Chain) : Prop := ∀ symbol ∈ c.symbols, (Operator.info? symbol).isSome

theorem exists_first {α : Type} {p : α → Bool} {xs : List α} (exists_mem : ∃ x ∈ xs, p x = true) :
    ∃ before x after, xs = before ++ x :: after ∧ p x = true ∧ ∀ y ∈ before, p y = false := by
  obtain ⟨x, found⟩ := Option.isSome_iff_exists.mp (List.find?_isSome.mpr exists_mem)
  obtain ⟨here, before, after, split, none⟩ := List.find?_eq_some_iff_append.mp found
  exact ⟨before, x, after, split, here, fun y mem => by simpa using none y mem⟩

theorem exists_last {α : Type} {p : α → Bool} {xs : List α} (exists_mem : ∃ x ∈ xs, p x = true) :
    ∃ before x after, xs = before ++ x :: after ∧ p x = true ∧ ∀ y ∈ after, p y = false := by
  obtain ⟨x, mem, here⟩ := exists_mem
  obtain ⟨before, x, after, split, here, none⟩ :=
    exists_first ⟨x, List.mem_reverse.mpr mem, here⟩
  refine ⟨after.reverse, x, before.reverse, ?_, here, fun y mem => none y (List.mem_reverse.mp mem)⟩
  rw [← List.reverse_reverse xs, split]
  simp

theorem WithinTier.tier_le {c : Chain} {tier other : Nat} {e : Element} (within : c.WithinTier tier)
    (mem : e ∈ c.elements) (tiers : Element.tier? e = some other) : other ≤ tier := by
  cases e with
  | node e => cases tiers
  | op symbol =>
      obtain ⟨u, role, info, le⟩ := within symbol (op_mem_elements.mp mem)
      simp only [Element.tier?, Operator.tier?, info, Option.map_some, Option.some.injEq] at tiers
      exact tiers ▸ le

theorem hasTier_eq_false {c : Chain} {tier : Nat}
    (absent : ∀ pair ∈ c.rest, (roleAt? tier pair.1).isSome = false) (e : Element)
    (mem : e ∈ c.elements) : Element.hasTier tier e = false := by
  cases e with
  | node e => rfl
  | op symbol =>
      obtain ⟨pair, here, rfl⟩ := List.mem_map.mp (op_mem_elements.mp mem)
      rw [hasTier_op]
      exact absent pair here

theorem exists_loosest {c : Chain} (known : c.Known) (joins : c.rest ≠ []) :
    ∃ tier, c.WithinTier tier ∧ ∃ pair ∈ c.rest, (roleAt? tier pair.1).isSome = true := by
  have tier_mem : ∀ symbol ∈ c.symbols, ∀ tier role, Operator.info? symbol = some (tier, role) →
      tier ∈ c.symbols.filterMap Operator.tier? := by
    intro symbol mem tier role info
    exact List.mem_filterMap.mpr ⟨symbol, mem, by simp [Operator.tier?, info]⟩
  obtain ⟨pair, mem⟩ := List.exists_mem_of_ne_nil c.rest joins
  have symbol_mem : pair.1 ∈ c.symbols := List.mem_map_of_mem mem
  obtain ⟨⟨tier, role⟩, info⟩ := Option.isSome_iff_exists.mp (known pair.1 symbol_mem)
  have some_tier := tier_mem pair.1 symbol_mem tier role info
  obtain ⟨loosest, max⟩ := Option.isSome_iff_exists.mp
    (List.isSome_max?_of_mem some_tier)
  obtain ⟨there, bound⟩ := List.max?_eq_some_iff.mp max
  refine ⟨loosest, fun symbol mem => ?_, ?_⟩
  · obtain ⟨⟨u, role⟩, info⟩ := Option.isSome_iff_exists.mp (known symbol mem)
    exact ⟨u, role, info, bound u (tier_mem symbol mem u role info)⟩
  · obtain ⟨symbol, mem, tiers⟩ := List.mem_filterMap.mp there
    obtain ⟨pair, here, rfl⟩ := List.mem_map.mp mem
    obtain ⟨⟨u, role⟩, info, rfl⟩ := Option.map_eq_some_iff.mp tiers
    exact ⟨pair, here, by simp [roleAt?_of_info info]⟩

theorem isRoot_of_within {left right : Chain} {symbol : String} {tier : Nat}
    (within : (append left symbol right).WithinTier tier)
    (here : (roleAt? tier symbol).isSome = true)
    (firsts : Operator.groupsRight tier = true →
      ∀ pair ∈ left.rest, (roleAt? tier pair.1).isSome = false)
    (lasts : Operator.groupsRight tier = false →
      ∀ pair ∈ right.rest, (roleAt? tier pair.1).isSome = false) :
    ∃ role, Element.IsRoot left.elements symbol tier role right.elements ∧
      left.WithinTier tier ∧ right.WithinTier tier := by
  obtain ⟨role, action⟩ := Option.isSome_iff_exists.mp here
  rw [WithinTier, symbols_append] at within
  have lefts : left.WithinTier tier := fun other mem =>
    within other (List.mem_append_left _ mem)
  have rights : right.WithinTier tier := fun other mem =>
    within other (List.mem_append_right _ (.tail _ mem))
  refine ⟨role, ⟨info_of_roleAt? action, fun e mem other tiers => ?_, fun groups => ?_,
    fun groups => ?_⟩, lefts, rights⟩
  · rcases List.mem_append.mp mem with early | late
    · exact lefts.tier_le early tiers
    · exact rights.tier_le late tiers
  · exact hasTier_eq_false (firsts groups)
  · exact hasTier_eq_false (lasts groups)

theorem exists_root {c : Chain} (known : c.Known) (joins : c.rest ≠ []) :
    ∃ left symbol right tier role, c = append left symbol right ∧
      Element.IsRoot left.elements symbol tier role right.elements ∧
      left.WithinTier tier ∧ right.WithinTier tier := by
  obtain ⟨tier, within, found⟩ := exists_loosest known joins
  obtain ⟨first, rest⟩ := c
  cases groups : Operator.groupsRight tier with
  | true =>
      obtain ⟨before, ⟨symbol, e⟩, after, rfl, here, none⟩ := exists_first found
      change (append ⟨first, before⟩ symbol ⟨e, after⟩).WithinTier tier at within
      obtain ⟨role, root⟩ := isRoot_of_within within here (fun _ => none) fun left =>
        nomatch groups.symm.trans left
      exact ⟨_, symbol, _, tier, role, rfl, root⟩
  | false =>
      obtain ⟨before, ⟨symbol, e⟩, after, rfl, here, none⟩ := exists_last found
      change (append ⟨first, before⟩ symbol ⟨e, after⟩).WithinTier tier at within
      obtain ⟨role, root⟩ := isRoot_of_within within here
        (fun right => nomatch groups.symm.trans right) fun _ => none
      exact ⟨_, symbol, _, tier, role, rfl, root⟩

theorem known_append {c d : Chain} {symbol : String} (known : (c.append symbol d).Known) :
    c.Known ∧ d.Known := by
  rw [Known, symbols_append] at known
  exact ⟨fun other mem => known other (List.mem_append_left _ mem),
    fun other mem => known other (List.mem_append_right _ (.tail _ mem))⟩

theorem sweeps_tree {c : Chain} (known : c.Known) :
    ∃ e, c.sweeps Operator.tiers = ⟨e, []⟩ ∧ Element.tree c.elements = some e := by
  -- The induction is on the number of operators: both sides of the root have fewer.
  induction total : c.rest.length using Nat.strongRecOn generalizing c with
  | ind size ih =>
      by_cases joins : c.rest = []
      · obtain ⟨first, rest⟩ := c
        obtain rfl : rest = [] := joins
        exact ⟨first, sweeps_single .., Element.tree_node first⟩
      · obtain ⟨c, symbol, d, tier, role, rfl, isRoot, lefts, rights⟩ := exists_root known joins
        obtain ⟨knownLeft, knownRight⟩ := known_append known
        rw [append, List.length_append, List.length_cons] at total
        obtain ⟨left, sweptLeft, treeLeft⟩ := ih _ (by omega) knownLeft rfl
        obtain ⟨right, sweptRight, treeRight⟩ := ih _ (by omega) knownRight rfl
        refine ⟨left.build role right, ?_, ?_⟩
        · rw [sweeps_root isRoot lefts rights, sweptLeft, sweptRight]
        · rw [elements_append]
          exact Element.tree_eq isRoot treeLeft treeRight

end Chain

namespace Element

theorem atOperand_of_alternates (symbol : String) (rest : List Element) :
    (before : List Element) → Alternates (before ++ .op symbol :: rest) →
      atOperand before.reverse = false
  | [], alternates => alternates.elim
  | .op _ :: _, alternates => alternates.elim
  | [.node _], _ => rfl
  | .node _ :: .node _ :: _, alternates => alternates.elim
  | .node e :: .op other :: before, alternates => by
      have ih := atOperand_of_alternates symbol rest before alternates
      rw [List.reverse_cons, List.reverse_cons]
      cases split : before.reverse with
      | nil =>
          rw [split] at ih
          cases ih
      | cons last front =>
          rw [split] at ih
          exact ih

theorem nonePending_of_alternates {elements : List Element} (alternates : Alternates elements) :
    NonePending elements := by
  rintro before symbol e after rfl
  exact atOperand_of_alternates symbol _ before alternates

theorem joinTiers_tree {elements : List Element} (alternates : Alternates elements)
    (known : Known elements) :
    ∃ e, tree elements = some e ∧ joinTiers elements = .ok [.node e] := by
  obtain ⟨c, rfl⟩ := Chain.exists_of_alternates elements alternates
  have knownChain : c.Known := fun symbol mem => known symbol (Chain.op_mem_elements.mpr mem)
  obtain ⟨e, swept, treed⟩ := Chain.sweeps_tree knownChain
  refine ⟨e, treed, ?_⟩
  rw [joinTiers, unknown?_eq_none.mpr known, Chain.foldTiers_elements, swept]
  rfl

/-- Operands and operators in turn are read as the table says. All other lists without a pending prefix
operator are refused. -/
theorem collapse_follows_table (elements : List Element) :
    (Alternates elements → Known elements →
      ∃ e, tree elements = some e ∧ joinTiers elements = .ok [.node e] ∧
        collapse elements = .ok (some e)) ∧
    (∀ e, elements = [.node e] → collapse elements = .ok (some e)) ∧
    (elements ≠ [] → NonePending elements → ¬(Alternates elements ∧ Known elements) →
      ∃ fault, collapse elements = .error fault ∧ Refused fault) := by
  have collapsed : Alternates elements → ∀ e, joinTiers elements = .ok [.node e] →
      collapse elements = .ok (some e) := by
    intro alternates e joined
    unfold collapse
    split
    · exact alternates.elim
    · rw [applyPrefixes_eq (nonePending_of_alternates alternates)]
      change (joinTiers elements >>= _) = _
      rw [joined]
      rfl
  refine ⟨fun alternates known => ?_, ?_, collapse_refuses⟩
  · obtain ⟨e, treed, joined⟩ := joinTiers_tree alternates known
    exact ⟨e, treed, joined, collapsed alternates e joined⟩
  · rintro e rfl
    exact collapsed trivial e rfl

theorem collapse_sum_of_product :
    let elements : List Element := [.node (.globalVar "a"), .op "+", .node (.globalVar "b"), .op "*",
      .node (.globalVar "c")]
    Alternates elements ∧ Known elements ∧
      ∃ e, tree elements = some e ∧ collapse elements = .ok (some e) := by
  intro elements
  have known : Known elements := unknown?_eq_none.mp (by decide +kernel)
  obtain ⟨e, treed, _, collapsed⟩ := (collapse_follows_table elements).1 trivial known
  exact ⟨trivial, known, e, treed, collapsed⟩

end Element

end Calculator
