import Calculator.Proofs.Expr.Grammar

/-! Runs of prefix operators. A minus becomes a factor of its own, so that an operator before it applies
to that factor and not to the whole operand. -/

namespace Calculator

namespace Element

def applied (symbol : String) (operand : Expr) : Expr :=
  match symbol with
  | "-" => .binary (.value .multiply) (.constant .negativeOne) operand
  | "$" => .pointer operand
  | "#" => .localPointer operand
  | "!" => .unary .not operand
  | "~" => .unary .complement operand
  | _ => operand

/-- A run of prefix operators in which each one applies to all that comes after it. -/
def nested (run : List String) (operand : Expr) : Expr := run.foldr applied operand

def prefixRun (run : List String) (operand : Expr) : List Element :=
  run.map .op ++ [.node operand]

end Element

namespace Chain

/-- Puts a prefix operator before factors: it applies to the first of them, and a minus becomes a factor
before them. -/
def applyFirst (symbol : String) (c : Chain) : Chain :=
  match Element.prefixed? symbol c.first with
  | some e => ⟨e, c.rest⟩
  | none => ⟨.constant .negativeOne, (Operator.coefficient, c.first) :: c.rest⟩

def ofPrefixes (run : List String) (operand : Expr) : Chain := run.foldr applyFirst ⟨operand, []⟩

/-- The product of factors, from the left. -/
def product (c : Chain) : Expr :=
  c.rest.foldl (fun left (_, right) => .binary (.value .multiply) left right) c.first

end Chain

namespace Element

theorem atOperand_ops (run : List String) {before : List Element} (operand : atOperand before = true) :
    atOperand (run.map .op ++ before) = true := by
  cases run with
  | nil => exact operand
  | cons symbol run => rfl

theorem foldPrefixes_run (run : List String) (unary : ∀ p ∈ run, Operator.isUnary p = true)
    {before : List Element} (operand : atOperand before = true) (c : Chain) (after : List Element) :
    foldPrefixes (run.map .op ++ before) (.node c.first) (c.elements.tail ++ after) =
      foldPrefixes before (.node (run.foldl (fun c symbol => c.applyFirst symbol) c).first)
        ((run.foldl (fun c symbol => c.applyFirst symbol) c).elements.tail ++ after) := by
  -- The induction is on the operators before the operand, nearest first.
  induction run generalizing c with
  | nil => rfl
  | cons symbol run ih =>
      obtain ⟨isUnary, unary⟩ := List.forall_mem_cons.mp unary
      have next := ih unary (c.applyFirst symbol)
      rw [List.map_cons, List.cons_append, foldPrefixes, atOperand_ops run operand, isUnary,
        List.foldl_cons, ← next]
      unfold Chain.applyFirst
      cases prefixed? symbol c.first with
      | some e => rfl
      | none => rfl

theorem applyPrefixes_run {run : List String} (unary : ∀ p ∈ run, Operator.isUnary p = true)
    (operand : Expr) :
    applyPrefixes (prefixRun run operand) = .ok (Chain.ofPrefixes run operand).elements := by
  have reversed : ∀ p ∈ run.reverse, Operator.isUnary p = true :=
    fun p mem => unary p (List.mem_reverse.mp mem)
  have folded : foldPrefixes (run.reverse.map .op ++ []) (.node operand) [] =
      foldPrefixes [] (.node (Chain.ofPrefixes run operand).first)
        ((Chain.ofPrefixes run operand).elements.tail ++ []) := by
    rw [Chain.ofPrefixes, ← List.foldl_reverse]
    exact foldPrefixes_run run.reverse reversed rfl ⟨operand, []⟩ []
  rw [List.append_nil, List.append_nil] at folded
  unfold applyPrefixes prefixRun
  rw [List.reverse_append, ← List.map_reverse]
  exact folded

end Element

namespace Chain

def Factors (c : Chain) : Prop := ∀ symbol ∈ c.symbols, symbol = Operator.coefficient

theorem factors_ofPrefixes (run : List String) (operand : Expr) :
    (ofPrefixes run operand).Factors := by
  induction run with
  | nil => exact List.forall_mem_nil _
  | cons symbol run ih =>
      change Factors (applyFirst symbol (ofPrefixes run operand))
      unfold applyFirst
      split
      · exact ih
      · exact List.forall_mem_cons.mpr ⟨rfl, ih⟩

theorem sweepLeft_factors (first : Expr) (rest : List (String × Expr))
    (factors : ∀ symbol ∈ rest.map Prod.fst, symbol = Operator.coefficient) :
    sweepLeft 1 first rest = ⟨product ⟨first, rest⟩, []⟩ := by
  induction rest generalizing first with
  | nil => rfl
  | cons pair rest ih =>
      obtain ⟨symbol, e⟩ := pair
      obtain ⟨rfl, others⟩ := List.forall_mem_cons.mp factors
      have role : roleAt? 1 Operator.coefficient = some (.binary (.value .multiply)) := by decide
      rw [sweepLeft, role]
      exact ih _ others

theorem joinTiers_factors {c : Chain} (factors : c.Factors) :
    Element.joinTiers c.elements = .ok [.node c.product] := by
  have info : Operator.info? Operator.coefficient = some (1, .binary (.value .multiply)) := by decide
  have known : Element.Known c.elements := by
    intro symbol mem
    rw [factors symbol (op_mem_elements.mp mem), info]
    rfl
  have noPowers : ∀ tier ∈ [0], ∀ e ∈ c.elements, Element.hasTier tier e = false := by
    intro tier zero e mem
    cases e with
    | node e => rfl
    | op symbol =>
        rw [factors symbol (op_mem_elements.mp mem), List.mem_singleton.mp zero]
        simp [Element.hasTier, Operator.tier?, info]
  have swept : c.sweep 1 = ⟨c.product, []⟩ := sweepLeft_factors c.first c.rest factors
  have split : Operator.tiers = [0] ++ 1 :: List.range' 2 13 := by decide
  have single : ∀ tier ∈ Operator.tiers, ∀ e ∈ elements ⟨c.product, []⟩,
      Element.hasTier tier e = false := by
    intro tier _ e mem
    rw [List.mem_singleton.mp mem]
    rfl
  calc Element.joinTiers c.elements
      = Operator.tiers.foldlM Element.joinTier c.elements := Element.joinTiers_known known
    _ = Element.joinTier c.elements 1 >>= fun ys => Operator.tiers.foldlM Element.joinTier ys := by
        rw [split]
        exact Element.foldTiers_round noPowers
    _ = Operator.tiers.foldlM Element.joinTier (elements ⟨c.product, []⟩) := by
        rw [joinTier_elements, swept]
        exact pure_bind _ _
    _ = .ok [.node c.product] := Element.foldTiers_absent single

end Chain

namespace Element

theorem mem_unarySymbols {symbol : String} (unary : Operator.isUnary symbol = true) :
    symbol ∈ Operator.unarySymbols := by
  simpa [Operator.isUnary] using unary

theorem prefixed?_eq {symbol : String} (unary : Operator.isUnary symbol = true) (other : symbol ≠ "-")
    (operand : Expr) : prefixed? symbol operand = some (applied symbol operand) := by
  have cases := mem_unarySymbols unary
  simp only [Operator.unarySymbols, List.mem_cons, List.not_mem_nil, or_false] at cases
  rcases cases with rfl | rfl | rfl | rfl | rfl | rfl
  · rfl
  · exact absurd rfl other
  · rfl
  · rfl
  · rfl
  · rfl

theorem applied_ne_binary {symbol : String} (unary : Operator.isUnary symbol = true)
    (notMinus : symbol ≠ "-") (notPlus : symbol ≠ "+") (operand left right : Expr) (op : BinaryOp) :
    applied symbol operand ≠ .binary op left right := by
  have cases := mem_unarySymbols unary
  simp only [Operator.unarySymbols, List.mem_cons, List.not_mem_nil, or_false] at cases
  rcases cases with rfl | rfl | rfl | rfl | rfl | rfl
  · exact absurd rfl notPlus
  · exact absurd rfl notMinus
  · exact Expr.noConfusion
  · exact Expr.noConfusion
  · exact Expr.noConfusion
  · exact Expr.noConfusion

end Element

namespace Chain

theorem applyFirst_minus (c : Chain) :
    applyFirst "-" c = ⟨.constant .negativeOne, (Operator.coefficient, c.first) :: c.rest⟩ := rfl

theorem applyFirst_other {symbol : String} (unary : Operator.isUnary symbol = true)
    (other : symbol ≠ "-") (c : Chain) :
    applyFirst symbol c = ⟨Element.applied symbol c.first, c.rest⟩ := by
  rw [applyFirst, Element.prefixed?_eq unary other]

theorem product_last (first : Expr) (rest : List (String × Expr)) (symbol : String) (e : Expr) :
    product ⟨first, rest.concat (symbol, e)⟩ =
      .binary (.value .multiply) (product ⟨first, rest⟩) e := by
  rw [product, List.concat_eq_append, List.foldl_append]
  rfl

theorem product_of_rest {c : Chain} (several : c.rest ≠ []) :
    ∃ left right, c.product = .binary (.value .multiply) left right := by
  obtain ⟨first, rest⟩ := c
  obtain ⟨others, ⟨symbol, e⟩, rfl⟩ := (List.eq_nil_or_concat _).resolve_left several
  exact ⟨_, e, product_last first others symbol e⟩

section Run

variable {run : List String} (unary : ∀ p ∈ run, Operator.isUnary p = true) (operand : Expr)
include unary

theorem ofPrefixes_of_no_minus (none : "-" ∉ run) :
    ofPrefixes run operand = ⟨Element.nested run operand, []⟩ := by
  induction run with
  | nil => rfl
  | cons symbol run ih =>
      obtain ⟨isUnary, unary⟩ := List.forall_mem_cons.mp unary
      obtain ⟨other, absent⟩ := List.ne_and_not_mem_of_not_mem_cons none
      change applyFirst symbol (ofPrefixes run operand) = _
      rw [ih unary absent, applyFirst_other isUnary (Ne.symm other)]
      rfl

theorem several_of_minus (minus : "-" ∈ run) : (ofPrefixes run operand).rest ≠ [] := by
  induction run with
  | nil => cases minus
  | cons symbol run ih =>
      obtain ⟨isUnary, unary⟩ := List.forall_mem_cons.mp unary
      change (applyFirst symbol (ofPrefixes run operand)).rest ≠ []
      by_cases here : symbol = "-"
      · rw [here, applyFirst_minus]
        exact List.cons_ne_nil _ _
      · rw [applyFirst_other isUnary here]
        exact ih unary ((List.mem_cons.mp minus).resolve_left (Ne.symm here))

end Run

theorem product_eq_nested {run : List String} (unary : ∀ p ∈ run, Operator.isUnary p = true)
    (operand : Expr) :
    (ofPrefixes run operand).product = Element.nested run operand ↔
      "-" ∉ (run.dropWhile (· == "+")).tail := by
  induction run with
  | nil => simp [ofPrefixes, product, Element.nested]
  | cons symbol run ih =>
      obtain ⟨isUnary, others⟩ := List.forall_mem_cons.mp unary
      change (applyFirst symbol (ofPrefixes run operand)).product =
        Element.applied symbol (Element.nested run operand) ↔ _
      by_cases plus : symbol = "+"
      · subst plus
        exact ih others
      have kept : ((symbol :: run).dropWhile (· == "+")).tail = run := by
        rw [List.dropWhile_cons_of_neg (by simpa using plus), List.tail_cons]
      rw [kept]
      constructor
      · intro same minus
        have several := several_of_minus others operand minus
        by_cases here : symbol = "-"
        · subst here
          obtain ⟨front, ⟨other, e⟩, split⟩ := (List.eq_nil_or_concat _).resolve_left several
          rw [applyFirst_minus, split, ← List.concat_cons, product_last] at same
          obtain ⟨left, right, product⟩ := product_of_rest (c := ⟨.constant .negativeOne,
            (Operator.coefficient, (ofPrefixes run operand).first) :: front⟩) (List.cons_ne_nil _ _)
          rw [product] at same
          cases same
        · rw [applyFirst_other isUnary here] at same
          obtain ⟨left, right, product⟩ := product_of_rest
            (c := ⟨Element.applied symbol (ofPrefixes run operand).first,
              (ofPrefixes run operand).rest⟩) several
          rw [product] at same
          exact Element.applied_ne_binary isUnary here plus _ _ _ _ same.symm
      · intro none
        rw [ofPrefixes_of_no_minus others operand none]
        by_cases here : symbol = "-"
        · subst here
          rfl
        · rw [applyFirst_other isUnary here]
          rfl

end Chain

namespace Element

theorem collapse_eq_product {run : List String} (unary : ∀ p ∈ run, Operator.isUnary p = true)
    (operand : Expr) :
    collapse (prefixRun run operand) = .ok (some (Chain.ofPrefixes run operand).product) := by
  unfold collapse
  split
  · rename_i empty
    simp [prefixRun] at empty
  · rw [applyPrefixes_run unary]
    change (joinTiers (Chain.ofPrefixes run operand).elements >>= _) = _
    rw [Chain.joinTiers_factors (Chain.factors_ofPrefixes run operand)]
    rfl

/-- A run of prefix operators makes a product of factors. It nests only if, signs without effect aside,
no operator but the first is a minus. -/
theorem collapse_prefixRun {run : List String} (unary : ∀ p ∈ run, Operator.isUnary p = true)
    (operand : Expr) :
    collapse (prefixRun run operand) = .ok (some (Chain.ofPrefixes run operand).product) ∧
      (collapse (prefixRun run operand) = .ok (some (nested run operand)) ↔
        "-" ∉ (run.dropWhile (· == "+")).tail) := by
  have collapsed := collapse_eq_product unary operand
  refine ⟨collapsed, ?_⟩
  rw [collapsed, Except.ok.injEq, Option.some.injEq]
  exact Chain.product_eq_nested unary operand

theorem collapse_prefixRun_not_minus :
    (∀ p ∈ ["-", "!", "~"], Operator.isUnary p = true) ∧
      collapse (prefixRun ["-", "!", "~"] (.globalVar "x")) =
        .ok (some (nested ["-", "!", "~"] (.globalVar "x"))) := by
  have unary : ∀ p ∈ ["-", "!", "~"], Operator.isUnary p = true := by decide
  exact ⟨unary, (collapse_prefixRun unary (.globalVar "x")).2.mpr (by decide)⟩

/-- The complement of a negated operand takes the factor `-1` only. -/
theorem complement_of_minus_not_nested :
    ¬∀ run, (∀ p ∈ run, Operator.isUnary p = true) → ∀ operand,
      collapse (prefixRun run operand) = .ok (some (nested run operand)) := by
  intro nests
  have unary : ∀ p ∈ ["~", "-"], Operator.isUnary p = true := by decide
  have same := nests ["~", "-"] unary (.globalVar "x")
  rw [collapse_eq_product unary] at same
  cases same

theorem isRoot_between {symbol : String} {tier : Nat} {role : Operator.Role}
    (info : Operator.info? symbol = some (tier, role)) (left right : Expr) :
    IsRoot [.node left] symbol tier role [.node right] := by
  refine ⟨info, ?_, ?_, ?_⟩
  · intro e mem other tiers
    simp only [List.cons_append, List.nil_append, List.mem_cons, List.not_mem_nil, or_false] at mem
    rcases mem with rfl | rfl
    · cases tiers
    · cases tiers
  · rintro - e mem
    rw [List.mem_singleton.mp mem]
    rfl
  · rintro - e mem
    rw [List.mem_singleton.mp mem]
    rfl

theorem joinTiers_pair {symbol : String} {tier : Nat} {role : Operator.Role}
    (info : Operator.info? symbol = some (tier, role)) (left right : Expr) :
    joinTiers [.node left, .op symbol, .node right] = .ok [.node (left.build role right)] := by
  have known : Known [.node left, .op symbol, .node right] := by
    intro other mem
    obtain rfl : other = symbol := by simpa using mem
    simp [info]
  obtain ⟨e, treed, joined⟩ := joinTiers_tree
    (show Alternates [.node left, .op symbol, .node right] from trivial) known
  have tree := tree_eq (isRoot_between info left right) (tree_node left) (tree_node right)
  rw [List.singleton_append, treed] at tree
  cases tree
  exact joined

section Operands

variable {run others : List String} (unary : ∀ p ∈ run, Operator.isUnary p = true)
  (unaryOthers : ∀ p ∈ others, Operator.isUnary p = true) (none : "-" ∉ run) (noneOthers : "-" ∉ others)
include unary none

theorem foldPrefixes_nested {before : List Element} (operand : atOperand before = true) (e : Expr)
    (after : List Element) :
    foldPrefixes (run.reverse.map .op ++ before) (.node e) after =
      foldPrefixes before (.node (nested run e)) after := by
  have reversed : ∀ p ∈ run.reverse, Operator.isUnary p = true :=
    fun p mem => unary p (List.mem_reverse.mp mem)
  have folded := foldPrefixes_run run.reverse reversed operand ⟨e, []⟩ after
  rw [List.foldl_reverse] at folded
  change _ = foldPrefixes before (.node (Chain.ofPrefixes run e).first)
    ((Chain.ofPrefixes run e).elements.tail ++ after) at folded
  rw [Chain.ofPrefixes_of_no_minus unary e none] at folded
  exact folded

include unaryOthers noneOthers

theorem applyPrefixes_operands (symbol : String) (left right : Expr) :
    applyPrefixes (prefixRun run left ++ .op symbol :: prefixRun others right) =
      .ok [.node (nested run left), .op symbol, .node (nested others right)] := by
  have reversed : (prefixRun run left ++ .op symbol :: prefixRun others right).reverse =
      .node right :: (others.reverse.map .op ++ .op symbol :: .node left :: run.reverse.map .op) := by
    simp [prefixRun]
  rw [applyPrefixes, reversed]
  change foldPrefixes _ _ _ = _
  rw [foldPrefixes_nested unaryOthers noneOthers rfl right []]
  change foldPrefixes (run.reverse.map .op) (.node left) [.op symbol, .node (nested others right)] = _
  have folded := foldPrefixes_nested unary none (rfl : atOperand [] = true) left
    [.op symbol, .node (nested others right)]
  rw [List.append_nil] at folded
  exact folded

theorem collapse_operands {symbol : String} {tier : Nat} {role : Operator.Role}
    (info : Operator.info? symbol = some (tier, role)) (left right : Expr) :
    collapse (prefixRun run left ++ .op symbol :: prefixRun others right) =
      .ok (some ((nested run left).build role (nested others right))) := by
  unfold collapse
  split
  · rename_i empty
    simp [prefixRun] at empty
  · rw [applyPrefixes_operands unary unaryOthers none noneOthers]
    change (joinTiers _ >>= _) = _
    rw [joinTiers_pair info]
    rfl

end Operands

end Element

end Calculator
