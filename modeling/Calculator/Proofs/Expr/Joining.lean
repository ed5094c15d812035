import Calculator.Expr.Element
import Mathlib.Logic.Relation

/-! Joining operands step by step. What joins down to one operand alternated before, so that every list
that does not alternate is refused. -/

namespace Calculator

namespace Element

/-- Operands with one operator between every two. -/
def Alternates : List Element → Prop
  | [.node _] => True
  | .node _ :: .op _ :: rest => Alternates rest
  | _ => False

def Known (elements : List Element) : Prop :=
  ∀ symbol, .op symbol ∈ elements → (Operator.info? symbol).isSome

def NonePending (elements : List Element) : Prop :=
  ∀ before symbol e after, elements = before ++ .op symbol :: .node e :: after →
    atOperand before.reverse = false

/-- One operator of a tier and the operands beside it become an operand. -/
inductive Joined (tier : Nat) : List Element → List Element → Prop
  | join {symbol : String} {role : Operator.Role} (before after : List Element) (left right : Expr)
      (found : Operator.info? symbol = some (tier, role)) :
      Joined tier (before ++ .node left :: .op symbol :: .node right :: after)
        (before ++ .node (left.build role right) :: after)

def Reduces : List Element → List Element → Prop :=
  Relation.ReflTransGen fun xs ys => ∃ tier, Joined tier xs ys

theorem alternates_node (x y : Expr) (rest : List Element) :
    Alternates (.node x :: rest) ↔ Alternates (.node y :: rest) := by
  cases rest with
  | nil => exact Iff.rfl
  | cons next rest => cases next <;> exact Iff.rfl

theorem alternates_splice (after : List Element) (symbol : String) (left right e : Expr) :
    (before : List Element) →
      (Alternates (before ++ .node e :: after) ↔
        Alternates (before ++ .node left :: .op symbol :: .node right :: after))
  | [] => alternates_node e right after
  | .op _ :: _ => Iff.rfl
  | [.node _] => Iff.rfl
  | .node _ :: .node _ :: _ => Iff.rfl
  | .node _ :: .op _ :: rest => alternates_splice after symbol left right e rest

theorem Joined.alternates_iff {tier : Nat} {xs ys : List Element} (joined : Joined tier xs ys) :
    Alternates ys ↔ Alternates xs := by
  cases joined with
  | join before after left right found => exact alternates_splice after _ left right _ before

theorem Joined.op_mem {tier : Nat} {xs ys : List Element} (joined : Joined tier xs ys)
    {symbol : String} (mem : .op symbol ∈ ys) : .op symbol ∈ xs := by
  cases joined with
  | join before after left right found =>
      simp only [List.mem_append, List.mem_cons, reduceCtorEq, false_or] at mem ⊢
      exact mem.imp_right .inr

theorem Joined.ne_nil {tier : Nat} {xs ys : List Element} (joined : Joined tier xs ys) : ys ≠ [] := by
  cases joined with
  | join before after left right found => simp

namespace Reduces

variable {xs ys zs : List Element}

theorem alternates_iff (reduces : Reduces xs ys) : Alternates ys ↔ Alternates xs := by
  induction reduces with
  | refl => exact Iff.rfl
  | tail _ step ih =>
      obtain ⟨tier, joined⟩ := step
      exact joined.alternates_iff.trans ih

theorem op_mem (reduces : Reduces xs ys) {symbol : String} (mem : .op symbol ∈ ys) :
    .op symbol ∈ xs := by
  induction reduces with
  | refl => exact mem
  | tail _ step ih =>
      obtain ⟨tier, joined⟩ := step
      exact ih (joined.op_mem mem)

theorem ne_nil (reduces : Reduces xs ys) (nonempty : xs ≠ []) : ys ≠ [] := by
  cases reduces with
  | refl => exact nonempty
  | tail _ step =>
      obtain ⟨tier, joined⟩ := step
      exact joined.ne_nil

end Reduces

def Unjoined (fault : ParseError) : Prop :=
  ∃ symbol, fault = .unknownOperator symbol ∨ fault = .missingLeftOperand symbol ∨
    fault = .missingRightOperand symbol

theorem join_ok {symbol : String} {left right : Option Element} {e : Expr}
    (ok : join symbol left right = .ok e) :
    ∃ l r tier role, left = some (.node l) ∧ right = some (.node r) ∧
      Operator.info? symbol = some (tier, role) ∧ e = l.build role r := by
  unfold join at ok
  split at ok
  · rename_i l r
    split at ok
    · rename_i tier role found
      exact ⟨l, r, tier, role, rfl, rfl, found, (Except.ok.inj ok).symm⟩
    · cases ok
  · cases ok
  · cases ok

theorem join_error {symbol : String} {left right : Option Element} {fault : ParseError}
    (failed : join symbol left right = .error fault) : Unjoined fault := by
  refine ⟨symbol, ?_⟩
  unfold join at failed
  split at failed
  · split at failed
    · cases failed
    · exact .inl (Except.error.inj failed).symm
  · exact .inr (.inr (Except.error.inj failed).symm)
  · exact .inr (.inl (Except.error.inj failed).symm)

theorem tier_of_hasTier {tier found : Nat} {symbol : String} {role : Operator.Role}
    (here : hasTier tier (.op symbol) = true) (info : Operator.info? symbol = some (found, role)) :
    Operator.info? symbol = some (tier, role) := by
  simp only [hasTier, Operator.tier?, info, Option.map_some, Option.some.injEq,
    decide_eq_true_eq] at here
  rw [info, here]

section Tier

variable {tier : Nat} {before after xs ys : List Element}

theorem joinLeft_reduces (passed : ∀ e ∈ before, hasTier tier e = false)
    (ok : joinLeft tier before xs = .ok ys) :
    Reduces (before.reverse ++ xs) ys ∧ ∀ e ∈ ys, hasTier tier e = false := by
  fun_induction joinLeft tier before xs with
  | case1 before =>
      obtain rfl := Except.ok.inj ok
      rw [List.append_nil]
      exact ⟨.refl, fun e mem => passed e (List.mem_reverse.mp mem)⟩
  | case2 before e rest ih =>
      have reduces := ih (List.forall_mem_cons.mpr ⟨rfl, passed⟩) ok
      rwa [List.reverse_cons, List.append_assoc] at reduces
  | case3 before symbol here e next rest joins ih =>
      rw [joins] at ok
      obtain ⟨left, right, found, role, last, first, info, rfl⟩ := join_ok joins
      obtain ⟨before, rfl⟩ := List.head?_eq_some_iff.mp last
      obtain rfl := Option.some.inj first
      obtain ⟨_, passed⟩ := List.forall_mem_cons.mp passed
      obtain ⟨reduces, clean⟩ := ih (List.forall_mem_cons.mpr ⟨rfl, passed⟩) ok
      refine ⟨.head ⟨tier, ?_⟩ reduces, clean⟩
      simp only [List.tail_cons, List.reverse_cons, List.append_assoc, List.singleton_append]
      exact .join _ _ _ _ (tier_of_hasTier here info)
  | case4 before symbol here e joins ih =>
      obtain ⟨_, _, _, _, _, first, _⟩ := join_ok joins
      cases first
  | case5 before symbol rest here fault fails => simp [fails] at ok
  | case6 before symbol rest other ih =>
      have reduces := ih (List.forall_mem_cons.mpr ⟨by simpa using other, passed⟩) ok
      rwa [List.reverse_cons, List.append_assoc] at reduces

theorem joinRight_reduces (passed : ∀ e ∈ after, hasTier tier e = false)
    (ok : joinRight tier before after = .ok ys) :
    Reduces (before.reverse ++ after) ys ∧ ∀ e ∈ ys, hasTier tier e = false := by
  fun_induction joinRight tier before after with
  | case1 after =>
      obtain rfl := Except.ok.inj ok
      exact ⟨.refl, passed⟩
  | case2 e before after ih =>
      have reduces := ih (List.forall_mem_cons.mpr ⟨rfl, passed⟩) ok
      rwa [List.reverse_cons, List.append_assoc]
  | case3 symbol after here e next before joins ih =>
      rw [joins] at ok
      obtain ⟨left, right, found, role, last, first, info, rfl⟩ := join_ok joins
      obtain ⟨after, rfl⟩ := List.head?_eq_some_iff.mp first
      obtain rfl := Option.some.inj last
      obtain ⟨_, passed⟩ := List.forall_mem_cons.mp passed
      obtain ⟨reduces, clean⟩ := ih (List.forall_mem_cons.mpr ⟨rfl, passed⟩) ok
      refine ⟨.head ⟨tier, ?_⟩ reduces, clean⟩
      simp only [List.tail_cons, List.reverse_cons, List.append_assoc, List.singleton_append]
      exact .join _ _ _ _ (tier_of_hasTier here info)
  | case4 symbol after here e joins ih =>
      obtain ⟨_, _, _, _, last, _⟩ := join_ok joins
      cases last
  | case5 symbol before after here fault fails => simp [fails] at ok
  | case6 symbol before after other ih =>
      have reduces := ih (List.forall_mem_cons.mpr ⟨by simpa using other, passed⟩) ok
      rwa [List.reverse_cons, List.append_assoc]

theorem joinTier_reduces (ok : joinTier xs tier = .ok ys) :
    Reduces xs ys ∧ ∀ e ∈ ys, hasTier tier e = false := by
  unfold joinTier at ok
  split at ok
  · have reduces := joinRight_reduces (List.forall_mem_nil _) ok
    rwa [List.reverse_reverse, List.append_nil] at reduces
  · exact joinLeft_reduces (List.forall_mem_nil _) ok

theorem joinLeft_error {fault : ParseError} (failed : joinLeft tier before xs = .error fault) :
    Unjoined fault := by
  fun_induction joinLeft tier before xs with
  | case1 before => cases failed
  | case2 before e rest ih => exact ih failed
  | case3 before symbol here e next rest joins ih =>
      rw [joins] at failed
      exact ih failed
  | case4 before symbol here e joins ih =>
      rw [joins] at failed
      exact ih failed
  | case5 before symbol rest here error fails =>
      rw [fails] at failed
      cases failed
      exact join_error fails
  | case6 before symbol rest other ih => exact ih failed

theorem joinRight_error {fault : ParseError} (failed : joinRight tier before after = .error fault) :
    Unjoined fault := by
  fun_induction joinRight tier before after with
  | case1 after => cases failed
  | case2 e before after ih => exact ih failed
  | case3 symbol after here e next before joins ih =>
      rw [joins] at failed
      exact ih failed
  | case4 symbol after here e joins ih =>
      rw [joins] at failed
      exact ih failed
  | case5 symbol before after here error fails =>
      rw [fails] at failed
      cases failed
      exact join_error fails
  | case6 symbol before after other ih => exact ih failed

theorem joinTier_error {fault : ParseError} (failed : joinTier xs tier = .error fault) :
    Unjoined fault := by
  unfold joinTier at failed
  split at failed
  · exact joinRight_error failed
  · exact joinLeft_error failed

end Tier

theorem foldTiers_reduces {tiers : List Nat} {xs ys : List Element}
    (ok : tiers.foldlM joinTier xs = .ok ys) :
    Reduces xs ys ∧ ∀ tier ∈ tiers, ∀ e ∈ ys, hasTier tier e = false := by
  induction tiers generalizing xs with
  | nil =>
      obtain rfl := Except.ok.inj ok
      exact ⟨.refl, List.forall_mem_nil _⟩
  | cons tier tiers ih =>
      rw [List.foldlM_cons] at ok
      cases joined : joinTier xs tier with
      | error fault =>
          rw [joined] at ok
          cases ok
      | ok zs =>
          rw [joined] at ok
          obtain ⟨first, clean⟩ := joinTier_reduces joined
          obtain ⟨rest, cleaner⟩ := ih ok
          refine ⟨first.trans rest, List.forall_mem_cons.mpr ⟨fun e mem => ?_, cleaner⟩⟩
          cases e with
          | node e => rfl
          | op symbol => exact clean _ (rest.op_mem mem)

theorem foldTiers_error {tiers : List Nat} {xs : List Element} {fault : ParseError}
    (failed : tiers.foldlM joinTier xs = .error fault) : Unjoined fault := by
  induction tiers generalizing xs with
  | nil => cases failed
  | cons tier tiers ih =>
      rw [List.foldlM_cons] at failed
      cases joined : joinTier xs tier with
      | error error =>
          rw [joined] at failed
          cases failed
          exact joinTier_error joined
      | ok zs =>
          rw [joined] at failed
          exact ih failed

theorem collapse_ok {elements : List Element} {root : Option Expr} (ok : collapse elements = .ok root) :
    elements = [] ∧ root = none ∨
      ∃ operands joined, applyPrefixes elements = .ok operands ∧ Reduces operands joined ∧
        ((∃ e, joined = [.node e] ∧ root = some e) ∨ (∀ e, .node e ∉ joined) ∧ root = none) := by
  unfold collapse at ok
  split at ok
  · cases ok
    exact .inl ⟨rfl, rfl⟩
  refine .inr ?_
  cases applied : applyPrefixes elements with
  | error fault =>
      rw [applied] at ok
      cases ok
  | ok operands =>
      rw [applied] at ok
      change (joinTiers operands >>= _) = _ at ok
      cases joins : joinTiers operands with
      | error fault =>
          rw [joins] at ok
          cases ok
      | ok joined =>
          rw [joins] at ok
          unfold joinTiers at joins
          split at joins
          · cases joins
          refine ⟨operands, joined, rfl, (foldTiers_reduces joins).1, ?_⟩
          match joined with
          | [.node e] => exact .inl ⟨e, rfl, (Except.ok.inj ok).symm⟩
          | [] => exact .inr ⟨nofun, (Except.ok.inj ok).symm⟩
          | [.op _] => exact .inr ⟨by simp, (Except.ok.inj ok).symm⟩
          | .node _ :: _ :: _ => cases ok
          | .op _ :: _ :: _ => cases ok

theorem tier_mem {symbol : String} {tier : Nat} {role : Operator.Role}
    (found : Operator.info? symbol = some (tier, role)) : tier ∈ Operator.tiers := by
  have all : ∀ entry ∈ Operator.table, entry.2.1 ∈ Operator.tiers := by decide
  obtain ⟨before, after, split, _⟩ := List.lookup_eq_some_iff.mp found
  refine all (symbol, tier, role) ?_
  rw [split]
  simp

theorem hasTier_of_info {symbol : String} {tier : Nat} {role : Operator.Role}
    (found : Operator.info? symbol = some (tier, role)) : hasTier tier (.op symbol) = true := by
  simp [hasTier, Operator.tier?, found]

theorem unknown?_eq_none {elements : List Element} : unknown? elements = none ↔ Known elements := by
  unfold unknown? Known
  rw [List.findSome?_eq_none_iff]
  constructor
  · intro none symbol mem
    have found := none _ mem
    dsimp only at found
    split at found
    · assumption
    · cases found
  · intro known e mem
    cases e with
    | node e => rfl
    | op symbol => simp [known symbol mem]

theorem nodes_of_joinTiers {xs ys : List Element} (known : Known xs)
    (ok : Operator.tiers.foldlM joinTier xs = .ok ys) (symbol : String) : .op symbol ∉ ys := by
  intro mem
  obtain ⟨reduces, clean⟩ := foldTiers_reduces ok
  obtain ⟨⟨tier, role⟩, found⟩ := Option.isSome_iff_exists.mp (known symbol (reduces.op_mem mem))
  have gone := clean tier (tier_mem found) _ mem
  rw [hasTier_of_info found] at gone
  cases gone

section Absent

variable {tier : Nat} {elements : List Element}

theorem joinLeft_absent (absent : ∀ e ∈ elements, hasTier tier e = false) (before : List Element) :
    joinLeft tier before elements = .ok (before.reverse ++ elements) := by
  induction elements generalizing before with
  | nil => simp [joinLeft]
  | cons e rest ih =>
      obtain ⟨here, absent⟩ := List.forall_mem_cons.mp absent
      have passed : joinLeft tier (e :: before) rest = .ok (before.reverse ++ e :: rest) := by
        rw [ih absent, List.reverse_cons, List.append_assoc]
        rfl
      cases e with
      | node e => exact passed
      | op symbol =>
          rw [joinLeft.eq_def]
          simpa [here] using passed

theorem joinRight_absent (absent : ∀ e ∈ elements, hasTier tier e = false) (after : List Element) :
    joinRight tier elements after = .ok (elements.reverse ++ after) := by
  induction elements generalizing after with
  | nil => rfl
  | cons e before ih =>
      obtain ⟨here, absent⟩ := List.forall_mem_cons.mp absent
      have passed : joinRight tier before (e :: after) = .ok ((e :: before).reverse ++ after) := by
        rw [ih absent, List.reverse_cons, List.append_assoc]
        rfl
      cases e with
      | node e => exact passed
      | op symbol =>
          rw [joinRight.eq_def]
          simpa [here] using passed

theorem joinTier_absent (absent : ∀ e ∈ elements, hasTier tier e = false) :
    joinTier elements tier = .ok elements := by
  unfold joinTier
  split
  · have joined := joinRight_absent (fun e mem => absent e (List.mem_reverse.mp mem)) []
    rwa [List.reverse_reverse, List.append_nil] at joined
  · exact joinLeft_absent absent []

theorem foldTiers_absent {tiers : List Nat}
    (absent : ∀ tier ∈ tiers, ∀ e ∈ elements, hasTier tier e = false) :
    tiers.foldlM joinTier elements = .ok elements := by
  induction tiers with
  | nil => rfl
  | cons tier tiers ih =>
      obtain ⟨here, absent⟩ := List.forall_mem_cons.mp absent
      rw [List.foldlM_cons, joinTier_absent here]
      exact ih absent

theorem foldTiers_round {lower upper : List Nat}
    (absent : ∀ u ∈ lower, ∀ e ∈ elements, hasTier u e = false) :
    (lower ++ tier :: upper).foldlM joinTier elements =
      joinTier elements tier >>= fun ys => (lower ++ tier :: upper).foldlM joinTier ys := by
  simp only [List.foldlM_append, List.foldlM_cons]
  rw [foldTiers_absent absent]
  change (joinTier elements tier >>= _) = _
  cases joined : joinTier elements tier with
  | error fault => rfl
  | ok ys =>
      obtain ⟨reduces, clean⟩ := joinTier_reduces joined
      have absentRest : ∀ u ∈ lower, ∀ e ∈ ys, hasTier u e = false := by
        intro u low e mem
        cases e with
        | node e => rfl
        | op symbol => exact absent u low _ (reduces.op_mem mem)
      change _ = lower.foldlM joinTier ys >>= _
      rw [foldTiers_absent absentRest]
      change _ = joinTier ys tier >>= _
      rw [joinTier_absent clean]

end Absent

def tier? : Element → Option Nat
  | .node _ => none
  | .op symbol => Operator.tier? symbol

theorem hasTier_iff {tier : Nat} {e : Element} : hasTier tier e = true ↔ tier? e = some tier := by
  cases e with
  | node e => simp [hasTier, tier?]
  | op symbol => simp [hasTier, tier?]

def tightest? (elements : List Element) : Option Nat := (elements.filterMap tier?).min?

theorem joinTiers_known {elements : List Element} (known : Known elements) :
    joinTiers elements = Operator.tiers.foldlM joinTier elements := by
  rw [joinTiers, unknown?_eq_none.mpr known]

theorem joinTiers_done {elements : List Element} (known : Known elements)
    (none : tightest? elements = none) : joinTiers elements = .ok elements := by
  have empty := List.filterMap_eq_nil_iff.mp (List.min?_eq_none_iff.mp none)
  rw [joinTiers_known known]
  refine foldTiers_absent fun tier _ e mem => ?_
  rw [Bool.eq_false_iff, ne_eq, hasTier_iff, empty e mem]
  exact Option.some_ne_none tier ∘ Eq.symm

/-- The operators of the tightest tier are joined first, and joining begins anew. -/
theorem joinTiers_round {elements : List Element} {tier : Nat} (known : Known elements)
    (tightest : tightest? elements = some tier) :
    joinTiers elements = joinTier elements tier >>= joinTiers := by
  obtain ⟨there, least⟩ := List.min?_eq_some_iff.mp tightest
  obtain ⟨e, mem, here⟩ := List.mem_filterMap.mp there
  have place : tier ∈ Operator.tiers := by
    cases e with
    | node e => cases here
    | op symbol =>
        obtain ⟨⟨u, role⟩, info, rfl⟩ := Option.map_eq_some_iff.mp here
        exact tier_mem info
  obtain ⟨lower, upper, split⟩ := List.append_of_mem place
  have sorted : Operator.tiers.Pairwise (· < ·) := List.pairwise_lt_range
  rw [split, List.pairwise_append] at sorted
  have absent : ∀ u ∈ lower, ∀ e ∈ elements, hasTier u e = false := by
    intro u low e mem
    rw [Bool.eq_false_iff, ne_eq, hasTier_iff]
    intro tiers
    exact Nat.not_lt.mpr (least u (List.mem_filterMap.mpr ⟨e, mem, tiers⟩))
      (sorted.2.2 u low tier (.head _))
  rw [joinTiers_known known, split, foldTiers_round absent]
  cases joined : joinTier elements tier with
  | error fault => rfl
  | ok ys =>
      have knownRest : Known ys := fun symbol mem =>
        known symbol ((joinTier_reduces joined).1.op_mem mem)
      exact (split ▸ joinTiers_known knownRest).symm

theorem foldPrefixes_eq {before after : List Element} {current : Element}
    (pending : NonePending (before.reverse ++ current :: after)) :
    foldPrefixes before current after = .ok (before.reverse ++ current :: after) := by
  induction before generalizing current after with
  | nil => rfl
  | cons e before ih =>
      have passed : foldPrefixes before e (current :: after) =
          .ok ((e :: before).reverse ++ current :: after) := by
        rw [List.reverse_cons, List.append_assoc] at pending ⊢
        exact ih pending
      cases e with
      | node e => exact passed
      | op symbol =>
          cases current with
          | op other => exact passed
          | node operand =>
              rw [List.reverse_cons, List.append_assoc] at pending
              have operand_before := pending before.reverse symbol operand after rfl
              rw [List.reverse_reverse] at operand_before
              unfold foldPrefixes
              rw [operand_before]
              exact passed

theorem applyPrefixes_eq {elements : List Element} (pending : NonePending elements) :
    applyPrefixes elements = .ok elements := by
  unfold applyPrefixes
  split
  · rename_i empty
    rw [List.reverse_eq_nil_iff.mp empty]
  · rename_i last before reversed
    have split : elements = before.reverse ++ [last] := by
      rw [← List.reverse_reverse elements, reversed, List.reverse_cons]
    rw [split] at pending ⊢
    exact foldPrefixes_eq pending

/-- The errors of elements that are no operands and operators in turn. -/
def Refused (fault : ParseError) : Prop := Unjoined fault ∨ fault = .trailingExpression

theorem collapse_refuses {elements : List Element} (nonempty : elements ≠ [])
    (pending : NonePending elements) (bad : ¬(Alternates elements ∧ Known elements)) :
    ∃ fault, collapse elements = .error fault ∧ Refused fault := by
  unfold collapse
  split
  · exact absurd rfl nonempty
  · rw [applyPrefixes_eq pending]
    change ∃ fault, (joinTiers elements >>= _) = .error fault ∧ Refused fault
    unfold joinTiers
    cases unknown : unknown? elements with
    | some symbol => exact ⟨_, rfl, .inl ⟨symbol, .inl rfl⟩⟩
    | none =>
        have known := unknown?_eq_none.mp unknown
        cases joined : Operator.tiers.foldlM joinTier elements with
        | error fault => exact ⟨fault, rfl, .inl (foldTiers_error joined)⟩
        | ok ys =>
            obtain ⟨reduces, _⟩ := foldTiers_reduces joined
            have nodes := nodes_of_joinTiers known joined
            cases ys with
            | nil => exact absurd rfl (reduces.ne_nil nonempty)
            | cons head rest =>
                cases head with
                | op symbol => exact absurd (.head _) (nodes symbol)
                | node e =>
                    cases rest with
                    | nil => exact absurd ⟨reduces.alternates_iff.mp trivial, known⟩ bad
                    | cons => exact ⟨_, rfl, .inr rfl⟩

end Element

end Calculator
