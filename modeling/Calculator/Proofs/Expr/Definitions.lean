import Calculator.Proofs.Expr.Folding
import Calculator.Proofs.Expr.Lockstep
import Calculator.Proofs.Expr.Steps
import Calculator.Proofs.Names.Tokens

/-! Definitions of macros. What is read ahead as the body of a definition is what collapsing would make
its right operand. -/

namespace Calculator

namespace Expr

open Token Reading

section Bounds

variable {n : Nat} {t : Token} {rest : List Token}

theorem length_le_self (rest : List Token) : rest.length ≤ rest.length := Nat.le_refl _

theorem not_within_none (h : rest.length < 0) : False := Nat.not_lt_zero _ h

theorem rest_within (h : (t :: rest).length < n + 1) : rest.length < n := Nat.lt_of_succ_lt_succ h

theorem after_within (h : (t :: rest).length < n + 1) (after : Span rest) : after.val.length < n :=
  Nat.lt_of_le_of_lt after.property (rest_within h)

end Bounds

/-- Reads a token, where an operator stands for nothing but itself. -/
def readTokenInPlace {n : Nat} (words : Vocabulary) (read : SpanReader n) (topLevel : Bool) (p : Progress)
    (t : Token) (rest : List Token) (h : rest.length < n) : Reading (Progress × Span rest) :=
  if t.kind = .operator then return (p.pushOp t.text, ⟨rest, length_le_self rest⟩)
  else readToken words read topLevel p t rest h

def readInPlace (words : Vocabulary) :
    (n : Nat) → Bool → Progress → (span : List Token) → span.length < n → Reading Progress
  | 0, _, _, _, h => (not_within_none h).elim
  | _ + 1, _, p, [], _ => return p
  | n + 1, topLevel, p, t :: rest, h => do
    let read : SpanReader n := fun topLevel span h => do
      Element.collapse (← readInPlace words n topLevel .start span h).finish
    let (p, after) ← readTokenInPlace words read topLevel p t rest (rest_within h)
    readInPlace words n topLevel p after.val (after_within h after)

def progressInPlace (words : Vocabulary) (topLevel : Bool) (p : Progress) (span : List Token) :
    Reading Progress :=
  readInPlace words (span.length + 1) topLevel p span (length_lt_bound span)

def expressionInPlace (words : Vocabulary) (topLevel : Bool) (span : List Token) :
    Reading (Option Expr) := do
  Element.collapse (← progressInPlace words topLevel .start span).finish

def readerInPlace (words : Vocabulary) (n : Nat) : SpanReader n := fun topLevel span _ =>
  expressionInPlace words topLevel span

section Equations

variable {words : Vocabulary} {topLevel : Bool} {p : Progress} {t : Token} {rest : List Token}

theorem readTokenInPlace_agree {n m : Nat} {read : SpanReader n} {other : SpanReader m}
    (agree : ∀ topLevel span (h : span.length < n) (h' : span.length < m),
      read topLevel span h = other topLevel span h') (h : rest.length < n) (h' : rest.length < m) :
    readTokenInPlace words read topLevel p t rest h = readTokenInPlace words other topLevel p t rest h' := by
  unfold readTokenInPlace
  rw [readToken_agree agree words topLevel p t rest h h']

theorem readInPlace_bound {n m : Nat} (topLevel : Bool) (p : Progress) (span : List Token)
    (h : span.length < n) (h' : span.length < m) :
    readInPlace words n topLevel p span h = readInPlace words m topLevel p span h' := by
  induction n generalizing m topLevel p span with
  | zero => exact absurd h (Nat.not_lt_zero _)
  | succ n ih =>
      cases m with
      | zero => exact absurd h' (Nat.not_lt_zero _)
      | succ m =>
          cases span with
          | nil => rfl
          | cons t rest =>
              simp only [readInPlace]
              rw [readTokenInPlace_agree (fun topLevel span h h' => by rw [ih topLevel .start span h h'])
                (Nat.lt_of_succ_lt_succ h) (Nat.lt_of_succ_lt_succ h')]
              exact bind_congr fun (p, after) => ih topLevel p after.val _ _

theorem progressInPlace_cons :
    progressInPlace words topLevel p (t :: rest) =
      readTokenInPlace words (readerInPlace words (rest.length + 1)) topLevel p t rest
        (Nat.lt_succ_self _) >>= fun (p, after) => progressInPlace words topLevel p after.val := by
  have agree : ∀ topLevel span (h : span.length < rest.length + 1) (h' : span.length < rest.length + 1),
      (do Element.collapse (← readInPlace words (rest.length + 1) topLevel .start span h).finish :
          Reading (Option Expr)) = readerInPlace words (rest.length + 1) topLevel span h' := by
    intro topLevel span h h'
    rw [readInPlace_bound topLevel .start span h (Nat.lt_succ_self _)]
    rfl
  unfold progressInPlace
  simp only [List.length_cons, readInPlace]
  rw [readTokenInPlace_agree agree _ (Nat.lt_succ_self _)]
  exact bind_congr fun (p, after) => readInPlace_bound topLevel p after.val _ _

theorem progressInPlace_operator (kind : t.kind = .operator) :
    progressInPlace words topLevel p (t :: rest) = progressInPlace words topLevel (p.pushOp t.text) rest := by
  rw [progressInPlace_cons, readTokenInPlace, if_pos kind]
  rfl

end Equations

/-- Every name in the line leads with a sigil. -/
def Sigiled (line : List Token) : Prop := ∀ t ∈ line, t.kind = .name → Name.sigil? t.text ≠ none

theorem Sigiled.classify {t : Token} {line : List Token} (sigiled : Sigiled (t :: line))
    (kind : t.kind = .name) {words words' : Vocabulary} {known known' : NameStack}
    {topLevel topLevel' : Bool} {rest rest' : List Token} :
    Name.classify words known topLevel t.text rest =
      Name.classify words' known' topLevel' t.text rest' := by
  obtain ⟨c, sigil⟩ := Option.ne_none_iff_exists'.mp (sigiled t (.head _) kind)
  exact Name.classify_of_sigil? sigil sigil

theorem Sigiled.sublist {line part : List Token} (sigiled : Sigiled line) (within : part ⊆ line) :
    Sigiled part := fun t mem => sigiled t (within mem)

theorem splitBody_subset (depth : Int) (line : List Token) :
    (splitBody depth line).1 ⊆ line ∧ (splitBody depth line).2 ⊆ line := by
  have whole := splitBody_append depth line
  exact ⟨fun t mem => whole ▸ List.mem_append_left _ mem, fun t mem => whole ▸ List.mem_append_right _ mem⟩

theorem group_subset {opening : Token} {line : List Token} {g : Group line}
    (grouped : group opening line = .ok g) : g.inside ⊆ line ∧ g.after ⊆ line := by
  have whole := group_append grouped
  refine ⟨fun t mem => ?_, fun t mem => ?_⟩
  · rw [whole]
    exact List.mem_append_left _ mem
  · rw [whole]
    exact List.mem_append_right _ (.tail _ mem)

section Split

variable {line body tail : List Token}

theorem splitBody_front {t t' : Token} {l : List Token} (split : splitBody 0 (t' :: line) = (t :: l, tail)) :
    t = t' ∧ t.Binds := by
  have whole := splitBody_append 0 (t' :: line)
  rw [split] at whole
  obtain ⟨rfl, _⟩ := List.cons.inj whole
  refine ⟨rfl, Classical.byContradiction fun loose => ?_⟩
  rw [splitBody_loose loose] at split
  cases split

theorem splitBody_next {t : Token} (flat : t.Flat) (split : splitBody 0 (t :: line) = (t :: body, tail)) :
    splitBody 0 line = (body, tail) := by
  rw [splitBody_flat flat (.inr (splitBody_front split).2)] at split
  obtain ⟨first, rfl⟩ := Prod.mk.inj split
  exact Prod.ext (List.cons.inj first).2 rfl

theorem splitBody_ends {depth : Int} (split : splitBody depth line = (body, tail)) :
    tail = [] ∨ ∃ t rest, tail = t :: rest ∧ ¬t.Binds := by
  fun_induction splitBody depth line generalizing body tail with
  | case1 =>
      cases split
      exact .inl rfl
  | case2 depth t rest loose =>
      cases split
      simp only [Bool.and_eq_true, decide_eq_true_eq] at loose
      refine .inr ⟨t, rest, rfl, fun binds => ?_⟩
      exact ne_true_of_eq_false (binds loose.1.1) loose.2
  | case3 =>
      rename_i ih
      cases split
      exact ih (by assumption)

theorem splitBody_nil (split : splitBody 0 line = ([], tail)) : line = tail := by
  have whole := splitBody_append 0 line
  rw [split] at whole
  exact whole.symm

theorem opensCall_body (split : splitBody 0 line = (body, tail)) :
    Name.opensCall body = Name.opensCall line := by
  cases body with
  | cons t l =>
      cases line with
      | nil => cases split
      | cons t' line =>
          obtain ⟨rfl, _⟩ := splitBody_front split
          rfl
  | nil =>
      obtain rfl := splitBody_nil split
      obtain rfl | ⟨t, rest, rfl, loose⟩ := splitBody_ends split
      · rfl
      · simp [Name.opensCall, (Classical.not_imp.mp loose).1]

theorem group_body {opening : Token} (split : splitBody 1 line = (body, tail)) :
    Results Eq (GroupsAlike (fun b l => splitBody 0 l = (b, tail)) Eq) (group opening body)
      (group opening line) := by
  cases found : closeGroup? 0 line with
  | none =>
      have none : closeGroup? 0 body = none := by
        refine Option.eq_none_iff_forall_ne_some.mpr fun g closed => ?_
        have closes := (Closes.of_closeGroup? closed).append tail
        have whole := splitBody_append 1 line
        rw [split] at whole
        rw [whole] at closes
        obtain ⟨_, further, _⟩ := closes.closeGroup?
        rw [found] at further
        cases further
      rw [group, group, found, none]
      exact .fault rfl
  | some g =>
      have closes := Closes.of_closeGroup? found
      have inner := closes.balanced_inside
      have ends := splitBody_balanced inner (Int.le_of_lt Int.one_pos) (.inl Int.one_pos) (g.close :: g.after)
      simp only [← closes.eq_append, splitBody_closing closes.kind, split, Int.sub_self] at ends
      obtain ⟨rfl, rest⟩ := Prod.mk.inj ends
      have within := inner.closes closes.kind (splitBody 0 g.after).1
      obtain ⟨g', found', inside, close, after⟩ := within.closeGroup?
      have after : splitBody 0 g.after = (g'.after, tail) := Prod.ext after.symm rest.symm
      unfold group
      simp only [found, found', close]
      split
      · exact .value ⟨inside, close, after⟩
      · exact .fault rfl

def BodyOf (tail body line : List Token) : Prop := splitBody 0 line = (body, tail) ∧ Sigiled line

theorem BodyOf.groups {opening opening' : Token} (bodies : BodyOf tail (opening :: body) (opening' :: line))
    (opens : opening.kind = .openParen) : opening = opening' ∧
      Results Eq (GroupsAlike (BodyOf tail) Eq) (group opening body) (group opening' line) := by
  obtain ⟨split, sigiled⟩ := bodies
  obtain ⟨rfl, _⟩ := splitBody_front split
  refine ⟨rfl, ?_⟩
  rw [splitBody_opening opens, Int.zero_add] at split
  obtain ⟨first, rest⟩ := Prod.mk.inj split
  have results : Results Eq _ (group opening body) (group opening line) :=
    group_body (Prod.ext (List.cons.inj first).2 rest)
  generalize group opening body = outcome at results ⊢
  cases grouped : group opening line with
  | error fault =>
      rw [grouped] at results
      cases results with
      | fault same => exact .fault same
  | ok g =>
      rw [grouped] at results
      cases results with
      | value groups =>
          have within : g.after ⊆ opening :: line :=
            fun t mem => .tail _ ((group_subset grouped).2 mem)
          exact .value ⟨groups.inside, groups.close, groups.after, sigiled.sublist within⟩

end Split

theorem keeps_tight : Keeps Element.Tight where
  node tight e := (Element.without_node e).append tight
  sign tight sign isSign := by
    have none : ∀ sign ∈ readingSigns, Operator.loose sign = false := by decide +kernel
    exact (Element.without_op (none sign isSign)).append tight

def bodyLockstep (below : List Element) (tail : List Token) : Lockstep :=
  overLockstep below keeps_tight (BodyOf tail) (fun bodies => opensCall_body bodies.1) BodyOf.groups

section Body

variable (words : Vocabulary) (topLevel : Bool) {p : Progress} (tight : Element.Tight p.elements)
  (below : List Element) {t : Token} {body line tail : List Token}
include tight

theorem readTokenInPlace_split (bodies : BodyOf tail (t :: body) (t :: line)) :
    Alike Eq (bodyLockstep below tail).Ongoing
      (readTokenInPlace words (readerInPlace words (body.length + 1)) topLevel p t body (Nat.lt_succ_self _))
      (readTokenInPlace words (readerInPlace words (line.length + 1)) topLevel (p.over below) t line
        (Nat.lt_succ_self _)) := by
  obtain ⟨split, sigiled⟩ := bodies
  have next (flat : t.Flat) : BodyOf tail body line :=
    ⟨splitBody_next flat split, sigiled.sublist (List.subset_cons_self ..)⟩
  unfold readTokenInPlace
  by_cases kind : t.kind = .operator
  · rw [if_pos kind, if_pos kind]
    have tight : Element.Tight (p.pushOp t.text).elements :=
      (Element.without_op ((splitBody_front split).2 kind)).append tight
    exact alike_pure ⟨⟨rfl, tight⟩, next (flat_of_operator kind)⟩
  · rw [if_neg kind, if_neg kind]
    refine Lockstep.readToken (C := bodyLockstep below tail) ?_ rfl ⟨rfl, tight⟩ _ _ kind
      (fun _ => ⟨rfl, rfl⟩) (fun named _ _ _ => sigiled.classify named) ⟨split, sigiled⟩ next
    rintro topLevel _ span _ h h' rfl rfl
    exact alike_refl root_alike _

theorem progressInPlace_split (bodies : BodyOf tail body line) :
    progressInPlace words topLevel (p.over below) line = (do
      progressInPlace words topLevel ((← progressInPlace words topLevel p body).over below) tail) ∧
    (progressInPlace words topLevel p body).Yields (Element.Tight ·.elements) := by
  induction size : line.length using Nat.strongRecOn generalizing p body line with
  | ind size ih =>
      subst size
      cases body with
      | nil =>
          obtain rfl := splitBody_nil bodies.1
          exact ⟨rfl, yields_pure tight⟩
      | cons t body =>
          cases line with
          | nil => cases bodies.1
          | cons t' line =>
              obtain ⟨rfl, _⟩ := splitBody_front bodies.1
              have first := readTokenInPlace_split words topLevel tight below bodies
              rw [progressInPlace_cons, progressInPlace_cons, bind_assoc]
              constructor
              · refine (first.bind ?_).eq.symm
                rintro ⟨p', after⟩ ⟨_, after'⟩ ⟨⟨rfl, tight⟩, bodies⟩
                change Alike Eq Eq _ (progressInPlace words topLevel (p'.over below) after'.val)
                rw [(ih _ (Nat.lt_succ_of_le after'.property) tight bodies rfl).1]
                exact alike_refl (fun _ => rfl) _
              · refine first.yields.bind ?_
                rintro ⟨p', after⟩ ⟨⟨_, after'⟩, ⟨rfl, tight⟩, bodies⟩
                exact (ih _ (Nat.lt_succ_of_le after'.property) tight bodies rfl).2

end Body

namespace Reading

variable {α β α' β' : Type} {r : α → β → Prop} {q : α' → β' → Prop}

/-- Whatever names are declared, one reading succeeds where the other one does, with results that belong
together. -/
def Accepts (r : α → β → Prop) (x : Reading α) (y : Reading β) : Prop :=
  ∀ names names', Results (fun _ _ => True) r (x.run names).1 (y.run names').1

theorem Accepts.bind {x : Reading α} {y : Reading β} {f : α → Reading α'} {g : β → Reading β'}
    (first : Accepts r x y) (next : ∀ a b, r a b → Accepts q (f a) (g b)) :
    Accepts q (x >>= f) (y >>= g) := by
  intro names names'
  have results := first names names'
  rw [run_bind, run_bind]
  generalize x.run names = p at results ⊢
  generalize y.run names' = p' at results ⊢
  obtain ⟨result, after⟩ := p
  obtain ⟨result', after'⟩ := p'
  cases results with
  | value values => exact next _ _ values after after'
  | fault => exact .fault trivial

def acceptCongruence : Congruence where
  Rel := Accepts
  known _ _ := True
  value values := fun _ _ => .value values
  fault _ := fun _ _ => .fault trivial
  andThen := Accepts.bind
  get each := fun names names' => each names names' trivial names names'
  inFrame alike := fun names names' => alike names.push names'.push

theorem accepts_iff {x y : Reading α} :
    Accepts Eq x y ↔ ∀ names names' a, (x.run names).1 = .ok a ↔ (y.run names').1 = .ok a := by
  constructor
  · intro accepts names names' a
    have results := accepts names names'
    generalize (x.run names).1 = outcome at results ⊢
    generalize (y.run names').1 = outcome' at results ⊢
    cases results with
    | value same => rw [same]
    | fault => exact ⟨nofun, nofun⟩
  · intro each names names'
    have each := each names names'
    generalize (x.run names).1 = outcome at each ⊢
    generalize (y.run names').1 = outcome' at each ⊢
    cases outcome with
    | ok a =>
        obtain rfl := (each a).mp rfl
        exact .value rfl
    | error fault =>
        cases outcome' with
        | ok b => exact nomatch (each b).mpr rfl
        | error => exact .fault trivial

theorem Gives.accepts {x : Reading α} {a : α} (gives : Gives x a) {f : α → Reading α'} {y : Reading β'}
    (next : Accepts q (f a) y) : Accepts q (x >>= f) y := by
  intro names names'
  obtain ⟨after, runs⟩ := gives names
  have results := next after names'
  rw [run_bind, runs]
  exact results

theorem Accepts.roots {x y : Reading (Option Expr)} (accepts : Accepts Eq x y) :
    Accepts (Option.Rel Eq) x y := by
  intro names names'
  have results := accepts names names'
  generalize (x.run names).1 = outcome at results ⊢
  generalize (y.run names').1 = outcome' at results ⊢
  cases results with
  | value same => exact .value (same ▸ root_alike _)
  | fault => exact .fault trivial

end Reading

/-- Two ways in which a span was read so far that come to the same, whatever is read after it. -/
structure Same (p p' : Progress) : Prop where
  value : p.value = p'.value
  collapse (more : List Element) (root : Option Expr) :
    Element.collapse (Progress.finish ⟨more ++ p.elements, none⟩) = .ok root ↔
      Element.collapse (Progress.finish ⟨more ++ p'.elements, none⟩) = .ok root

theorem Same.refl (p : Progress) : Same p p := ⟨rfl, fun _ _ => .rfl⟩

theorem Same.push {p p' : Progress} (same : Same p p') (last : Element) (value : Option TokenKind) :
    Same ⟨last :: p.elements, value⟩ ⟨last :: p'.elements, value⟩ := by
  refine ⟨rfl, fun more root => ?_⟩
  simpa using same.collapse (more ++ [last]) root

def inPlaceLockstep : Lockstep where
  toCongruence := acceptCongruence
  line l l' := l = l' ∧ Sigiled l
  span l l' := l = l' ∧ Sigiled l
  level _ _ := True
  name := Eq
  expr := Eq
  going := Same
  declare _ _ := fun _ _ => .value trivial
  below := trivial
  expr_refl _ := rfl
  layer := Layer.eq
  alias_rel := alias_rel_of_eq
  invalidAlias _ := fun _ _ => .fault trivial
  spans := by
    rintro l _ ⟨rfl, sigiled⟩
    refine List.forall₂_same.mpr fun span mem => ⟨rfl, ?_⟩
    refine parameters_all sigiled span.val ?_
    rw [← spans_val]
    exact List.mem_map_of_mem mem
  opensCall lines := congrArg Name.opensCall lines.1
  groups := by
    rintro opening _ l _ ⟨same, sigiled⟩ opens
    obtain ⟨rfl, rfl⟩ := List.cons.inj same
    refine ⟨rfl, Reading.Congruence.except ?_⟩
    cases grouped : group opening l with
    | error fault => exact .fault rfl
    | ok g =>
        obtain ⟨inside, after⟩ := group_subset grouped
        have sigiled : Sigiled l := sigiled.sublist (List.subset_cons_self ..)
        exact .value ⟨⟨rfl, sigiled.sublist inside⟩, rfl, ⟨rfl, sigiled.sublist after⟩⟩
  value_eq := Same.value
  pushNode := by
    rintro p p' same e _ rfl last
    exact same.push (.node e) (some last)
  pushSign same _ _ := same.push _ none

section Definition

open Element

def After (more : List Element) : Prop :=
  more = [] ∨ ∃ later symbol, more = later ++ [.op symbol] ∧ Operator.loose symbol = true

theorem finish_tight {p : Progress} (tight : Tight p.elements) : p.finish = p.elements.reverse := by
  rcases p.finish_eq with all | dropped
  · exact all
  · have mem : .op ";" ∈ p.elements := by
      rw [← List.mem_reverse, ← dropped]
      exact List.mem_append_right _ (.head _)
    exact absurd (tight ";" mem) (by decide +kernel)

theorem finish_after {more : List Element} (after : After more) :
    ∃ rest, Cut rest ∧ ∀ elements front, elements ≠ [] → Tight elements →
      Progress.finish ⟨more ++ (elements ++ front), none⟩ = front.reverse ++ (elements.reverse ++ rest) := by
  obtain rfl | ⟨later, symbol, rfl, isLoose⟩ := after
  · refine ⟨[], .inl rfl, fun elements front some tight => ?_⟩
    have above := Progress.finish_over (p := ⟨elements, none⟩) some front
    rwa [finish_tight (p := ⟨elements, none⟩) tight, ← List.append_nil elements.reverse] at above
  · refine ⟨Progress.finish ⟨later ++ [.op symbol], none⟩, ?_, fun elements front _ _ => ?_⟩
    · rcases Progress.finish_eq ⟨later ++ [.op symbol], none⟩ with all | dropped
      · exact .inr ⟨symbol, later.reverse, by simpa using all, isLoose⟩
      · generalize Progress.finish _ = rest at dropped
        cases rest with
        | nil => exact .inl rfl
        | cons first rest =>
            simp only [List.cons_append, List.reverse_append, List.reverse_singleton] at dropped
            obtain ⟨rfl, _⟩ := List.cons.inj dropped
            exact .inr ⟨symbol, rest, rfl, isLoose⟩
    · have above := Progress.finish_over (p := ⟨later ++ [.op symbol], none⟩) (by simp) (elements ++ front)
      rwa [List.reverse_append, List.append_assoc] at above

theorem collapse_definition {symbol : String}
    (assigns : Operator.tier? symbol = some Operator.assignmentTier) {body : List Element}
    (tight : Tight body) {more : List Element} (after : After more) (front : List Element)
    (root : Option Expr) :
    collapse (Progress.finish ⟨more ++ (body ++ .op symbol :: front), none⟩) = .ok root ↔
      ∃ e, collapse body.reverse = .ok (some e) ∧
        collapse (Progress.finish ⟨more ++ .node e :: .op symbol :: front, none⟩) = .ok root := by
  obtain ⟨rest, cut, finish⟩ := finish_after after
  have sign : Operator.loose symbol = false := by simp [Operator.loose, assigns]
  have ends (elements : List Element) (tight : Tight elements) :
      Progress.finish ⟨more ++ (elements ++ .op symbol :: front), none⟩ =
        front.reverse ++ .op symbol :: (elements.reverse ++ rest) := by
    have finish := finish (elements ++ [.op symbol]) front (by simp) (tight.append (without_op sign))
    simpa using finish
  have tight' : Tight body.reverse := fun symbol mem => tight symbol (List.mem_reverse.mp mem)
  have ends_node (e : Expr) := ends [.node e] (without_node e)
  simp only [List.singleton_append, List.reverse_singleton] at ends_node
  rw [ends body tight]
  simp only [ends_node]
  cases root with
  | none =>
      simp [collapse_none_iff]
  | some root => exact collapse_assignment assigns tight' cut

end Definition

section Accepting

variable {words : Vocabulary}

def collapseInPlace (words : Vocabulary) (topLevel : Bool) (p : Progress) (span : List Token) :
    Reading (Option Expr) := do
  Element.collapse (← progressInPlace words topLevel p span).finish

def collapseOf (words : Vocabulary) (topLevel : Bool) (p : Progress) (span : List Token) :
    Reading (Option Expr) := do
  Element.collapse (← elementsOf words topLevel p span)

theorem collapseOf_nil (topLevel : Bool) (p : Progress) :
    collapseOf words topLevel p [] = liftM (Element.collapse p.finish) := rfl

theorem collapseInPlace_nil (topLevel : Bool) (p : Progress) :
    collapseInPlace words topLevel p [] = liftM (Element.collapse p.finish) := rfl

theorem progressInPlace_pushes (topLevel : Bool) (p : Progress) (line : List Token) :
    (progressInPlace words topLevel p line).Yields fun q => ∃ more, q.elements = more ++ p.elements := by
  induction size : line.length using Nat.strongRecOn generalizing p line with
  | ind size ih =>
      subst size
      cases line with
      | nil => exact yields_pure ⟨[], rfl⟩
      | cons t rest =>
          rw [progressInPlace_cons]
          have first : (readTokenInPlace words (readerInPlace words (rest.length + 1)) topLevel p t rest
              (Nat.lt_succ_self _)).Yields fun a => ∃ more, a.1.elements = more ++ p.elements := by
            unfold readTokenInPlace
            split
            · exact yields_pure ⟨[.op t.text], rfl⟩
            · intro names a after runs
              obtain ⟨last, pushed, grown⟩ := (readToken_taken runs).pushes
              exact ⟨last :: pushed, grown⟩
          refine first.bind ?_
          rintro a ⟨pushed, grown⟩ names q after runs
          obtain ⟨more, further⟩ := ih _ (Nat.lt_succ_of_le a.2.property) a.1 a.2.val rfl names q after runs
          exact ⟨more ++ pushed, by rw [further, grown, List.append_assoc]⟩

theorem accepts_readMacroBody {n : Nat} {read : SpanReader n} {body : List Token} {h : body.length < n}
    {y : Reading (Option Expr)} (alike : Accepts Eq (read false body h) y) (name : String) (args : List Expr)
    (symbol : String) :
    Accepts Eq (readMacroBody read name args symbol body h) (do
      match ← y with
      | some e => return e
      | none => throw (.missingRightOperand symbol)) := by
  unfold readMacroBody
  refine (declare_gives name .macroName).accepts (Accepts.bind (r := Eq) ?_ ?_)
  · have inner := (declareAll_gives (args.filterMap alias?)).accepts (f := fun _ => read false body h) alike
    exact fun names names' => inner names.push names'
  · rintro root _ rfl
    exact accepts_iff.mpr fun _ _ _ => by cases root <;> exact .rfl

def AcceptsSpan (words : Vocabulary) (span : List Token) : Prop :=
  ∀ topLevel topLevel' p p', Sigiled span → Same p p' →
    Accepts Eq (collapseOf words topLevel p span) (collapseInPlace words topLevel' p' span)

section Definition

variable {p p' q : Progress} (same : Same p p') {symbol : String}
  (assigns : Operator.tier? symbol = some Operator.assignmentTier) (tight : Element.Tight q.elements)
include same assigns tight

theorem collapse_body {more : List Element} (after : After more) (root : Option Expr) :
    Element.collapse (Progress.finish ⟨more ++ (q.elements ++ .op symbol :: p'.elements), none⟩) = .ok root ↔
      ∃ e, Element.collapse q.elements.reverse = .ok (some e) ∧
        Element.collapse (Progress.finish ⟨more ++ .node e :: .op symbol :: p.elements, none⟩) = .ok root := by
  rw [collapse_definition assigns tight after]
  refine exists_congr fun e => and_congr_right fun _ => ?_
  have further := same.collapse (more ++ [.node e, .op symbol]) root
  simp only [List.append_assoc, List.cons_append, List.nil_append] at further
  exact further.symm

theorem same_definition {e : Expr} (collapsed : Element.collapse q.elements.reverse = .ok (some e))
    {other : String} (isLoose : Operator.loose other = true) :
    Same (((p.pushOp symbol).pushNode e .name).pushOp other)
      ((q.over (.op symbol :: p'.elements)).pushOp other) := by
  refine ⟨rfl, fun more root => ?_⟩
  have bodies := collapse_body same assigns tight (.inr ⟨more, other, rfl, isLoose⟩) root
  rw [collapsed] at bodies
  simp only [Except.ok.injEq, Option.some.injEq, exists_eq_left', List.append_assoc,
    List.singleton_append] at bodies
  exact bodies.symm

end Definition

theorem definition?_loose (p : Progress) {symbol : String} (isLoose : Operator.loose symbol = true) :
    p.definition? symbol = none := by
  refine Option.eq_none_iff_forall_ne_some.mpr fun definition defines => ?_
  simp [Operator.loose, tier_of_definition? defines] at isLoose

theorem accepts_tail {p p' q : Progress} (same : Same p p') {symbol : String}
    (assigns : Operator.tier? symbol = some Operator.assignmentTier) (tight : Element.Tight q.elements)
    {tail : List Token} (ends : tail = [] ∨ ∃ t rest, tail = t :: rest ∧ ¬t.Binds) (sigiled : Sigiled tail)
    (ih : ∀ shorter : List Token, shorter.length < tail.length → AcceptsSpan words shorter)
    (topLevel topLevel' : Bool) (names names' : NameStack) (root : Option Expr) :
    ((collapseInPlace words topLevel' (q.over (.op symbol :: p'.elements)) tail).run names').1 = .ok root ↔
      ∃ e, Element.collapse q.elements.reverse = .ok (some e) ∧
        ((collapseOf words topLevel ((p.pushOp symbol).pushNode e .name) tail).run names).1 = .ok root := by
  obtain rfl | ⟨t, rest, rfl, loose⟩ := ends
  · simp only [collapseInPlace_nil, collapseOf_nil, run_except]
    exact collapse_body same assigns tight (.inl rfl) root
  · obtain ⟨kind, isLoose⟩ := Classical.not_imp.mp loose
    rw [Bool.not_eq_false] at isLoose
    have plain (e : Expr) : ((p.pushOp symbol).pushNode e .name).definition? t.text = none :=
      definition?_loose _ isLoose
    simp only [collapseInPlace, collapseOf, progressInPlace_operator kind, elementsOf_operator kind (plain _)]
    have further {e : Expr} (collapsed : Element.collapse q.elements.reverse = .ok (some e)) :=
      accepts_iff.mp (ih rest (Nat.lt_succ_self _) topLevel topLevel' _ _
        (sigiled.sublist (List.subset_cons_self ..)) (same_definition same assigns tight collapsed isLoose))
        names names' root
    constructor
    · intro accepted
      obtain ⟨r, after, runs, collapsed⟩ := run_bind_ok.mp accepted
      rw [run_except] at collapsed
      obtain ⟨more, grown⟩ := progressInPlace_pushes _ _ _ _ _ _ runs
      have added : r.elements =
          more ++ [.op t.text] ++ (q.elements ++ .op symbol :: p'.elements) := by
        rw [grown]
        simp [Progress.pushOp, Progress.over]
      have whole : r.finish = Progress.finish
          ⟨more ++ [.op t.text] ++ (q.elements ++ .op symbol :: p'.elements), none⟩ := by
        rw [← added]
        rfl
      rw [whole] at collapsed
      obtain ⟨e, collapsed, _⟩ :=
        (collapse_body same assigns tight (.inr ⟨more, t.text, rfl, isLoose⟩) root).mp collapsed
      exact ⟨e, collapsed, (further collapsed).mpr accepted⟩
    · rintro ⟨e, collapsed, accepted⟩
      exact (further collapsed).mp accepted

theorem accepts_body {topLevel : Bool} {body : List Token} {fault : ParseError} {names : NameStack}
    {e : Expr} :
    ((do
      match ← collapseInPlace words topLevel .start body with
      | some e => return e
      | none => throw fault : Reading Expr).run names).1 = .ok e ↔
    ∃ q after, (progressInPlace words topLevel .start body).run names = (.ok q, after) ∧
      Element.collapse q.finish = .ok (some e) := by
  rw [collapseInPlace, bind_assoc, run_bind_ok]
  refine exists_congr fun q => exists_congr fun after => and_congr_right fun _ => ?_
  cases Element.collapse q.finish with
  | error => exact ⟨nofun, nofun⟩
  | ok root =>
      cases root with
      | none => exact ⟨nofun, nofun⟩
      | some root =>
          constructor
          · rintro ⟨⟩
            rfl
          · rintro ⟨⟩
            rfl

theorem accepts_definition {t : Token} {rest : List Token}
    (ih : ∀ shorter : List Token, shorter.length ≤ rest.length → AcceptsSpan words shorter)
    (kind : t.kind = .operator) (sigiled : Sigiled rest) {topLevel topLevel' : Bool} {p p' : Progress}
    (same : Same p p') {name : String} {args : List Expr}
    (defines : p.definition? t.text = some (name, args)) :
    Accepts Eq (collapseOf words topLevel p (t :: rest))
      (collapseInPlace words topLevel' p' (t :: rest)) := by
  have assigns := tier_of_definition? defines
  have sizes := length_splitBody 0 rest
  obtain ⟨withinBody, withinTail⟩ := splitBody_subset 0 rest
  have shorter : (splitBody 0 rest).1.length < rest.length + 1 := by omega
  have body : Accepts Eq (readMacroBody (reader words (rest.length + 1)) name args t.text _ shorter) _ :=
    accepts_readMacroBody (ih _ (Nat.le_of_lt_succ shorter) false topLevel' .start .start
      (sigiled.sublist withinBody) (.refl _)) name args t.text
  have ahead : collapseOf words topLevel p (t :: rest) = (do
      let e ← readMacroBody (reader words (rest.length + 1)) name args t.text _ shorter
      collapseOf words topLevel ((p.pushOp t.text).pushNode e .name) (splitBody 0 rest).2) := by
    rw [collapseOf, elementsOf_cons, readToken_operator kind, readOperator]
    simp only [defines, bind_assoc, pure_bind]
    rfl
  have split := progressInPlace_split words topLevel' (p := .start) Element.without_nil
    (.op t.text :: p'.elements) ⟨rfl, sigiled⟩
  have inPlace : collapseInPlace words topLevel' p' (t :: rest) = (do
      let q ← progressInPlace words topLevel' .start (splitBody 0 rest).1
      collapseInPlace words topLevel' (q.over (.op t.text :: p'.elements)) (splitBody 0 rest).2) := by
    rw [collapseInPlace, progressInPlace_operator kind]
    exact (congrArg (· >>= _) split.1).trans (bind_assoc ..)
  have further {q : Progress} (tight : Element.Tight q.elements) :=
    accepts_tail same assigns tight (splitBody_ends rfl) (sigiled.sublist withinTail)
      (fun line less => ih line (by omega)) topLevel topLevel'
  refine accepts_iff.mpr fun names names' root => ?_
  rw [ahead, inPlace, run_bind_ok, run_bind_ok]
  constructor
  · rintro ⟨e, after, runs, accepted⟩
    obtain ⟨q, after', runs', collapsed⟩ :=
      accepts_body.mp ((accepts_iff.mp body names names' e).mp (congrArg Prod.fst runs))
    have tight := split.2 names' q after' runs'
    rw [finish_tight tight] at collapsed
    exact ⟨q, after', runs', (further tight after after' root).mpr ⟨e, collapsed, accepted⟩⟩
  · rintro ⟨q, after', runs', accepted⟩
    have tight := split.2 names' q after' runs'
    obtain ⟨e, collapsed, accepted⟩ := (further tight _ after' root).mp accepted
    rw [← finish_tight tight] at collapsed
    have runs := (accepts_iff.mp body names names' e).mpr (accepts_body.mpr ⟨q, after', runs', collapsed⟩)
    exact ⟨e, _, Prod.ext runs rfl, accepted⟩

theorem accepts_span (span : List Token) : AcceptsSpan words span := by
  induction size : span.length using Nat.strongRecOn generalizing span with
  | ind size ih =>
      subst size
      intro topLevel topLevel' p p' sigiled same
      cases span with
      | nil =>
          refine accepts_iff.mpr fun names names' root => ?_
          rw [collapseOf_nil, collapseInPlace_nil, run_except, run_except]
          exact same.collapse [] root
      | cons t rest =>
          have shorter (span : List Token) (le : span.length ≤ rest.length) : AcceptsSpan words span :=
            ih _ (Nat.lt_succ_of_le le) span rfl
          have others : Sigiled rest := sigiled.sublist (List.subset_cons_self ..)
          by_cases kind : t.kind = .operator
          · cases defines : p.definition? t.text with
            | some definition =>
                exact accepts_definition shorter kind others same defines
            | none =>
                rw [collapseOf, collapseInPlace, elementsOf_operator kind defines,
                  progressInPlace_operator kind]
                exact shorter rest (Nat.le_refl _) _ _ _ _ others (same.push _ none)
          · rw [collapseOf, collapseInPlace, elementsOf_cons, progressInPlace_cons, bind_assoc, bind_assoc,
              readTokenInPlace, if_neg kind]
            refine Accepts.bind (Lockstep.readToken (C := inPlaceLockstep) ?_ trivial same _ _ kind
              (fun _ => ⟨rfl, rfl⟩) (fun named _ _ _ => sigiled.classify named) ⟨rfl, sigiled⟩
              fun _ => ⟨rfl, others⟩) ?_
            · rintro topLevel topLevel' span _ h h' - ⟨rfl, sigiled⟩
              have accepts := shorter span (Nat.le_of_lt_succ h) topLevel topLevel' .start .start sigiled
              exact (accepts (.refl _)).roots
            · rintro ⟨p, after⟩ ⟨p', after'⟩ ⟨same, left, sigiled⟩
              obtain rfl : after = after' := Subtype.ext left
              exact shorter after.val after.property _ _ _ _ sigiled same

end Accepting

/-- Reading the bodies of definitions ahead changes nothing. A span in which every name has a sigil is
accepted if and only if it is with all tokens left in place, and it comes to the same expression. -/
theorem definitions_in_place (words : Vocabulary) (topLevel : Bool) {span : List Token}
    (sigiled : Sigiled span) (names : NameStack) (root : Option Expr) :
    ((expressionOf words topLevel span).run names).1 = .ok root ↔
      ((expressionInPlace words topLevel span).run names).1 = .ok root :=
  accepts_iff.mp (accepts_span span topLevel topLevel .start .start sigiled (.refl _)) names names root

/-- The second definition in `@f = @g += $x ; @f` is the body of the first one, which ends there. -/
theorem definitions_in_place_chained :
    let words : Vocabulary := ⟨fun _ => false, fun _ => false⟩
    let span : List Token := [⟨.name, "@f"⟩, ⟨.operator, "="⟩, ⟨.name, "@g"⟩, ⟨.operator, "+="⟩,
      ⟨.name, "$x"⟩, ⟨.operator, ";"⟩, ⟨.name, "@f"⟩]
    let added : Expr := .binary (.value .add) (.macroRef "g" [] true) (.globalVar "x")
    let root : Expr := .binary .sequence (.assign (.macroRef "f" [] true)
      (.assign (.macroRef "g" [] true) added)) (.macroRef "f" [] true)
    Sigiled span ∧ ((expressionInPlace words true span).run .empty).1 = .ok (some root) ∧
      ((expressionOf words true span).run .empty).1 = .ok (some root) := by
  intro words span added root
  have sigiled : Sigiled span := by
    unfold Sigiled
    decide +kernel
  have inPlace : ((expressionInPlace words true span).run .empty).1 = .ok (some root) := by rfl
  exact ⟨sigiled, inPlace, (definitions_in_place words true sigiled .empty (some root)).mpr inPlace⟩

end Expr

end Calculator
