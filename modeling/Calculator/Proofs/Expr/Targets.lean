import Calculator.Proofs.Expr.Context
import Calculator.Proofs.Expr.Steps
import Calculator.Proofs.Names.Tokens
import Calculator.Proofs.Token.Depth

/-! The targets of assignments. The search ahead of a name for an assignment, which takes place before
there is an expression, finds one if the name becomes part of what is assigned to. -/

namespace Calculator

namespace Token

open Name Operator

theorem assignmentAhead_operator {t : Token} (kind : t.kind = .operator) (line : List Token) :
    assignmentAhead 0 (t :: line) =
      if decides t.text then decide (tier? t.text = some assignmentTier) else assignmentAhead 0 line := by
  cases found : tier? t.text with
  | none => simp [assignmentAhead, kind, decides, found]
  | some tier =>
      simp only [assignmentAhead, kind, decides, found, ne_eq, not_true_eq_false, if_false, Option.any_some,
        decide_eq_true_eq, Option.some.injEq]
      by_cases same : tier = assignmentTier
      · simp [same]
      · have high : assignmentTier ≤ tier ↔ assignmentTier < tier := by omega
        simp [same, high]

theorem Grouped.assignmentAhead {chunk : List Token} (grouped : Grouped chunk) (line : List Token) :
    Name.assignmentAhead 0 (chunk ++ line) = Name.assignmentAhead 0 line := by
  cases grouped with
  | none => rfl
  | group opens closes inner =>
      rw [List.cons_append, List.append_assoc, assignmentAhead_opening opens,
        assignmentAhead_balanced inner (by decide), List.singleton_append, assignmentAhead_closing closes]
      rfl

theorem Grouped.depth {line : List Token} (grouped : Grouped line) : Token.depth line = 0 := by
  cases grouped with
  | none => rfl
  | group opens closes inner =>
      have balanced : Balanced (fun _ => True) _ := .group opens closes inner .nil
      exact balanced.depth

theorem Grouped.skips {chunk after front rest : List Token} {t : Token} (grouped : Grouped chunk)
    (flat : t.Flat) (split : chunk ++ after = front ++ t :: rest) (outside : Token.depth front = 0) :
    ∃ more, front = chunk ++ more ∧ after = more ++ t :: rest := by
  obtain behind | ⟨more, within, ends⟩ := List.append_eq_append_iff.mp split
  · exact behind
  cases more with
  | nil => exact ⟨[], by simpa using within.symm, ends.symm⟩
  | cons t' more =>
      obtain ⟨rfl, _⟩ := List.cons.inj ends
      exfalso
      cases grouped with
      | none => simp at within
      | @group opening close inside opens closes inner =>
          cases front with
          | nil =>
              obtain ⟨rfl, _⟩ := List.cons.inj within
              exact absurd opens flat.1
          | cons first front =>
              obtain ⟨rfl, body⟩ := List.cons.inj within
              rw [depth_cons, turn_opening opens] at outside
              rcases List.eq_nil_or_concat more with rfl | ⟨others, last, rfl⟩
              · obtain ⟨_, same⟩ := List.append_inj' body rfl
                obtain rfl := List.singleton_inj.mp same
                exact absurd closes flat.2
              · have body : inside ++ [close] = (front ++ t :: others) ++ [last] := by simpa using body
                obtain ⟨split, _⟩ := List.append_inj' body rfl
                have before := inner.depth_prefix split
                omega

end Token

namespace Expr

open Token Element

abbrev Light : List Element → Prop := Without Operator.decides

theorem assignsAhead_light {elements : List Element} (light : Light elements) (later : List Element) :
    Operator.assignsAhead (operators (elements ++ later)) = Operator.assignsAhead (operators later) := by
  have none : (operators elements).find? Operator.decides = none := by
    refine List.find?_eq_none.mpr fun symbol mem => ?_
    simp [light symbol (mem_operators.mp mem)]
  rw [operators_append, Operator.assignsAhead_append, none]
  rfl

theorem pushProduct_light (p : Progress) :
    ∃ product, p.pushProduct.elements.reverse = p.elements.reverse ++ product ∧ Light product := by
  unfold Progress.pushProduct
  split
  · exact ⟨[.op Operator.coefficient], List.reverse_cons, without_op Operator.decides_coefficient⟩
  · exact ⟨[], (List.append_nil _).symm, without_nil⟩

section Taken

variable {words : Vocabulary} {topLevel : Bool} {known : NameStack} {p p' : Progress} {t : Token}
  {rest after : List Token}

theorem Taken.ahead (taken : Taken words topLevel known p t rest p' after) :
    ∃ pushed, p'.elements.reverse = p.elements.reverse ++ pushed ∧
      (Light pushed ∧ Name.assignmentAhead 0 (t :: rest) = Name.assignmentAhead 0 after ∨
        t.kind = .operator ∧ ∃ light, pushed = .op t.text :: light ∧ Light light ∧
          (Operator.decides t.text = false → after = rest)) := by
  obtain ⟨product, grown, light⟩ := pushProduct_light p
  have pushed (e : Element) :
      (e :: p.pushProduct.elements).reverse = p.elements.reverse ++ (product ++ [e]) := by
    rw [List.reverse_cons, grown, List.append_assoc]
  cases taken with
  | literal literal e =>
      have other : t.kind ≠ .operator := fun kind => by
        rw [literal?_eq_none t (.inl kind)] at literal
        cases literal
      exact ⟨[.node e], List.reverse_cons, .inl ⟨without_node e,
        assignmentAhead_flat (flat_of_literal? literal) (.inr other) _⟩⟩
  | operator kind =>
      exact ⟨[.op t.text], List.reverse_cons, .inr ⟨kind, [], rfl, without_nil, fun _ => rfl⟩⟩
  | definition kind defines body =>
      have assigns := tier_of_definition? defines
      refine ⟨[.op t.text, .node body], by simp [Progress.pushNode, Progress.pushOp],
        .inr ⟨kind, [.node body], rfl, without_node body, fun light => ?_⟩⟩
      simp [Operator.decides, assigns] at light
  | @sign kind _ symbol isSign =>
      have notDeciding : Operator.decides symbol = false := by
        rcases isSign with rfl | rfl <;> decide +kernel
      exact ⟨product ++ [Element.op symbol], pushed _, .inl ⟨light.append (without_op notDeciding),
        assignmentAhead_flat (flat_of_name kind) (.inr (by simp [kind])) _⟩⟩
  | named kind e last split grouped =>
      refine ⟨product ++ [Element.node e], pushed _, .inl ⟨light.append (without_node e), ?_⟩⟩
      rw [assignmentAhead_flat (flat_of_name kind) (.inr (by simp [kind])), split, grouped.assignmentAhead]
  | group e split grouped =>
      refine ⟨product ++ [Element.node e], pushed _, .inl ⟨light.append (without_node e), ?_⟩⟩
      rw [split, ← List.cons_append, grouped.assignmentAhead]

theorem Taken.chunk (taken : Taken words topLevel known p t rest p' after) :
    ∃ chunk, t :: rest = chunk ++ after ∧ (after ≠ [] → depth chunk = 0) := by
  have single (flat : t.Flat) : depth [t] = 0 := (depth_singleton t).trans (turn_flat flat)
  cases taken with
  | literal literal => exact ⟨[t], rfl, fun _ => single (flat_of_literal? literal)⟩
  | operator kind => exact ⟨[t], rfl, fun _ => single (flat_of_operator kind)⟩
  | definition kind =>
      refine ⟨t :: (splitBody 0 rest).1, by rw [List.cons_append, splitBody_append], fun some => ?_⟩
      have ends : 0 + depth (splitBody 0 rest).1 = 0 := depth_splitBody rfl some
      rw [depth_cons, turn_flat (flat_of_operator kind)]
      omega
  | sign kind => exact ⟨[t], rfl, fun _ => single (flat_of_name kind)⟩
  | @named kind _ _ front _ split grouped =>
      refine ⟨t :: front, by rw [split, List.cons_append], fun _ => ?_⟩
      rw [depth_cons, turn_flat (flat_of_name kind), grouped.depth]
      rfl
  | @group _ front _ split grouped =>
      exact ⟨t :: front, by rw [split, List.cons_append], fun _ => grouped.depth⟩

theorem Taken.skips {front : List Token} {name : Token} (named : name.kind = .name)
    (taken : Taken words topLevel known p t (front ++ name :: rest) p' after)
    (outside : depth (t :: front) = 0) :
    (∃ more, after = more ++ name :: rest ∧ depth more = 0) ∨
      t.kind = .operator ∧ (p.definition? t.text).isSome = true ∧
        front.length < (splitBody 0 (front ++ name :: rest)).1.length := by
  rw [depth_cons] at outside
  have flat (isFlat : t.Flat) : depth front = 0 := by rwa [turn_flat isFlat, Int.zero_add] at outside
  generalize whole : front ++ name :: rest = line at taken
  cases taken with
  | literal literal => exact .inl ⟨front, whole.symm, flat (flat_of_literal? literal)⟩
  | operator kind => exact .inl ⟨front, whole.symm, flat (flat_of_operator kind)⟩
  | sign kind => exact .inl ⟨front, whole.symm, flat (flat_of_name kind)⟩
  | definition kind defines =>
      subst whole
      have parts := splitBody_append 0 (front ++ name :: rest)
      generalize split : splitBody 0 (front ++ name :: rest) = body at parts ⊢
      obtain ⟨body, tail⟩ := body
      dsimp only at parts ⊢
      obtain ⟨more, rfl, ends⟩ | ⟨more, rfl, ends⟩ := List.append_eq_append_iff.mp parts
      · refine .inl ⟨more, ends, ?_⟩
        have none := depth_splitBody split (by simp [ends])
        have both := flat (flat_of_operator kind)
        rw [depth_append] at both
        omega
      · cases more with
        | nil => exact .inl ⟨[], ends.symm, rfl⟩
        | cons _ more => exact .inr ⟨kind, by simp [defines], by simp⟩
  | named kind e last split grouped =>
      obtain ⟨more, rfl, ends⟩ := grouped.skips (flat_of_name named) (split.symm.trans whole.symm)
        (flat (flat_of_name kind))
      have both := flat (flat_of_name kind)
      rw [depth_append, grouped.depth, Int.zero_add] at both
      exact .inl ⟨more, ends, both⟩
  | group e split grouped =>
      rw [← depth_cons] at outside
      have lines := congrArg (t :: ·) (split.symm.trans whole.symm)
      obtain ⟨more, same, ends⟩ := grouped.skips (flat_of_name named) lines outside
      rw [same, depth_append, grouped.depth, Int.zero_add] at outside
      exact .inl ⟨more, ends, outside⟩

end Taken

/-- An operator with the symbol stands outside of all brackets. -/
def HasOutside (line : List Token) (symbol : String) : Prop :=
  ∃ op, Outside line op ∧ op.kind = .operator ∧ op.text = symbol

theorem HasOutside.ne_nil {line : List Token} {symbol : String} (stands : HasOutside line symbol) :
    line ≠ [] := by
  obtain ⟨_, ⟨_, _, rfl, _⟩, _⟩ := stands
  simp

theorem HasOutside.behind {chunk line : List Token} {symbol : String} (closed : depth chunk = 0)
    (stands : HasOutside line symbol) : HasOutside (chunk ++ line) symbol := by
  obtain ⟨op, ⟨front, more, rfl, none⟩, kind, text⟩ := stands
  refine ⟨op, ⟨chunk ++ front, more, by rw [List.append_assoc], ?_⟩, kind, text⟩
  rw [depth_append, closed, none]
  rfl

/-- Reading comes to a definition, and the line begins within its body. -/
def InBody (words : Vocabulary) (topLevel : Bool) (point : Point) (line : List Token) : Prop :=
  ∃ p known op between, Comes words topLevel point ⟨p, known, op :: (between ++ line)⟩ ∧
    op.kind = .operator ∧ (p.definition? op.text).isSome = true ∧
      between.length < (splitBody 0 (between ++ line)).1.length

section Points

variable {words : Vocabulary} {topLevel : Bool} {elements : List Element}

theorem Point.Ends.reaches {point : Point} (ends : point.Ends words topLevel elements)
    {front rest : List Token} {t : Token} (named : t.kind = .name) (split : point.line = front ++ t :: rest)
    (outside : depth front = 0) :
    InBody words topLevel point (t :: rest) ∨
      ∃ p known, Comes words topLevel point ⟨p, known, t :: rest⟩ := by
  obtain ⟨p, known, line⟩ := point
  obtain rfl : line = front ++ t :: rest := split
  induction size : front.length using Nat.strongRecOn generalizing p known front with
  | ind size ih =>
      subst size
      cases front with
      | nil => exact .inr ⟨p, known, .refl⟩
      | cons first front =>
          obtain ⟨⟨p', known', after⟩, step, further⟩ := ends.step
          rcases Taken.skips named step.taken outside with ⟨more, rfl, outside⟩ | ⟨kind, defines, within⟩
          · have shorter : more.length < (first :: front).length := by
              have less := step.taken.length_le
              simp only [List.append_eq, List.length_append, List.length_cons] at less ⊢
              omega
            obtain ⟨q, names, op, between, comes, inBody⟩ | ⟨q, names, comes⟩ :=
              ih _ shorter outside p' known' further rfl
            · exact .inl ⟨q, names, op, between, .head step comes, inBody⟩
            · exact .inr ⟨q, names, .head step comes⟩
          · exact .inl ⟨p, known, first, front, .refl, kind, defines, within⟩

theorem Point.Ends.ahead {point : Point} (ends : point.Ends words topLevel elements) :
    ∃ later, (point.progress.elements.reverse ++ later = elements ∨
        point.progress.elements.reverse ++ later = elements ++ [.op ";"]) ∧
      Name.assignmentAhead 0 point.line = Operator.assignsAhead (operators later) ∧
      ∀ symbol, .op symbol ∈ later → Operator.tier? symbol = some Operator.assignmentTier →
        HasOutside point.line symbol := by
  obtain ⟨p, known, line⟩ := point
  induction size : line.length using Nat.strongRecOn generalizing p known line with
  | ind size ih =>
      subst size
      cases line with
      | nil =>
          cases ends
          refine ⟨[], ?_, rfl, nofun⟩
          rw [List.append_nil]
          exact p.finish_eq.imp Eq.symm Eq.symm
      | cons t rest =>
          obtain ⟨⟨p', known', after⟩, step, further⟩ := ends.step
          have taken := step.taken
          obtain ⟨pushed, grown, kinds⟩ := taken.ahead
          obtain ⟨chunk, whole, closed⟩ := taken.chunk
          obtain ⟨later, ends, ahead, outside⟩ :=
            ih _ (Nat.lt_succ_of_le taken.length_le) p' known' after further rfl
          have grown : p'.elements.reverse = p.elements.reverse ++ pushed := grown
          rw [grown, List.append_assoc] at ends
          have deeper (symbol : String) (stands : HasOutside after symbol) : HasOutside (t :: rest) symbol :=
            whole ▸ stands.behind (closed stands.ne_nil)
          have assigning (symbol : String) (assigns : Operator.tier? symbol = some Operator.assignmentTier) :
              Operator.decides symbol = true := by simp [Operator.decides, assigns]
          refine ⟨pushed ++ later, ends, ?_, fun symbol mem assigns => ?_⟩
          · rcases kinds with ⟨light, same⟩ | ⟨kind, light, rfl, isLight, plain⟩
            · rw [same, ahead, assignsAhead_light light]
            · change _ = Operator.assignsAhead (t.text :: operators (light ++ later))
              rw [assignmentAhead_operator kind, Operator.assignsAhead_cons, assignsAhead_light isLight]
              cases decides : Operator.decides t.text with
              | true => rfl
              | false => rw [← ahead, plain decides]
          · rcases List.mem_append.mp mem with mem | mem
            · rcases kinds with ⟨light, _⟩ | ⟨kind, light, rfl, isLight, _⟩
              · exact absurd (assigning symbol assigns) (ne_true_of_eq_false (light symbol mem))
              · rcases List.mem_cons.mp mem with same | mem
                · exact ⟨t, ⟨[], rest, rfl, rfl⟩, kind, (Element.op.inj same).symm⟩
                · exact absurd (assigning symbol assigns) (ne_true_of_eq_false (isLight symbol mem))
            · exact deeper symbol (outside symbol mem assigns)

end Points

theorem assignsAhead_sequence (symbols : List String) :
    Operator.assignsAhead (symbols ++ [";"]) = Operator.assignsAhead symbols := by
  rw [Operator.assignsAhead_append]
  split
  · rfl
  · rename_i undecided
    have nothing : symbols.find? Operator.decides = none := by simpa using undecided
    rw [Operator.assignsAhead, Operator.assignsAhead, nothing]
    decide +kernel

theorem later_of_ahead {before later elements : List Element} {e : Expr}
    (ends : before ++ [.node e] ++ later = elements ∨ before ++ [.node e] ++ later = elements ++ [.op ";"]) :
    ∃ kept, elements = before ++ .node e :: kept ∧ kept ⊆ later ∧
      Operator.assignsAhead (operators later) = Operator.assignsAhead (operators kept) := by
  rw [List.append_assoc, List.singleton_append] at ends
  rcases ends with rfl | ends
  · exact ⟨later, rfl, fun _ mem => mem, rfl⟩
  · rcases List.eq_nil_or_concat later with rfl | ⟨kept, last, rfl⟩
    · obtain ⟨_, same⟩ := List.append_inj' ends rfl
      cases same
    · have ends : (before ++ .node e :: kept) ++ [last] = elements ++ [.op ";"] := by simpa using ends
      obtain ⟨rfl, same⟩ := List.append_inj' ends rfl
      obtain rfl := List.singleton_inj.mp same
      refine ⟨kept, rfl, by simp, ?_⟩
      rw [List.concat_eq_append, operators_append]
      exact assignsAhead_sequence _

/-- What a name outside of all brackets comes to in a span, of which `given` and the span's own elements
collapse to `root`. -/
inductive Settled (words : Vocabulary) (topLevel : Bool) (names : NameStack) (given : List Element)
    (span : List Token) (root : Option Expr) (name : String) (rest : List Token) : Prop
  | inBody (within : InBody words topLevel (.start names span) (⟨.name, name⟩ :: rest))
  | sign {p : Progress} {known : NameStack} {point : Point} {symbol : String}
      (comes : Comes words topLevel (.start names span) ⟨p, known, ⟨.name, name⟩ :: rest⟩)
      (step : Step words topLevel ⟨p, known, ⟨.name, name⟩ :: rest⟩ point)
      (isSign : symbol = "$" ∨ symbol = "#") (top : point.progress.elements.head? = some (.op symbol))
  | operand {p : Progress} {known : NameStack} {point : Point} {before later : List Element} {e : Expr}
      (place : Context)
      (comes : Comes words topLevel (.start names span) ⟨p, known, ⟨.name, name⟩ :: rest⟩)
      (step : Step words topLevel ⟨p, known, ⟨.name, name⟩ :: rest⟩ point)
      (read : point.progress.elements.reverse = before ++ [.node e])
      (isLeaf : ∀ leaf ∈ leaf? (Name.classify words known topLevel name rest) (Name.bare name), e = leaf)
      (ends : (Point.start names span).Ends words topLevel (before ++ .node e :: later))
      (stands : root = some (place.fill e) ∧
        ∀ x, collapse (given ++ (before ++ .node x :: later)) = .ok (some (place.fill x)))
      (outside : ∀ symbol ∈ place.lefts, Operator.tier? symbol = some Operator.assignmentTier →
        HasOutside rest symbol)
      (target : Name.isAssignmentTarget rest = true ↔ place.InTarget)
      (isLocal : topLevel = false → Name.sigil? name = none →
        (leaf? (Name.classify words known topLevel name rest) name).isSome = true →
        (e = .localVar name ↔ place.InTarget ∨ known.has name .localVar = true))

/-- Below the top level a bare name is a local if it is assigned to or known as one. -/
theorem classify_below {name : String} (plain : Name.sigil? name = none) {words : Vocabulary}
    {known : NameStack} {rest : List Token}
    (isVariable : (leaf? (Name.classify words known false name rest) name).isSome = true) :
    leaf? (Name.classify words known false name rest) name = some (.localVar name) ↔
      Name.isAssignmentTarget rest = true ∨ known.has name .localVar = true := by
  rw [Name.classify_of_sigil?_none plain] at isVariable ⊢
  simp only [Bool.false_eq_true, if_false] at isVariable ⊢
  split_ifs at isVariable ⊢ with function isMacro isLocal
  · cases isVariable
  · cases isVariable
  · exact ⟨fun _ => by simpa using isLocal, fun _ => rfl⟩
  · refine ⟨fun same => (by cases same), fun target => absurd ?_ isLocal⟩
    simpa using target

section Settled

variable {words : Vocabulary} {topLevel : Bool} {names : NameStack} {given elements : List Element}
  {span : List Token} {root : Option Expr}

theorem settled (ends : (Point.start names span).Ends words topLevel elements)
    (collapsed : collapse (given ++ elements) = .ok root) {front rest : List Token} {name : String}
    (split : span = front ++ ⟨.name, name⟩ :: rest) (outside : depth front = 0) :
    Settled words topLevel names given span root name rest := by
  rcases ends.reaches rfl split outside with within | ⟨p, known, comes⟩
  · exact .inBody within
  · obtain ⟨⟨p', known', after⟩, step, further⟩ := (comes.ends.mp ends).step
    have taken := step.taken
    generalize same : p' = q at taken
    cases taken with
    | literal literal =>
        rw [literal?_eq_none _ (.inr (.inl rfl))] at literal
        cases literal
    | operator kind => cases kind
    | definition kind => cases kind
    | sign _ _ isSign => exact .sign comes step isSign (same ▸ rfl)
    | group _ _ grouped =>
        cases grouped with
        | group opens => cases opens
    | named kind e last parts grouped isLeaf =>
        subst same
        obtain ⟨later, whole, ahead, stands⟩ := further.ahead
        dsimp only at whole ahead stands parts
        rw [List.reverse_cons] at whole
        obtain ⟨kept, rfl, within, same⟩ := later_of_ahead whole
        rw [← List.append_assoc] at collapsed
        obtain ⟨place, isRoot, each, target, lefts⟩ := exists_place collapsed
        simp only [List.append_assoc] at each
        have isTarget : Name.isAssignmentTarget rest = true ↔ place.InTarget := by
          rw [target, ← same, ← ahead, Name.isAssignmentTarget, parts, grouped.assignmentAhead]
        refine .operand place comes step List.reverse_cons isLeaf ends ⟨isRoot, each⟩
          (fun symbol mem assigns => ?_) isTarget fun below plain isVariable => ?_
        · have mem : .op symbol ∈ kept := (lefts symbol mem).resolve_right fun coefficient => by
            subst coefficient
            exact absurd assigns (by decide +kernel)
          have outside := (stands symbol (within mem) assigns).behind grouped.depth
          rwa [← parts] at outside
        · subst below
          obtain ⟨leaf, found⟩ := Option.isSome_iff_exists.mp isVariable
          have bare := Name.bare_of_sigil?_none plain
          obtain rfl : e = leaf := isLeaf leaf (by rw [bare]; exact found)
          rw [← isTarget, ← classify_below plain isVariable, found, Option.some.injEq]

end Settled

end Expr

namespace Parsed

open Calculator.Token Calculator.Expr

/-- The search ahead of a name agrees with the expression. In every span and in every line that is read, a
name outside of all brackets and of the bodies of definitions is an operand, if it is no sign. Then an
assignment is found ahead of it if and only if it stands in the left operand of one, outside of all
brackets as well. -/
theorem assignment_targets (words : Vocabulary) :
    (∀ topLevel names span root, ((expressionOf words topLevel span).run names).1 = .ok root →
      ∀ front name rest, span = front ++ ⟨.name, name⟩ :: rest → depth front = 0 →
        Settled words topLevel names [] span root name rest) ∧
    ∀ imply line parsed, ofTokens words imply line = .ok parsed →
      ∀ front name rest, line = front ++ ⟨.name, name⟩ :: rest → depth front = 0 →
        Settled words true .empty (if parsed.implied then [.node (.globalVar answer)] else []) line
          parsed.root name rest := by
  constructor
  · intro topLevel names span root accepted front name rest split outside
    obtain ⟨elements, _, ends, collapsed⟩ := Reading.run_bind_ok.mp accepted
    rw [Reading.run_except] at collapsed
    have whole : Element.collapse ([] ++ elements) = .ok root := collapsed
    exact settled (congrArg Prod.fst ends) whole split outside
  · intro imply line parsed accepted front name rest split outside
    obtain ⟨elements, ends, stands⟩ := ofTokens_ok.mp accepted
    refine settled ends ?_ split outside
    unfold ofElements at stands
    cases collapsed : Element.collapse
        (if imply && continues elements then .node (.globalVar answer) :: elements else elements) with
    | error fault =>
        rw [collapsed] at stands
        cases stands
    | ok root =>
        rw [collapsed] at stands
        cases stands
        rw [← collapsed]
        dsimp only
        split <;> rfl

/-- In `x; y = $z` below the top level only `y` is assigned to, and in `** x = y` the left operand is more
than `x`. -/
theorem assignment_targets_found :
    let words : Vocabulary := ⟨fun _ => false, fun _ => false⟩
    let span : List Token := [⟨.name, "x"⟩, ⟨.operator, ";"⟩, ⟨.name, "y"⟩, ⟨.operator, "="⟩, ⟨.name, "$z"⟩]
    let root : Expr := .binary .sequence (.globalVar "x") (.assign (.localVar "y") (.globalVar "z"))
    let line : List Token := [⟨.operator, "**"⟩, ⟨.name, "x"⟩, ⟨.operator, "="⟩, ⟨.name, "y"⟩]
    let power : Expr := .binary (.value .power) (.globalVar answer) (.globalVar "x")
    let parsed : Parsed := ⟨some (.assign power (.globalVar "y")), true⟩
    ((expressionOf words false span).run .empty).1 = .ok (some root) ∧
      Settled words false .empty [] span (some root) "y" (span.drop 3) ∧
      ofTokens words true line = .ok parsed ∧
      Settled words true .empty [.node (.globalVar answer)] line parsed.root "x" (line.drop 2) := by
  intro words span root line power parsed
  have accepted : ((expressionOf words false span).run .empty).1 = .ok (some root) := by rfl
  have read : ofTokens words true line = .ok parsed := by rfl
  have spans := (assignment_targets words).1 false .empty span _ accepted
  have lines := (assignment_targets words).2 true line parsed read
  exact ⟨accepted, spans (span.take 2) "y" _ rfl rfl, read, lines (line.take 1) "x" _ rfl rfl⟩

end Parsed

end Calculator
