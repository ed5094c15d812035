import Calculator.Name
import Calculator.Token.Brackets

/-! Lists of tokens in which every bracket is closed, and how they are split. -/

namespace Calculator

namespace Token

def Flat (t : Token) : Prop := t.kind ≠ .openParen ∧ t.kind ≠ .closeParen

theorem flat_of_operator {t : Token} (kind : t.kind = .operator) : t.Flat :=
  ⟨by simp [kind], by simp [kind]⟩

theorem flat_of_name {t : Token} (kind : t.kind = .name) : t.Flat := ⟨by simp [kind], by simp [kind]⟩

theorem flat_of_comma {t : Token} (kind : t.kind = .comma) : t.Flat := ⟨by simp [kind], by simp [kind]⟩

/-- Every bracket is closed, and the tokens outside of brackets have a property. -/
inductive Balanced : (Token → Prop) → List Token → Prop
  | nil {outside : Token → Prop} : Balanced outside []
  | cons {outside : Token → Prop} {t : Token} {line : List Token} (flat : t.Flat) (here : outside t)
      (rest : Balanced outside line) : Balanced outside (t :: line)
  | group {outside : Token → Prop} {opening close : Token} {inside after : List Token}
      (opens : opening.kind = .openParen) (closes : close.kind = .closeParen)
      (inner : Balanced (fun _ => True) inside) (rest : Balanced outside after) :
      Balanced outside (opening :: (inside ++ close :: after))

namespace Balanced

variable {outside weaker : Token → Prop} {line more : List Token}

theorem mono (balanced : Balanced outside line) (implies : ∀ t, outside t → weaker t) :
    Balanced weaker line := by
  induction balanced with
  | nil => exact .nil
  | cons flat here _ ih => exact .cons flat (implies _ here) (ih implies)
  | group opens closes inner _ _ ih => exact .group opens closes inner (ih implies)

theorem append (first : Balanced outside line) (second : Balanced outside more) :
    Balanced outside (line ++ more) := by
  induction first with
  | nil => exact second
  | cons flat here _ ih => exact .cons flat here (ih second)
  | group opens closes inner _ _ ih =>
      rw [List.cons_append, List.append_assoc, List.cons_append]
      exact .group opens closes inner (ih second)

end Balanced

def inBrackets (line : List Token) : List Token := openRound :: (line ++ [closeRound])

theorem Balanced.inBrackets {line : List Token} {inside outside : Token → Prop}
    (balanced : Balanced inside line) : Balanced outside (inBrackets line) :=
  .group rfl rfl (balanced.mono fun _ _ => trivial) .nil

/-- A line goes on with the inside of a group, its closing bracket and further tokens. -/
inductive Closes : Nat → List Token → List Token → Token → List Token → Prop
  | here {t : Token} (kind : t.kind = .closeParen) (line : List Token) : Closes 0 (t :: line) [] t line
  | flat {t close : Token} {depth : Nat} {line inside after : List Token} (isFlat : t.Flat)
      (rest : Closes depth line inside close after) : Closes depth (t :: line) (t :: inside) close after
  | opening {t close : Token} {depth : Nat} {line inside after : List Token}
      (kind : t.kind = .openParen) (rest : Closes (depth + 1) line inside close after) :
      Closes depth (t :: line) (t :: inside) close after
  | closing {t close : Token} {depth : Nat} {line inside after : List Token}
      (kind : t.kind = .closeParen) (rest : Closes depth line inside close after) :
      Closes (depth + 1) (t :: line) (t :: inside) close after

namespace Closes

variable {close : Token} {depth : Nat} {line inside after : List Token}

theorem of_closeGroup? {g : Group line} (found : closeGroup? depth line = some g) :
    Closes depth line g.inside g.close g.after := by
  fun_induction closeGroup? depth line with
  | case1 depth => cases found
  | case2 t rest kind =>
      cases found
      exact .here kind rest
  | case3 t rest depth kind ih =>
      obtain ⟨inner, closed, rfl⟩ := Option.map_eq_some_iff.mp found
      exact .closing kind (ih closed)
  | case4 t rest depth kind ih =>
      obtain ⟨inner, closed, rfl⟩ := Option.map_eq_some_iff.mp found
      exact .opening kind (ih closed)
  | case5 t rest depth notEnd notClose notOpen ih =>
      obtain ⟨inner, closed, rfl⟩ := Option.map_eq_some_iff.mp found
      have notClosing : t.kind ≠ .closeParen := fun kind => by
        cases depth with
        | zero => exact notEnd kind rfl
        | succ depth => exact notClose depth kind rfl
      exact .flat ⟨notOpen, notClosing⟩ (ih closed)

theorem closeGroup? (closes : Closes depth line inside close after) :
    ∃ g, Token.closeGroup? depth line = some g ∧ g.inside = inside ∧ g.close = close ∧
      g.after = after := by
  induction closes with
  | @here t kind line => exact ⟨⟨[], t, line, by simp⟩, by simp [Token.closeGroup?, kind], rfl, rfl, rfl⟩
  | @flat t _ depth _ _ _ isFlat _ ih =>
      obtain ⟨g, found, rfl, rfl, rfl⟩ := ih
      refine ⟨g.cons t, ?_, rfl, rfl, rfl⟩
      unfold Token.closeGroup?
      split
      · exact absurd ‹_› isFlat.2
      · exact absurd ‹_› isFlat.2
      · exact absurd ‹_› isFlat.1
      · rw [found]
        rfl
  | @opening t _ _ _ _ _ kind _ ih =>
      obtain ⟨g, found, rfl, rfl, rfl⟩ := ih
      exact ⟨g.cons t, by simp [Token.closeGroup?, kind, found], rfl, rfl, rfl⟩
  | @closing t _ _ _ _ _ kind _ ih =>
      obtain ⟨g, found, rfl, rfl, rfl⟩ := ih
      exact ⟨g.cons t, by simp [Token.closeGroup?, kind, found], rfl, rfl, rfl⟩

theorem balanced {outside : Token → Prop} {front : List Token} (balanced : Balanced outside front)
    (closes : Closes depth line inside close after) :
    Closes depth (front ++ line) (front ++ inside) close after := by
  induction balanced generalizing depth line inside with
  | nil => exact closes
  | cons isFlat _ _ ih => exact .flat isFlat (ih closes)
  | group opens ends _ _ inner ih =>
      simp only [List.cons_append, List.append_assoc]
      exact .opening opens (inner (.closing ends (ih closes)))

theorem of_balanced {outside : Token → Prop} {front : List Token} (balanced : Balanced outside front)
    (closes : Closes depth (front ++ line) inside close after) :
    ∃ more, inside = front ++ more ∧ Closes depth line more close after := by
  induction balanced generalizing depth line inside with
  | nil => exact ⟨inside, rfl, closes⟩
  | cons isFlat _ _ ih =>
      cases closes with
      | here kind => exact absurd kind isFlat.2
      | opening kind => exact absurd kind isFlat.1
      | closing kind => exact absurd kind isFlat.2
      | flat _ rest =>
          obtain ⟨more, rfl, closes⟩ := ih rest
          exact ⟨more, rfl, closes⟩
  | group opens ends _ _ inner ih =>
      simp only [List.cons_append, List.append_assoc] at closes
      cases closes with
      | here kind => exact nomatch opens.symm.trans kind
      | flat isFlat => exact absurd opens isFlat.1
      | closing kind => exact nomatch opens.symm.trans kind
      | opening _ rest =>
          obtain ⟨more, rfl, closes⟩ := inner rest
          cases closes with
          | flat isFlat => exact absurd ends isFlat.2
          | opening kind => exact nomatch ends.symm.trans kind
          | closing _ rest =>
              obtain ⟨more, rfl, closes⟩ := ih rest
              exact ⟨more, by simp, closes⟩

theorem unique {inside' after' : List Token} {close' : Token}
    (closes : Closes depth line inside close after) (other : Closes depth line inside' close' after') :
    inside = inside' ∧ close = close' ∧ after = after' := by
  obtain ⟨g, found, rfl, rfl, rfl⟩ := closes.closeGroup?
  obtain ⟨g', found', rfl, rfl, rfl⟩ := other.closeGroup?
  obtain rfl := Option.some.inj (found.symm.trans found')
  exact ⟨rfl, rfl, rfl⟩

theorem eq_append (closes : Closes depth line inside close after) : line = inside ++ close :: after := by
  induction closes with
  | here kind line => rfl
  | flat _ _ ih => rw [ih, List.cons_append]
  | opening _ _ ih => rw [ih, List.cons_append]
  | closing _ _ ih => rw [ih, List.cons_append]

theorem append (closes : Closes depth line inside close after) (more : List Token) :
    Closes depth (line ++ more) inside close (after ++ more) := by
  induction closes with
  | here kind line => exact .here kind (line ++ more)
  | flat isFlat _ ih => exact .flat isFlat ih
  | opening kind _ ih => exact .opening kind ih
  | closing kind _ ih => exact .closing kind ih

end Closes

/-- Every bracket is closed, and so many more brackets close. -/
inductive Surplus : Nat → List Token → Prop
  | none {line : List Token} (balanced : Balanced (fun _ => True) line) : Surplus 0 line
  | more {depth : Nat} {line rest : List Token} {close : Token} (balanced : Balanced (fun _ => True) line)
      (closes : close.kind = .closeParen) (surplus : Surplus depth rest) :
      Surplus (depth + 1) (line ++ close :: rest)

theorem Surplus.append {depth : Nat} {front line : List Token} (balanced : Balanced (fun _ => True) front)
    (surplus : Surplus depth line) : Surplus depth (front ++ line) := by
  cases surplus with
  | none rest => exact .none (balanced.append rest)
  | more rest closes surplus =>
      rw [← List.append_assoc]
      exact .more (balanced.append rest) closes surplus

theorem Closes.surplus {depth : Nat} {line inside after : List Token} {close : Token}
    (closes : Closes depth line inside close after) : Surplus depth inside := by
  induction closes with
  | here kind line => exact .none .nil
  | flat isFlat _ ih => exact ih.append (.cons isFlat trivial .nil)
  | opening kind _ ih =>
      cases ih with
      | more balanced closes surplus =>
          have group : Balanced (fun _ => True) _ := .group kind closes balanced .nil
          simpa using surplus.append group
  | closing kind _ ih => exact .more .nil kind ih

theorem Closes.balanced_inside {line inside after : List Token} {close : Token}
    (closes : Closes 0 line inside close after) : Balanced (fun _ => True) inside := by
  cases closes.surplus with
  | none balanced => exact balanced

theorem inBrackets_append (inside rest : List Token) :
    inBrackets inside ++ rest = openRound :: (inside ++ closeRound :: rest) := by
  simp [inBrackets]

theorem Balanced.closes {outside : Token → Prop} {inside : List Token} {close : Token}
    (balanced : Balanced outside inside) (kind : close.kind = .closeParen) (rest : List Token) :
    Closes 0 (inside ++ close :: rest) inside close rest := by
  have closes := Closes.balanced balanced (.here kind rest)
  rwa [List.append_nil] at closes

theorem closes_inBrackets {outside : Token → Prop} {inside : List Token}
    (balanced : Balanced outside inside) (rest : List Token) :
    Closes 0 (inside ++ closeRound :: rest) inside closeRound rest := balanced.closes rfl rest

theorem Closes.getLast? {depth : Nat} {line inside : List Token} {close : Token}
    (closes : Closes depth line inside close []) :
    line.getLast? = some close ∧ close.kind = .closeParen := by
  generalize ended : ([] : List Token) = after at closes
  induction closes with
  | here kind line =>
      subst ended
      exact ⟨rfl, kind⟩
  | flat _ _ ih =>
      obtain ⟨last, kind⟩ := ih ended
      exact ⟨by rw [List.getLast?_cons, last]; rfl, kind⟩
  | opening _ _ ih =>
      obtain ⟨last, kind⟩ := ih ended
      exact ⟨by rw [List.getLast?_cons, last]; rfl, kind⟩
  | closing _ _ ih =>
      obtain ⟨last, kind⟩ := ih ended
      exact ⟨by rw [List.getLast?_cons, last]; rfl, kind⟩

theorem group_mismatched {opening close : Token} {line inside after : List Token}
    (closes : Closes 0 line inside close after)
    (different : closingFor opening.bracket ≠ close.bracket) :
    group opening line = .error (.mismatchedBracket opening.bracket close.bracket) := by
  obtain ⟨g, found, rfl, rfl, rfl⟩ := closes.closeGroup?
  rw [group, found]
  exact if_neg different

theorem group_eq {opening close : Token} {line inside after : List Token}
    (closes : Closes 0 line inside close after)
    (matching : closingFor opening.bracket = close.bracket) :
    ∃ g, group opening line = .ok g ∧ g.inside = inside ∧ g.close = close ∧ g.after = after := by
  obtain ⟨g, found, rfl, rfl, rfl⟩ := closes.closeGroup?
  exact ⟨g, by rw [group, found]; exact if_pos matching, rfl, rfl, rfl⟩

theorem closes_of_group {opening : Token} {line : List Token} {g : Group line}
    (grouped : group opening line = .ok g) : Closes 0 line g.inside g.close g.after := by
  unfold group at grouped
  split at grouped
  · cases grouped
  · rename_i found
    split at grouped
    · cases grouped
      exact Closes.of_closeGroup? found
    · cases grouped

theorem group_append {opening : Token} {line : List Token} {g : Group line}
    (grouped : group opening line = .ok g) : line = g.inside ++ g.close :: g.after :=
  (closes_of_group grouped).eq_append

structure GroupsAlike (line span : List Token → List Token → Prop) {l l' : List Token} (g : Group l)
    (g' : Group l') : Prop where
  inside : span g.inside g'.inside
  close : g.close = g'.close
  after : line g.after g'.after

theorem consFirst_all {t : Token} {spans : List (List Token)} {P : Token → Prop} (here : P t)
    (others : ∀ span ∈ spans, ∀ u ∈ span, P u) : ∀ span ∈ consFirst t spans, ∀ u ∈ span, P u := by
  cases spans with
  | nil => simpa [consFirst] using here
  | cons first rest => simpa [consFirst, here] using others

theorem splitCommas_all {P : Token → Prop} {depth : Nat} {line : List Token} (all : ∀ t ∈ line, P t) :
    ∀ span ∈ splitCommas depth line, ∀ t ∈ span, P t := by
  fun_induction splitCommas depth line with
  | case1 => simp
  | case2 depth t rest _ _ ih =>
      obtain ⟨here, others⟩ := List.forall_mem_cons.mp all
      exact consFirst_all here (ih others)
  | case3 => simp
  | case4 t rest _ _ _ _ ih =>
      obtain ⟨_, others⟩ := List.forall_mem_cons.mp all
      exact List.forall_mem_cons.mpr ⟨List.forall_mem_nil _, ih others⟩
  | case5 depth t rest _ ih =>
      obtain ⟨here, others⟩ := List.forall_mem_cons.mp all
      exact consFirst_all here (ih others)
  | case6 depth t rest _ ih =>
      obtain ⟨here, others⟩ := List.forall_mem_cons.mp all
      exact consFirst_all here (ih others)
  | case7 depth t rest _ _ _ ih =>
      obtain ⟨here, others⟩ := List.forall_mem_cons.mp all
      exact consFirst_all here (ih others)

theorem parameters_all {P : Token → Prop} {line : List Token} (all : ∀ t ∈ line, P t) :
    ∀ span ∈ parameters line, ∀ t ∈ span, P t := by
  cases line with
  | nil => exact List.forall_mem_nil _
  | cons t rest => exact splitCommas_all all

def commaToken : Token := ⟨.comma, ","⟩

def commaSeparated : List (List Token) → List Token
  | [] => []
  | [span] => span
  | span :: spans => span ++ commaToken :: commaSeparated spans

theorem Balanced.commaSeparated {outside : Token → Prop} {spans : List (List Token)}
    (balanced : ∀ span ∈ spans, Balanced outside span) :
    Balanced (fun _ => True) (commaSeparated spans) := by
  induction spans with
  | nil => exact .nil
  | cons span spans ih =>
      obtain ⟨first, others⟩ := List.forall_mem_cons.mp balanced
      have inside : Balanced (fun _ => True) span := first.mono fun _ _ => trivial
      cases spans with
      | nil => exact inside
      | cons next spans => exact inside.append (.cons ⟨nofun, nofun⟩ trivial (ih others))

def NoComma (t : Token) : Prop := t.kind ≠ .comma

theorem splitCommas_opening {t : Token} (kind : t.kind = .openParen) (depth : Nat) (line : List Token) :
    splitCommas depth (t :: line) = consFirst t (splitCommas (depth + 1) line) := by
  simp only [splitCommas, kind]

theorem splitCommas_closing {t : Token} (kind : t.kind = .closeParen) (depth : Nat)
    (line : List Token) :
    splitCommas depth (t :: line) = consFirst t (splitCommas (depth - 1) line) := by
  simp only [splitCommas, kind]

theorem splitCommas_flat {t : Token} {depth : Nat} (flat : t.Flat) (noComma : depth ≠ 0 ∨ t.NoComma)
    (line : List Token) : splitCommas depth (t :: line) = consFirst t (splitCommas depth line) := by
  rw [splitCommas]
  split
  · rename_i comma
    exact if_pos (noComma.resolve_right fun other => other comma)
  · exact absurd ‹_› flat.1
  · exact absurd ‹_› flat.2
  · rfl

theorem splitCommas_balanced {outside : Token → Prop} {line : List Token} {depth : Nat}
    (balanced : Balanced outside line) (noComma : depth ≠ 0 ∨ ∀ t, outside t → t.NoComma)
    (more : List Token) :
    splitCommas depth (line ++ more) = line.foldr consFirst (splitCommas depth more) := by
  induction balanced generalizing depth more with
  | nil => rfl
  | cons flat here _ ih =>
      rw [List.cons_append, splitCommas_flat flat (noComma.imp_right fun none => none _ here),
        ih noComma, List.foldr_cons]
  | group opens closes _ _ inner ih =>
      rw [List.cons_append, List.append_assoc, List.cons_append, splitCommas_opening opens,
        inner (.inl (Nat.succ_ne_zero _)), splitCommas_closing closes,
        Nat.succ_sub_one, ih noComma, List.foldr_cons, List.foldr_append, List.foldr_cons]

theorem foldr_consFirst (front span : List Token) (spans : List (List Token)) :
    front.foldr consFirst (span :: spans) = (front ++ span) :: spans := by
  induction front with
  | nil => rfl
  | cons t front ih => rw [List.foldr_cons, ih]; rfl

theorem splitCommas_commaSeparated {spans : List (List Token)}
    (balanced : ∀ span ∈ spans, Balanced NoComma span)
    (last : ∀ span ∈ spans.getLast?, span ≠ []) (nonempty : spans ≠ []) :
    splitCommas 0 (commaSeparated spans) = spans := by
  induction spans with
  | nil => exact absurd rfl nonempty
  | cons span spans ih =>
      obtain ⟨first, others⟩ := List.forall_mem_cons.mp balanced
      cases spans with
      | nil =>
          have split : splitCommas 0 (span ++ []) = span.foldr consFirst (splitCommas 0 []) :=
            splitCommas_balanced first (.inr fun _ none => none) []
          rw [List.append_nil] at split
          rw [commaSeparated, split, splitCommas, foldr_consFirst, List.append_nil]
      | cons next spans =>
          have split := ih others (by rwa [List.getLast?_cons_cons] at last) (List.cons_ne_nil _ _)
          have more : commaSeparated (next :: spans) ≠ [] := by
            intro empty
            rw [empty, splitCommas] at split
            obtain ⟨rfl, rfl⟩ := List.cons.inj split
            exact last [] rfl rfl
          have comma : splitCommas 0 (commaToken :: commaSeparated (next :: spans)) =
              [] :: next :: spans := by
            rw [splitCommas, split]
            simp [commaToken, more]
          rw [commaSeparated, splitCommas_balanced first (.inr fun _ none => none), comma,
            foldr_consFirst, List.append_nil]
          exact List.cons_ne_nil _ _

theorem parameters_commaSeparated {spans : List (List Token)}
    (balanced : ∀ span ∈ spans, Balanced NoComma span)
    (last : ∀ span ∈ spans.getLast?, span ≠ []) : parameters (commaSeparated spans) = spans := by
  cases spans with
  | nil => rfl
  | cons span spans =>
      have split := splitCommas_commaSeparated balanced last (List.cons_ne_nil _ _)
      unfold parameters
      split
      · rename_i empty
        rw [empty, splitCommas] at split
        obtain ⟨rfl, rfl⟩ := List.cons.inj split
        exact absurd rfl (last [] rfl)
      · exact split

/-- The token is no operator that binds looser than assignment. -/
def Binds (t : Token) : Prop :=
  t.kind = .operator → (Operator.tier? t.text).any (Operator.assignmentTier < ·) = false

theorem splitBody_opening {t : Token} (kind : t.kind = .openParen) (depth : Int) (line : List Token) :
    splitBody depth (t :: line) =
      (t :: (splitBody (depth + 1) line).1, (splitBody (depth + 1) line).2) := by
  simp [splitBody, kind]

theorem splitBody_closing {t : Token} (kind : t.kind = .closeParen) (depth : Int)
    (line : List Token) :
    splitBody depth (t :: line) =
      (t :: (splitBody (depth - 1) line).1, (splitBody (depth - 1) line).2) := by
  simp [splitBody, kind]

theorem splitBody_flat {t : Token} {depth : Int} (flat : t.Flat) (binds : 0 < depth ∨ t.Binds)
    (line : List Token) :
    splitBody depth (t :: line) = (t :: (splitBody depth line).1, (splitBody depth line).2) := by
  have stays : ¬(t.kind = .operator && decide (depth = 0)
      && (Operator.tier? t.text).any (Operator.assignmentTier < ·)) = true := by
    intro loose
    simp only [Bool.and_eq_true, decide_eq_true_eq] at loose
    obtain ⟨⟨operator, outside⟩, loose⟩ := loose
    rcases binds with inside | binds
    · exact absurd outside (Int.ne_of_gt inside)
    · rw [binds operator] at loose
      cases loose
  rw [splitBody, if_neg stays]
  split
  · exact absurd ‹_› flat.1
  · exact absurd ‹_› flat.2
  · rfl

theorem splitBody_loose {t : Token} (loose : ¬t.Binds) (line : List Token) :
    splitBody 0 (t :: line) = ([], t :: line) := by
  obtain ⟨operator, loose⟩ := Classical.not_imp.mp loose
  rw [Bool.not_eq_false] at loose
  rw [splitBody, if_pos (by simp [operator, loose])]

theorem splitBody_append (depth : Int) (line : List Token) :
    (splitBody depth line).1 ++ (splitBody depth line).2 = line := by
  fun_induction splitBody depth line with
  | case1 => rfl
  | case2 => rfl
  | case3 => simp_all

theorem splitBody_balanced {outside : Token → Prop} {line : List Token} {depth : Int}
    (balanced : Balanced outside line) (inside : 0 ≤ depth)
    (binds : 0 < depth ∨ ∀ t, outside t → t.Binds) (more : List Token) :
    splitBody depth (line ++ more) =
      (line ++ (splitBody depth more).1, (splitBody depth more).2) := by
  induction balanced generalizing depth more with
  | nil => rfl
  | cons flat here _ ih =>
      rw [List.cons_append, splitBody_flat flat (binds.imp_right fun all => all _ here),
        ih inside binds]
      rfl
  | group opens closes _ _ inner ih =>
      have deeper : 0 < depth + 1 := Int.lt_add_one_of_le inside
      rw [List.cons_append, List.append_assoc, List.cons_append, splitBody_opening opens,
        inner (Int.le_of_lt deeper) (.inl deeper), splitBody_closing closes, Int.add_sub_cancel,
        ih inside binds]
      simp

theorem assignmentAhead_opening {t : Token} (kind : t.kind = .openParen) (depth : Int)
    (line : List Token) :
    Name.assignmentAhead depth (t :: line) = Name.assignmentAhead (depth + 1) line := by
  simp only [Name.assignmentAhead, kind]

theorem assignmentAhead_closing {t : Token} (kind : t.kind = .closeParen) (depth : Int)
    (line : List Token) :
    Name.assignmentAhead depth (t :: line) = Name.assignmentAhead (depth - 1) line := by
  simp only [Name.assignmentAhead, kind]

theorem assignmentAhead_flat {t : Token} {depth : Int} (flat : t.Flat)
    (passed : depth ≠ 0 ∨ t.kind ≠ .operator) (line : List Token) :
    Name.assignmentAhead depth (t :: line) = Name.assignmentAhead depth line := by
  rw [Name.assignmentAhead]
  split
  · exact absurd ‹_› flat.1
  · exact absurd ‹_› flat.2
  · rename_i operator
    rw [if_pos (passed.resolve_right fun other => other operator)]
  · rfl

theorem assignmentAhead_balanced {outside : Token → Prop} {line : List Token} {depth : Int}
    (balanced : Balanced outside line) (inside : 0 < depth) (more : List Token) :
    Name.assignmentAhead depth (line ++ more) = Name.assignmentAhead depth more := by
  induction balanced generalizing depth more with
  | nil => rfl
  | cons flat _ _ ih =>
      rw [List.cons_append, assignmentAhead_flat flat (.inl (Int.ne_of_gt inside)), ih inside]
  | group opens closes _ _ inner ih =>
      have deeper : 0 < depth + 1 := by omega
      rw [List.cons_append, List.append_assoc, List.cons_append, assignmentAhead_opening opens,
        inner deeper, assignmentAhead_closing closes, Int.add_sub_cancel, ih inside]

end Token

end Calculator
