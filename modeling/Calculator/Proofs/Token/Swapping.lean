import Calculator.Proofs.Expr.Reading

/-! Two lines that are the same but for what stands between the brackets of one lambda. They are split
into groups, parameters and bodies at the same places. -/

namespace Calculator

namespace Token

/-- With so many brackets open before it, a line closes none that is not open. -/
inductive Above : Nat → List Token → Prop
  | nil (depth : Nat) : Above depth []
  | flat {t : Token} {depth : Nat} {line : List Token} (isFlat : t.Flat) (rest : Above depth line) :
      Above depth (t :: line)
  | opening {t : Token} {depth : Nat} {line : List Token} (kind : t.kind = .openParen)
      (rest : Above (depth + 1) line) : Above depth (t :: line)
  | closing {t : Token} {depth : Nat} {line : List Token} (kind : t.kind = .closeParen)
      (rest : Above depth line) : Above (depth + 1) (t :: line)

namespace Above

variable {depth : Nat} {t : Token} {line more : List Token}

theorem of_flat (isFlat : t.Flat) (above : Above depth (t :: line)) : Above depth line := by
  cases above with
  | flat _ rest => exact rest
  | opening kind => exact absurd kind isFlat.1
  | closing kind => exact absurd kind isFlat.2

theorem of_opening (kind : t.kind = .openParen) (above : Above depth (t :: line)) :
    Above (depth + 1) line := by
  cases above with
  | flat isFlat => exact absurd kind isFlat.1
  | opening _ rest => exact rest
  | closing other => exact nomatch kind.symm.trans other

theorem of_closing (kind : t.kind = .closeParen) (above : Above depth (t :: line)) :
    ∃ outer, depth = outer + 1 ∧ Above outer line := by
  cases above with
  | flat isFlat => exact absurd kind isFlat.2
  | opening other => exact nomatch kind.symm.trans other
  | closing _ rest => exact ⟨_, rfl, rest⟩

theorem balanced {outside : Token → Prop} {front : List Token} (balanced : Balanced outside front) :
    Above depth (front ++ line) ↔ Above depth line := by
  induction balanced generalizing depth line with
  | nil => rfl
  | cons isFlat _ _ ih =>
      rw [List.cons_append]
      exact ⟨fun above => ih.mp (above.of_flat isFlat), fun above => .flat isFlat (ih.mpr above)⟩
  | group opens closes _ _ inner ih =>
      rw [List.cons_append, List.append_assoc, List.cons_append, ← (ih : Above depth (_ ++ line) ↔ Above depth line)]
      constructor
      · intro above
        obtain ⟨outer, same, above⟩ := (inner.mp (above.of_opening opens)).of_closing closes
        obtain rfl := Nat.succ.inj same
        exact above
      · exact fun above => .opening opens (inner.mpr (.closing closes above))

theorem of_balanced {outside : Token → Prop} (balanced : Balanced outside line) (depth : Nat) :
    Above depth line := by
  have above := (Above.balanced balanced).mpr (Above.nil depth)
  rwa [List.append_nil] at above

theorem splitCommas (above : Above depth line) :
    ∃ first others, Token.splitCommas depth line = first :: others ∧ Above depth first ∧
      ∀ span ∈ others, Above 0 span := by
  induction above with
  | nil depth => exact ⟨[], [], rfl, .nil depth, List.forall_mem_nil _⟩
  | @flat t depth line isFlat _ ih =>
      obtain ⟨first, others, split, here, all⟩ := ih
      by_cases passed : depth ≠ 0 ∨ t.NoComma
      · rw [splitCommas_flat isFlat passed, split]
        exact ⟨_, _, rfl, .flat isFlat here, all⟩
      · obtain ⟨outside, comma⟩ := not_or.mp passed
        obtain rfl := not_not.mp outside
        rw [Token.splitCommas, not_not.mp comma]
        by_cases last : line.isEmpty = true
        · exact ⟨[], [], by simp [last], .nil 0, List.forall_mem_nil _⟩
        · exact ⟨[], first :: others, by simp [last, split], .nil 0,
            List.forall_mem_cons.mpr ⟨here, all⟩⟩
  | @opening t depth line kind _ ih =>
      obtain ⟨first, others, split, here, all⟩ := ih
      rw [splitCommas_opening kind, split]
      exact ⟨_, _, rfl, .opening kind here, all⟩
  | @closing t depth line kind _ ih =>
      obtain ⟨first, others, split, here, all⟩ := ih
      rw [splitCommas_closing kind, Nat.add_sub_cancel, split]
      exact ⟨_, _, rfl, .closing kind here, all⟩

theorem parameters (above : Above 0 line) : ∀ span ∈ Token.parameters line, Above 0 span := by
  obtain ⟨first, others, split, here, all⟩ := above.splitCommas
  unfold Token.parameters
  split
  · exact List.forall_mem_nil _
  · rw [split]
    exact List.forall_mem_cons.mpr ⟨here, all⟩

theorem splitBody (above : Above depth line) :
    Above depth (Token.splitBody depth line).1 ∧ Above 0 (Token.splitBody depth line).2 := by
  induction above with
  | nil depth => exact ⟨.nil depth, .nil 0⟩
  | @flat t depth line isFlat rest ih =>
      by_cases binds : 0 < (depth : Int) ∨ t.Binds
      · rw [splitBody_flat isFlat binds]
        exact ⟨.flat isFlat ih.1, ih.2⟩
      · obtain ⟨outside, loose⟩ := not_or.mp binds
        obtain rfl : depth = 0 := by omega
        rw [Int.natCast_zero, splitBody_loose loose]
        exact ⟨.nil 0, .flat isFlat rest⟩
  | opening kind _ ih =>
      rw [splitBody_opening kind]
      exact ⟨.opening kind ih.1, ih.2⟩
  | closing kind _ ih =>
      rw [splitBody_closing kind, Int.natCast_succ, Int.add_sub_cancel]
      exact ⟨.closing kind ih.1, ih.2⟩

end Above

theorem consFirst_ne_nil (t : Token) (spans : List (List Token)) : consFirst t spans ≠ [] := by
  cases spans <;> exact List.cons_ne_nil _ _

theorem splitCommas_ne_nil (depth : Nat) (line : List Token) : splitCommas depth line ≠ [] := by
  unfold splitCommas
  split
  · exact List.cons_ne_nil _ _
  · split
    · split
      · exact consFirst_ne_nil _ _
      · split <;> exact List.cons_ne_nil _ _
    · exact consFirst_ne_nil _ _
    · exact consFirst_ne_nil _ _
    · exact consFirst_ne_nil _ _

theorem assignmentAhead_congr {t : Token} (flat : t.Flat) {depth : Int} {line line' : List Token}
    (same : Name.assignmentAhead depth line = Name.assignmentAhead depth line') :
    Name.assignmentAhead depth (t :: line) = Name.assignmentAhead depth (t :: line') := by
  unfold Name.assignmentAhead
  split
  · exact absurd ‹_› flat.1
  · exact absurd ‹_› flat.2
  · simp only [same]
  · exact same

def lambdaSigil : Token := ⟨.name, "@"⟩

structure BracketPair where
  opening : Token
  close : Token
  opens : opening.kind = .openParen
  closes : close.kind = .closeParen

namespace BracketPair

def lambda (pair : BracketPair) (inside back : List Token) : List Token :=
  lambdaSigil :: pair.opening :: (inside ++ pair.close :: back)

theorem sigil_flat : lambdaSigil.Flat := ⟨nofun, nofun⟩

variable (pair : BracketPair) {inside : List Token} (balanced : Balanced (fun _ => True) inside)

theorem lambda_eq (inside back : List Token) :
    pair.lambda inside back = lambdaSigil :: pair.opening :: (inside ++ [pair.close]) ++ back := by
  simp [lambda]

include balanced

theorem balanced_lambda :
    Balanced (fun _ => True) (lambdaSigil :: pair.opening :: (inside ++ [pair.close])) :=
  .cons sigil_flat trivial (.group pair.opens pair.closes balanced .nil)

theorem closes_inside (back : List Token) :
    Closes 0 (inside ++ pair.close :: back) inside pair.close back := balanced.closes pair.closes back

theorem closes_lambda {depth : Nat} {back more after : List Token} {close : Token} :
    Closes depth (pair.lambda inside back) more close after ↔
      ∃ rest, more = pair.lambda inside rest ∧ Closes depth back rest close after := by
  rw [lambda_eq]
  constructor
  · intro closed
    obtain ⟨rest, same, closes⟩ := closed.of_balanced (pair.balanced_lambda balanced)
    exact ⟨rest, same.trans (pair.lambda_eq inside rest).symm, closes⟩
  · rintro ⟨rest, rfl, closes⟩
    rw [lambda_eq]
    exact closes.balanced (pair.balanced_lambda balanced)

theorem splitCommas_lambda {depth : Nat} {back first : List Token} {others : List (List Token)}
    (split : splitCommas depth back = first :: others) :
    splitCommas depth (pair.lambda inside back) = pair.lambda inside first :: others := by
  rw [lambda, splitCommas_flat sigil_flat (.inr nofun), splitCommas_opening pair.opens,
    splitCommas_balanced balanced (.inl (Nat.succ_ne_zero _)), splitCommas_closing pair.closes,
    Nat.succ_sub_one, split, consFirst, foldr_consFirst]
  rfl

theorem splitBody_lambda {depth : Int} (inner : 0 ≤ depth) (back : List Token) :
    splitBody depth (pair.lambda inside back) =
      (pair.lambda inside (splitBody depth back).1, (splitBody depth back).2) := by
  rw [lambda, splitBody_flat sigil_flat (.inr nofun), splitBody_opening pair.opens,
    splitBody_balanced balanced (by omega) (.inl (by omega)), splitBody_closing pair.closes,
    Int.add_sub_cancel]
  rfl

theorem assignmentAhead_lambda {depth : Int} (inner : 0 ≤ depth) (back : List Token) :
    Name.assignmentAhead depth (pair.lambda inside back) = Name.assignmentAhead depth back := by
  rw [lambda, assignmentAhead_flat sigil_flat (.inr nofun), assignmentAhead_opening pair.opens,
    assignmentAhead_balanced balanced (by omega), assignmentAhead_closing pair.closes,
    Int.add_sub_cancel]

end BracketPair

structure Swap extends BracketPair where
  inside : List Token
  inside' : List Token
  balanced : Balanced (fun _ => True) inside
  balanced' : Balanced (fun _ => True) inside'

/-- Two lines that are the same but for the inside of a lambda. -/
inductive Swapped (swap : Swap) : List Token → List Token → Prop
  | refl (line : List Token) : Swapped swap line line
  | cons (t : Token) {line line' : List Token} (rest : Swapped swap line line') :
      Swapped swap (t :: line) (t :: line')
  | lambda (back : List Token) :
      Swapped swap (swap.lambda swap.inside back) (swap.lambda swap.inside' back)

namespace Swapped

variable {swap : Swap} {line line' : List Token}

theorem front (swapped : Swapped swap line line') (front : List Token) :
    Swapped swap (front ++ line) (front ++ line') := by
  induction front with
  | nil => exact swapped
  | cons t _ ih => exact ih.cons t

theorem opensCall (swapped : Swapped swap line line') :
    Name.opensCall line = Name.opensCall line' := by
  cases swapped <;> rfl

theorem isEmpty (swapped : Swapped swap line line') : line.isEmpty = line'.isEmpty := by
  cases swapped <;> rfl

theorem closes {depth : Nat} {more after : List Token} {close : Token}
    (swapped : Swapped swap line line') (closes : Closes depth line more close after) :
    ∃ more' after', Closes depth line' more' close after' ∧ Swapped swap more more' ∧
      Swapped swap after after' := by
  induction swapped generalizing depth more with
  | refl line => exact ⟨more, after, closes, .refl more, .refl after⟩
  | @cons t line line' rest ih =>
      cases closes with
      | here kind => exact ⟨[], line', .here kind line', .refl [], rest⟩
      | flat isFlat closes =>
          obtain ⟨more', after', closes, inner, behind⟩ := ih closes
          exact ⟨_, after', .flat isFlat closes, inner.cons t, behind⟩
      | opening kind closes =>
          obtain ⟨more', after', closes, inner, behind⟩ := ih closes
          exact ⟨_, after', .opening kind closes, inner.cons t, behind⟩
      | closing kind closes =>
          obtain ⟨more', after', closes, inner, behind⟩ := ih closes
          exact ⟨_, after', .closing kind closes, inner.cons t, behind⟩
  | lambda back =>
      obtain ⟨rest, rfl, behind⟩ := (swap.closes_lambda swap.balanced).mp closes
      exact ⟨_, after, (swap.closes_lambda swap.balanced').mpr ⟨rest, rfl, behind⟩, .lambda rest, .refl after⟩

theorem splitCommas (swapped : Swapped swap line line') (depth : Nat) :
    List.Forall₂ (Swapped swap) (Token.splitCommas depth line)
      (Token.splitCommas depth line') := by
  induction swapped generalizing depth with
  | refl line => exact List.forall₂_same.mpr fun span _ => .refl span
  | @cons t line line' rest ih =>
      have first (depth : Nat) : List.Forall₂ (Swapped swap)
          (consFirst t (Token.splitCommas depth line)) (consFirst t (Token.splitCommas depth line')) := by
        have spans := ih depth
        generalize Token.splitCommas depth line = xs at spans ⊢
        generalize Token.splitCommas depth line' = ys at spans ⊢
        cases spans with
        | nil => exact .cons (.refl [t]) .nil
        | cons span others => exact .cons (span.cons t) others
      unfold Token.splitCommas
      split
      · split
        · exact first depth
        · rw [rest.isEmpty]
          split
          · exact .cons (.refl []) .nil
          · exact .cons (.refl []) (ih 0)
      · exact first _
      · exact first _
      · exact first depth
  | lambda back =>
      obtain ⟨first, others, split⟩ := List.exists_cons_of_ne_nil (splitCommas_ne_nil depth back)
      rw [swap.splitCommas_lambda swap.balanced split, swap.splitCommas_lambda swap.balanced' split]
      exact .cons (.lambda first) (List.forall₂_same.mpr fun span _ => .refl span)

theorem parameters (swapped : Swapped swap line line') :
    List.Forall₂ (Swapped swap) (Token.parameters line) (Token.parameters line') := by
  cases swapped with
  | refl line => exact List.forall₂_same.mpr fun span _ => .refl span
  | cons t rest => exact (rest.cons t).splitCommas 0
  | lambda back => exact (Swapped.lambda back).splitCommas 0

theorem splitBody {depth : Nat} (above : Above depth line)
    (swapped : Swapped swap line line') :
    Swapped swap (Token.splitBody depth line).1 (Token.splitBody depth line').1 ∧
      Swapped swap (Token.splitBody depth line).2 (Token.splitBody depth line').2 := by
  induction swapped generalizing depth with
  | refl line => exact ⟨.refl _, .refl _⟩
  | @cons t line line' rest ih =>
      cases above with
      | flat isFlat above =>
          by_cases binds : 0 < (depth : Int) ∨ t.Binds
          · rw [splitBody_flat isFlat binds, splitBody_flat isFlat binds]
            exact ⟨(ih above).1.cons t, (ih above).2⟩
          · obtain ⟨outside, loose⟩ := not_or.mp binds
            obtain rfl : depth = 0 := by omega
            rw [Int.natCast_zero, splitBody_loose loose, splitBody_loose loose]
            exact ⟨.refl [], rest.cons t⟩
      | opening kind above =>
          rw [splitBody_opening kind, splitBody_opening kind]
          exact ⟨(ih above).1.cons t, (ih above).2⟩
      | closing kind above =>
          rw [splitBody_closing kind, splitBody_closing kind, Int.natCast_succ, Int.add_sub_cancel]
          exact ⟨(ih above).1.cons t, (ih above).2⟩
  | lambda back =>
      rw [swap.splitBody_lambda swap.balanced (Int.natCast_nonneg depth),
        swap.splitBody_lambda swap.balanced' (Int.natCast_nonneg depth)]
      exact ⟨.lambda _, .refl _⟩

theorem assignmentAhead {depth : Nat} (above : Above depth line)
    (swapped : Swapped swap line line') :
    Name.assignmentAhead depth line = Name.assignmentAhead depth line' := by
  induction swapped generalizing depth with
  | refl line => rfl
  | @cons t line line' rest ih =>
      cases above with
      | flat isFlat above => exact assignmentAhead_congr isFlat (ih above)
      | opening kind above =>
          rw [assignmentAhead_opening kind, assignmentAhead_opening kind]
          exact ih above
      | closing kind above =>
          rw [assignmentAhead_closing kind, assignmentAhead_closing kind, Int.natCast_succ,
            Int.add_sub_cancel]
          exact ih above
  | lambda back =>
      rw [swap.assignmentAhead_lambda swap.balanced (Int.natCast_nonneg depth),
        swap.assignmentAhead_lambda swap.balanced' (Int.natCast_nonneg depth)]

end Swapped

end Token

end Calculator
