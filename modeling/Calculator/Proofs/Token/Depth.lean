import Calculator.Proofs.Token.Brackets

/-! How deep in brackets a token stands. -/

namespace Calculator

namespace Token

def turn (t : Token) : Int :=
  match t.kind with
  | .openParen => 1
  | .closeParen => -1
  | _ => 0

def depth : List Token → Int
  | [] => 0
  | t :: line => t.turn + depth line

/-- The token stands outside of all brackets of a line. -/
def Outside (line : List Token) (t : Token) : Prop :=
  ∃ front rest, line = front ++ t :: rest ∧ depth front = 0

theorem depth_cons (t : Token) (line : List Token) : depth (t :: line) = t.turn + depth line := rfl

theorem depth_singleton (t : Token) : depth [t] = t.turn := Int.add_zero _

theorem depth_append (front line : List Token) : depth (front ++ line) = depth front + depth line := by
  induction front with
  | nil => exact (Int.zero_add _).symm
  | cons t front ih => rw [List.cons_append, depth_cons, depth_cons, ih, Int.add_assoc]

theorem turn_flat {t : Token} (flat : t.Flat) : t.turn = 0 := by
  unfold turn
  split
  · exact absurd ‹_› flat.1
  · exact absurd ‹_› flat.2
  · rfl

theorem turn_opening {t : Token} (kind : t.kind = .openParen) : t.turn = 1 := by rw [turn, kind]

theorem turn_closing {t : Token} (kind : t.kind = .closeParen) : t.turn = -1 := by rw [turn, kind]

section Balanced

variable {outside : Token → Prop} {line : List Token}

theorem Balanced.depth (balanced : Balanced outside line) : depth line = 0 := by
  induction balanced with
  | nil => rfl
  | cons flat _ _ ih => rw [depth_cons, turn_flat flat, ih, Int.add_zero]
  | group opens closes _ _ inner ih =>
      rw [depth_cons, depth_append, depth_cons, turn_opening opens, turn_closing closes, inner, ih]
      rfl

theorem Balanced.depth_prefix (balanced : Balanced outside line) {front rest : List Token}
    (split : line = front ++ rest) : 0 ≤ Token.depth front := by
  induction balanced generalizing front rest with
  | nil =>
      obtain ⟨rfl, _⟩ := List.append_eq_nil_iff.mp split.symm
      exact Int.le_refl _
  | cons flat _ _ ih =>
      cases front with
      | nil => exact Int.le_refl _
      | cons t front =>
          obtain ⟨rfl, rest⟩ := List.cons.inj split
          rw [depth_cons, turn_flat flat, Int.zero_add]
          exact ih rest
  | group opens closes balanced _ inner ih =>
      cases front with
      | nil => exact Int.le_refl _
      | cons t front =>
          obtain ⟨rfl, further⟩ := List.cons.inj split
          rw [depth_cons, turn_opening opens]
          obtain ⟨more, rfl, ends⟩ | ⟨more, rfl, ends⟩ := List.append_eq_append_iff.mp further
          · rw [depth_append, balanced.depth]
            cases more with
            | nil => decide
            | cons t more =>
                obtain ⟨rfl, behind⟩ := List.cons.inj ends
                have later := ih behind
                rw [depth_cons, turn_closing closes]
                omega
          · have within := inner (rfl : front ++ more = front ++ more)
            omega

end Balanced

theorem depth_splitBody {depth : Int} {line body tail : List Token}
    (split : splitBody depth line = (body, tail)) (some : tail ≠ []) : depth + Token.depth body = 0 := by
  fun_induction splitBody depth line generalizing body tail with
  | case1 =>
      cases split
      exact absurd rfl some
  | case2 depth t rest loose =>
      cases split
      simp only [Bool.and_eq_true, decide_eq_true_eq] at loose
      rw [loose.1.2]
      rfl
  | case3 =>
      rename_i depth t line _ deeper front after inner ih
      cases split
      have turned : deeper = depth + t.turn := by
        unfold deeper turn
        cases t.kind <;> simp [Int.sub_eq_add_neg]
      have rest := ih inner some
      rw [depth_cons]
      omega

end Token

end Calculator
