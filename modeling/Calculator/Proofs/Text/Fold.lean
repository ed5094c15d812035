import Calculator.Name

/-! Lower case of names with a sigil: the sigil stays, and the rest is put in lower case as if it stood
alone. -/

namespace Calculator

namespace Text

/-- A character without case at the end, or the end itself: no word goes on there. -/
theorem startsCased_append {c : Char} (uncased : isCased c = false) (before : List Char) :
    startsCased (before ++ [c]) = startsCased before := by
  induction before with
  | nil =>
      unfold startsCased
      cases ignorable : isCaseIgnorable c with
      | true => simp [ignorable]
      | false => simp [ignorable, uncased]
  | cons b before ih =>
      unfold startsCased at ih ⊢
      rw [List.cons_append, List.dropWhile_cons, List.dropWhile_cons]
      cases isCaseIgnorable b with
      | true => exact ih
      | false => rfl

theorem lowerAfter_append {c : Char} (uncased : isCased c = false) (before rest : List Char) :
    lowerAfter (before ++ [c]) rest = lowerAfter before rest := by
  induction rest generalizing before with
  | nil => rfl
  | cons d rest ih =>
      unfold lowerAfter
      rw [startsCased_append uncased, ← List.cons_append, ih]

def sigils : List Char := ['$', '#', '@']

theorem fold_sigil {c : Char} (sigil : c ∈ sigils) (rest : List Char) :
    (fold (String.ofList (c :: rest))).toList = c :: (fold (String.ofList rest)).toList := by
  have here : isCased c = false ∧ c ≠ capitalSigma ∧ lowerChar c = [c] := by
    simp only [sigils, List.mem_cons, List.not_mem_nil, or_false] at sigil
    obtain rfl | rfl | rfl := sigil <;> decide
  obtain ⟨uncased, plain, lower⟩ := here
  have same := lowerAfter_append uncased [] rest
  simp only [fold, String.toList_ofList]
  rw [lowerAfter, if_neg plain, lower, List.cons_append, List.nil_append]
  exact congrArg (c :: ·) same

theorem lowerChar_ne_nil (c : Char) : lowerChar c ≠ [] := by
  unfold lowerChar
  split
  · exact List.cons_ne_nil _ _
  · split <;> exact List.cons_ne_nil _ _

theorem isEmpty_fold (name : String) : (fold name).isEmpty = name.isEmpty := by
  have lower : ∀ chars : List Char, lowerAfter [] chars = [] ↔ chars = [] := by
    intro chars
    cases chars with
    | nil => exact iff_of_true rfl rfl
    | cons c rest =>
        refine iff_of_false (fun empty => ?_) (List.cons_ne_nil c rest)
        have first := (List.append_eq_nil_iff.mp empty).1
        split at first
        · split at first <;> cases first
        · exact lowerChar_ne_nil c first
  rw [Bool.eq_iff_iff, String.isEmpty_iff, String.isEmpty_iff, ← String.toList_eq_nil_iff,
    ← String.toList_eq_nil_iff, fold, String.toList_ofList]
  exact lower name.toList

end Text

end Calculator
