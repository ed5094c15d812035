import Calculator.Proofs.Expr.Lockstep
import Calculator.Proofs.Expr.Steps
import Calculator.Proofs.Names.Tokens

/-! Lines that continue from the last answer. Such a line is read as the line with the answer's name before
it. -/

namespace Calculator

namespace Expr

open Token Reading

theorem keeps_ne_nil : Keeps (· ≠ []) where
  node _ _ := List.cons_ne_nil _ _
  sign _ _ _ := List.cons_ne_nil _ _

def answerLockstep (below : List Element) : Lockstep :=
  overLockstep below keeps_ne_nil Eq opensCall_alike fun lines _ => group_alike lines

theorem readToken_over {words : Vocabulary} {n : Nat} {read : SpanReader n} {topLevel : Bool}
    {p : Progress} (some : p.elements ≠ []) (below : List Element) {t : Token} {rest : List Token}
    (h : rest.length < n) :
    Alike Eq (answerLockstep below).Ongoing (readToken words read topLevel p t rest h)
      (readToken words read topLevel (p.over below) t rest h) := by
  have alike : ∀ topLevel topLevel' span span' h h', topLevel = topLevel' → span = span' →
      Alike Eq (Option.Rel Eq) (read topLevel span h) (read topLevel' span' h') := by
    rintro topLevel _ span _ h h' rfl rfl
    exact alike_refl root_alike _
  have goes : (answerLockstep below).going p (p.over below) := ⟨rfl, some⟩
  by_cases kind : t.kind = .operator
  · rw [readToken_operator kind, readToken_operator kind]
    refine Lockstep.readOperator (C := answerLockstep below) alike h h ⟨rfl, List.cons_ne_nil _ _⟩ ?_ rfl
      rfl rfl
    rw [Progress.definition?_over some]
    exact definition_alike _
  · exact Lockstep.readToken (C := answerLockstep below) alike rfl goes h h kind (fun _ => ⟨rfl, rfl⟩)
      (fun _ _ _ same => same ▸ rfl) rfl fun _ => rfl

theorem elementsOf_over (words : Vocabulary) (topLevel : Bool) {p : Progress} (some : p.elements ≠ [])
    (below : List Element) (line : List Token) :
    Alike Eq (fun elements elements' => elements' = below.reverse ++ elements)
      (elementsOf words topLevel p line) (elementsOf words topLevel (p.over below) line) := by
  induction size : line.length using Nat.strongRecOn generalizing p line with
  | ind size ih =>
      subst size
      cases line with
      | nil => exact alike_pure (Progress.finish_over some below)
      | cons t rest =>
          rw [elementsOf_cons, elementsOf_cons]
          refine (readToken_over some below _).bind ?_
          rintro ⟨p, after⟩ ⟨_, after'⟩ ⟨⟨rfl, some⟩, left⟩
          obtain rfl : after = after' := Subtype.ext left
          exact ih _ (Nat.lt_succ_of_le after.property) some after.val rfl

theorem elementsOf_answer {words : Vocabulary} {op : Token} {rest : List Token}
    (kind : op.kind = .operator) :
    elementsOf words true .start (⟨.name, Parsed.answer⟩ :: op :: rest) =
      elementsOf words true ((Progress.start.pushOp op.text).over [.node (.globalVar Parsed.answer)]) rest := by
  have classified (names : NameStack) :
      Name.classify words names true Parsed.answer (op :: rest) = .globalVar := by
    rw [Name.classify_of_sigil?_none (by decide +kernel)]
    simp [Name.opensCall, kind]
  have bare : Name.bare Parsed.answer = Parsed.answer := by decide +kernel
  have named : Parsed.answer.isEmpty = false := by decide +kernel
  have answers (names : NameStack) :
      (elementsOf words true .start (⟨.name, Parsed.answer⟩ :: op :: rest)).run names =
        (elementsOf words true (Progress.start.pushNode (.globalVar Parsed.answer) .name)
          (op :: rest)).run names := by
    rw [elementsOf_name, readName, bind_assoc, run_get]
    simp only [classified, bare, named, reduceCtorEq, if_false, Bool.false_eq_true]
    rfl
  rw [show elementsOf words true .start _ = _ from funext answers, elementsOf_operator kind rfl]
  rfl

end Expr

namespace Parsed

open Calculator.Expr

/-- The line begins with an operator of two or more characters. -/
def BeginsLong (line : List Token) : Prop :=
  ∃ op rest, line = op :: rest ∧ op.kind = .operator ∧ 2 ≤ op.text.length

theorem continues_single {words : Vocabulary} {topLevel : Bool} {point : Point} {e : Element}
    {elements : List Element} (only : point.progress.elements = [e])
    (ends : point.Ends words topLevel elements) : continues elements = continues [e] := by
  have front := ends.front
  rw [only, List.reverse_singleton] at front
  rcases front with ⟨more, rfl⟩ | dropped
  · cases e <;> rfl
  · obtain ⟨rfl, last⟩ | ⟨_, empty⟩ := List.append_eq_singleton_iff.mp dropped
    · obtain rfl := List.singleton_inj.mp last
      decide +kernel
    · cases empty

theorem taken_start {words : Vocabulary} {topLevel : Bool} {known : NameStack} {p : Progress} {t : Token}
    {rest after : List Token} (taken : Taken words topLevel known .start t rest p after) :
    ∃ e, p.elements = [e] ∧ (continues [e] = true ↔ t.kind = .operator ∧ 2 ≤ t.text.length) := by
  have node (e : Expr) (other : t.kind ≠ .operator) :
      continues [.node e] = true ↔ t.kind = .operator ∧ 2 ≤ t.text.length :=
    ⟨nofun, fun long => absurd long.1 other⟩
  cases taken with
  | literal literal e =>
      refine ⟨.node e, rfl, node e fun kind => ?_⟩
      rw [literal?_eq_none t (.inl kind)] at literal
      cases literal
  | operator kind => exact ⟨.op t.text, rfl, by simp [continues, kind]⟩
  | definition _ defines => cases defines
  | @sign kind _ symbol sign =>
      refine ⟨.op symbol, rfl, fun long => ?_, fun long => ?_⟩
      · rcases sign with rfl | rfl <;> exact absurd long (by decide +kernel)
      · rw [kind] at long
        cases long.1
  | named kind e => exact ⟨.node e, rfl, node e (by simp [kind])⟩
  | group e _ grouped =>
      cases grouped with
      | group opens => exact ⟨.node e, rfl, node e (by simp [opens])⟩

theorem continues_iff {words : Vocabulary} {names : NameStack} {line : List Token}
    {elements : List Element} (ends : (Point.start names line).Ends words true elements) :
    continues elements = true ↔ BeginsLong line := by
  cases line with
  | nil =>
      cases ends
      exact ⟨nofun, nofun⟩
  | cons t rest =>
      obtain ⟨point, step, ends⟩ := Point.Ends.step ends
      obtain ⟨e, only, long⟩ := taken_start step.taken
      rw [continues_single only ends, long]
      constructor
      · exact fun ⟨kind, length⟩ => ⟨t, rest, rfl, kind, length⟩
      · rintro ⟨op, _, same, kind, length⟩
        obtain ⟨rfl, rfl⟩ := List.cons.inj same
        exact ⟨kind, length⟩

theorem ofElements_continues {elements : List Element} (long : continues elements = true) :
    ofElements true elements =
      (ofElements false (.node (.globalVar answer) :: elements)).map fun parsed => ⟨parsed.root, true⟩ := by
  unfold ofElements
  simp only [long, Bool.and_true, if_true, Bool.false_and, Bool.false_eq_true, if_false]
  cases Element.collapse (.node (.globalVar answer) :: elements) <;> rfl

theorem ofElements_stops {elements : List Element} (short : continues elements = false) (imply : Bool) :
    ofElements imply elements = (Element.collapse elements).map fun root => ⟨root, false⟩ := by
  unfold ofElements
  simp only [short, Bool.and_false, Bool.false_eq_true, if_false]

/-- A line that begins with an operator of two or more characters is read as the line with the name of
the last answer before it. All other lines are read as if nothing was implied. -/
theorem ofTokens_implied (words : Vocabulary) (line : List Token) :
    (BeginsLong line → ofTokens words true line =
      (ofTokens words false (⟨.name, answer⟩ :: line)).map fun parsed => ⟨parsed.root, true⟩) ∧
    (¬BeginsLong line → ofTokens words true line = ofTokens words false line ∧
      ∀ parsed, ofTokens words true line = .ok parsed → parsed.implied = false) := by
  have starts {elements : List Element}
      (ends : ((elementsOf words true .start line).run .empty).1 = .ok elements) :
      continues elements = true ↔ BeginsLong line :=
    continues_iff (show (Point.start .empty line).Ends words true elements from ends)
  rw [ofTokens_run, ofTokens_run, ofTokens_run]
  constructor
  · intro long
    have begins := long
    obtain ⟨op, rest, rfl, kind, -⟩ := begins
    have above := elementsOf_over words true
      (show (Progress.start.pushOp op.text).elements ≠ [] from List.cons_ne_nil _ _)
      [.node (.globalVar answer)] rest
    rw [← elementsOf_answer kind, ← elementsOf_operator (p := .start) kind rfl] at above
    have results := (above .empty).1
    generalize ((elementsOf words true .start (⟨.name, answer⟩ :: op :: rest)).run .empty).1 = named at results ⊢
    generalize ended : ((elementsOf words true .start (op :: rest)).run .empty).1 = plain at results ⊢
    cases results with
    | fault same => exact same ▸ rfl
    | value below =>
        subst below
        exact ofElements_continues ((starts ended).mpr long)
  · intro short
    generalize ended : ((elementsOf words true .start line).run .empty).1 = outcome
    cases outcome with
    | error fault => exact ⟨rfl, nofun⟩
    | ok elements =>
        have stops : continues elements = false := by simpa using mt (starts ended).mp short
        change ofElements true elements = ofElements false elements ∧
          ∀ parsed, ofElements true elements = .ok parsed → _
        rw [ofElements_stops stops, ofElements_stops stops]
        refine ⟨rfl, fun parsed read => ?_⟩
        cases collapsed : Element.collapse elements with
        | error fault =>
            rw [collapsed] at read
            cases read
        | ok root =>
            rw [collapsed] at read
            cases read
            rfl

/-- `** 2` continues from the last answer, `- 2` does not. -/
theorem ofTokens_implied_power :
    let words : Vocabulary := ⟨fun _ => false, fun _ => false⟩
    let long : List Token := [⟨.operator, "**"⟩, ⟨.number, "2"⟩]
    let short : List Token := [⟨.operator, "-"⟩, ⟨.number, "2"⟩]
    BeginsLong long ∧ (ofTokens words true long).isOk = true ∧ ofTokens words true long =
      (ofTokens words false (⟨.name, answer⟩ :: long)).map (fun parsed => ⟨parsed.root, true⟩) ∧
    ¬BeginsLong short ∧ ofTokens words true short = ofTokens words false short := by
  intro words long short
  have begins : BeginsLong long := ⟨_, _, rfl, rfl, by decide +kernel⟩
  have other : ¬BeginsLong short := by
    rintro ⟨op, rest, same, -, length⟩
    obtain ⟨rfl, rfl⟩ := List.cons.inj same
    exact absurd length (by decide +kernel)
  exact ⟨begins, by decide +kernel, (ofTokens_implied words long).1 begins, other,
    ((ofTokens_implied words short).2 other).1⟩

end Parsed

end Calculator
