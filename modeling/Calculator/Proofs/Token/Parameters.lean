import Calculator.Proofs.Expr.Targets
import Mathlib.Data.List.Infix

/-!
The parameters between a pair of brackets, and the commas that separate them.

A line with its brackets in balance is cut at the commas outside of brackets: a span without such a comma,
the comma, and the rest of the line, cut in its turn. All else follows from that shape.

Main statement: the parameters with a comma between every two are the line again, but for a comma at its
end, and there are as many of them as the commas tell.
-/

namespace Calculator

namespace Token

/-- As many brackets close as open, and none closes that has not been opened. All kinds of brackets count
alike. -/
def BalancedByCount (line : List Token) : Prop :=
  depth line = 0 ∧ ∀ front ∈ line.inits, 0 ≤ depth front

instance (line : List Token) : Decidable (BalancedByCount line) :=
  inferInstanceAs (Decidable (depth line = 0 ∧ ∀ front ∈ line.inits, 0 ≤ depth front))

def outerCommas (tokens : List Token) : Nat :=
  (List.range tokens.length).countP fun i =>
    tokens[i]?.any (·.kind = .comma) && depth (tokens.take i) = 0

def endsInComma (line : List Token) : Bool :=
  line.getLast?.any (·.kind = .comma) && depth line.dropLast = 0

def withoutFinalComma (line : List Token) : List Token :=
  if endsInComma line then line.dropLast else line

/-- One parameter more than commas outside of brackets, where a comma at the end does not count. Empty
brackets hold none. -/
def parameterCount (line : List Token) : Nat :=
  if line = [] then 0 else outerCommas line + 1 - (if endsInComma line then 1 else 0)

/-- The line is the spans in order, with one comma between neighbours. -/
inductive CommaJoined : List (List Token) → List Token → Prop
  | none : CommaJoined [] []
  | last (span : List Token) : CommaJoined [span] span
  | more {comma : Token} {spans : List (List Token)} {line : List Token} (span : List Token)
      (kind : comma.kind = .comma) (further : spans ≠ []) (rest : CommaJoined spans line) :
      CommaJoined (span :: spans) (span ++ comma :: line)

section Count

variable {outside : Token → Prop} {line front : List Token}

theorem exists_closes {opened : Nat} (low : depth line < -(opened : Int)) :
    ∃ inside close after, Closes opened line inside close after := by
  induction line generalizing opened with
  | nil =>
      have none : depth [] = 0 := rfl
      omega
  | cons t line ih =>
      rw [depth_cons] at low
      by_cases opens : t.kind = .openParen
      · rw [turn_opening opens] at low
        obtain ⟨inside, close, after, closes⟩ := @ih (opened + 1) (by omega)
        exact ⟨_, close, after, .opening opens closes⟩
      by_cases ends : t.kind = .closeParen
      · cases opened with
        | zero => exact ⟨[], t, line, .here ends line⟩
        | succ outer =>
            rw [turn_closing ends] at low
            obtain ⟨inside, close, after, closes⟩ := @ih outer (by omega)
            exact ⟨_, close, after, .closing ends closes⟩
      · rw [turn_flat ⟨opens, ends⟩] at low
        obtain ⟨inside, close, after, closes⟩ := @ih opened (by omega)
        exact ⟨_, close, after, .flat ⟨opens, ends⟩ closes⟩

theorem Balanced.byCount (balanced : Balanced outside line) : BalancedByCount line := by
  refine ⟨balanced.depth, fun front mem => ?_⟩
  obtain ⟨rest, split⟩ := (List.mem_inits front line).mp mem
  exact balanced.depth_prefix split.symm

namespace BalancedByCount

theorem depth_prefix (byCount : BalancedByCount line) (starts : front <+: line) : 0 ≤ depth front :=
  byCount.2 front ((List.mem_inits front line).mpr starts)

theorem behind (byCount : BalancedByCount (front ++ line)) (closed : depth front = 0) :
    BalancedByCount line := by
  constructor
  · have whole := byCount.1
    rwa [depth_append, closed, Int.zero_add] at whole
  · intro more mem
    have starts := (List.prefix_append_right_inj front).mpr ((List.mem_inits more line).mp mem)
    have within := byCount.depth_prefix starts
    rwa [depth_append, closed, Int.zero_add] at within

theorem balanced (byCount : BalancedByCount line) : Balanced (fun _ => True) line := by
  -- The induction is on the length, as a group is left behind as a whole.
  induction size : line.length using Nat.strongRecOn generalizing line with
  | ind size ih =>
      subst size
      cases line with
      | nil => exact .nil
      | cons t rest =>
          by_cases opens : t.kind = .openParen
          · have whole := byCount.1
            rw [depth_cons, turn_opening opens] at whole
            obtain ⟨inside, close, after, closes⟩ := @exists_closes rest 0 (by omega)
            obtain rfl := closes.eq_append
            have inner := closes.balanced_inside
            have group : Balanced (fun _ => True) (t :: (inside ++ [close])) :=
              .group opens closes.kind inner .nil
            have split : t :: (inside ++ close :: after) = t :: (inside ++ [close]) ++ after := by simp
            refine .group opens closes.kind inner (ih _ ?_ (behind (split ▸ byCount) group.depth) rfl)
            simp only [List.length_cons, List.length_append]
            omega
          by_cases ends : t.kind = .closeParen
          · have first : 0 ≤ depth [t] := byCount.depth_prefix ⟨rest, rfl⟩
            rw [depth_singleton, turn_closing ends] at first
            exact absurd first (by decide)
          · have flat : t.Flat := ⟨opens, ends⟩
            have alone : depth [t] = 0 := by rw [depth_singleton, turn_flat flat]
            exact .cons flat trivial (ih _ (Nat.lt_succ_self _) (behind byCount alone) rfl)

end BalancedByCount

theorem Balanced.of_outside (balanced : Balanced outside line) {t : Token} (stands : Outside line t)
    (flat : t.Flat) : outside t := by
  obtain ⟨front, rest, split, closed⟩ := stands
  induction balanced generalizing front with
  | nil => exact absurd split (by simp)
  | cons isFlat here _ ih =>
      cases front with
      | nil =>
          obtain ⟨rfl, -⟩ := List.cons.inj split
          exact here
      | cons first front =>
          obtain ⟨rfl, further⟩ := List.cons.inj split
          rw [depth_cons, turn_flat isFlat, Int.zero_add] at closed
          exact ih front further closed
  | @group _ opening close inside after opens closes inner _ _ ih =>
      have grouped : Grouped (opening :: (inside ++ [close])) := .group opens closes inner
      have whole : opening :: (inside ++ [close]) ++ after = front ++ t :: rest := by simpa using split
      obtain ⟨more, rfl, further⟩ := grouped.skips flat whole closed
      rw [depth_append, grouped.depth, Int.zero_add] at closed
      exact ih more further closed

end Count

section Commas

variable {line front span : List Token} {comma : Token}

theorem outerCommas_append (closed : depth front = 0) (line : List Token) :
    outerCommas (front ++ line) = outerCommas front + outerCommas line := by
  unfold outerCommas
  rw [List.length_append, List.range_add, List.countP_append, List.countP_map]
  refine congrArg₂ _ (List.countP_congr fun i mem => ?_) (List.countP_congr fun i _ => ?_)
  · have inside := List.mem_range.mp mem
    rw [List.getElem?_append_left inside, List.take_append_of_le_length (Nat.le_of_lt inside)]
  · have behind : depth ((front ++ line).take (front.length + i)) = depth (line.take i) := by
      rw [List.take_length_add_append, depth_append, closed, Int.zero_add]
    simp only [Function.comp_apply, behind, List.getElem?_append_right (Nat.le_add_right _ _),
      Nat.add_sub_cancel_left]

theorem outerCommas_singleton (kind : comma.kind = .comma) : outerCommas [comma] = 1 := by
  simp [outerCommas, kind, depth]

theorem depth_append_comma (closed : depth span = 0) (kind : comma.kind = .comma) :
    depth (span ++ [comma]) = 0 := by
  rw [depth_append, closed, depth_singleton, turn_flat (flat_of_comma kind), Int.zero_add]

theorem not_outside (balanced : Balanced NoComma line) (kind : comma.kind = .comma) :
    ¬Outside line comma := fun stands => balanced.of_outside stands (flat_of_comma kind) kind

theorem outerCommas_eq_zero (balanced : Balanced NoComma line) : outerCommas line = 0 := by
  refine List.countP_eq_zero.mpr fun i _ holds => ?_
  simp only [Bool.and_eq_true, decide_eq_true_eq, Option.any_eq_true] at holds
  obtain ⟨⟨comma, found, kind⟩, closed⟩ := holds
  obtain ⟨less, rfl⟩ := List.getElem?_eq_some_iff.mp found
  refine not_outside balanced kind ⟨line.take i, line.drop (i + 1), ?_, closed⟩
  rw [← List.drop_eq_getElem_cons less, List.take_append_drop]

theorem endsInComma_append_singleton (kind : comma.kind = .comma) :
    endsInComma (line ++ [comma]) = decide (depth line = 0) := by
  simp [endsInComma, kind]

theorem endsInComma_eq_false (balanced : Balanced NoComma line) : endsInComma line = false := by
  rcases List.eq_nil_or_concat line with rfl | ⟨front, last, rfl⟩
  · rfl
  · rw [List.concat_eq_append] at balanced ⊢
    by_cases kind : last.kind = .comma
    · have enclosed : depth front ≠ 0 := fun closed =>
        not_outside balanced kind ⟨front, [], rfl, closed⟩
      rw [endsInComma_append_singleton kind, decide_eq_false enclosed]
    · simp [endsInComma, kind]

section Behind

variable (closed : depth front = 0) (further : line ≠ [])
include closed further

theorem endsInComma_behind : endsInComma (front ++ line) = endsInComma line := by
  unfold endsInComma
  rw [List.getLast?_append_of_ne_nil front further, List.dropLast_append_of_ne_nil further, depth_append,
    closed, Int.zero_add]

theorem withoutFinalComma_behind : withoutFinalComma (front ++ line) = front ++ withoutFinalComma line := by
  unfold withoutFinalComma
  rw [endsInComma_behind closed further, List.dropLast_append_of_ne_nil further, apply_ite (front ++ ·)]

end Behind

end Commas

/-- A line is cut at the commas outside of brackets. A comma at the end begins no further span. -/
inductive Cut : List (List Token) → List Token → Prop
  | last {span : List Token} (inner : Balanced NoComma span) : Cut [span] span
  | final {span : List Token} {comma : Token} (inner : Balanced NoComma span) (kind : comma.kind = .comma) :
      Cut [span] (span ++ [comma])
  | more {span line : List Token} {comma : Token} {spans : List (List Token)}
      (inner : Balanced NoComma span) (kind : comma.kind = .comma) (further : line ≠ [])
      (rest : Cut spans line) : Cut (span :: spans) (span ++ comma :: line)

theorem splitCommas_comma {comma : Token} (kind : comma.kind = .comma) {line : List Token}
    (further : line ≠ []) : splitCommas 0 (comma :: line) = [] :: splitCommas 0 line := by
  simp [splitCommas, kind, further]

namespace Cut

variable {front line : List Token} {spans : List (List Token)}

theorem behind (balanced : Balanced NoComma front) (cut : Cut spans line) :
    Cut (front.foldr consFirst spans) (front ++ line) := by
  cases cut with
  | last inner =>
      rw [foldr_consFirst]
      exact .last (balanced.append inner)
  | final inner kind =>
      rw [foldr_consFirst, ← List.append_assoc]
      exact .final (balanced.append inner) kind
  | more inner kind further rest =>
      rw [foldr_consFirst, ← List.append_assoc]
      exact .more (balanced.append inner) kind further rest

theorem splitCommas_behind (balanced : Balanced NoComma front) (cut : Cut (splitCommas 0 line) line) :
    Cut (splitCommas 0 (front ++ line)) (front ++ line) := by
  rw [splitCommas_balanced balanced (.inr fun _ none => none)]
  exact cut.behind balanced

theorem splitCommas {outside : Token → Prop} (balanced : Balanced outside line) :
    Cut (Token.splitCommas 0 line) line := by
  -- The induction is on the groups of the line and the tokens between them.
  induction balanced with
  | nil => exact .last .nil
  | @cons _ t line flat _ _ ih =>
      by_cases kind : t.kind = .comma
      · by_cases empty : line = []
        · subst empty
          simpa [Token.splitCommas, kind] using Cut.final .nil kind
        · rw [splitCommas_comma kind empty]
          exact .more .nil kind empty ih
      · exact splitCommas_behind (.cons flat kind .nil) ih
  | @group _ opening close inside after opens closes inner _ _ ih =>
      have group : Balanced NoComma (opening :: (inside ++ [close])) := .group opens closes inner .nil
      simpa using splitCommas_behind group ih

theorem balanced (cut : Cut spans line) : ∀ span ∈ spans, Balanced NoComma span := by
  induction cut with
  | last inner => exact List.forall_mem_singleton.mpr inner
  | final inner => exact List.forall_mem_singleton.mpr inner
  | more inner _ _ _ ih => exact List.forall_mem_cons.mpr ⟨inner, ih⟩

theorem ne_nil (cut : Cut spans line) : spans ≠ [] := by
  cases cut <;> exact List.cons_ne_nil _ _

theorem joined (cut : Cut spans line) : CommaJoined spans (withoutFinalComma line) := by
  induction cut with
  | last inner =>
      rw [withoutFinalComma, endsInComma_eq_false inner]
      exact .last _
  | final inner kind =>
      rw [withoutFinalComma, endsInComma_append_singleton kind, inner.depth, List.dropLast_concat]
      exact .last _
  | more inner kind further rest ih =>
      rw [List.append_cons, withoutFinalComma_behind (depth_append_comma inner.depth kind) further,
        ← List.append_cons]
      exact .more _ kind rest.ne_nil ih

theorem length (cut : Cut spans line) :
    spans.length + (if endsInComma line then 1 else 0) = outerCommas line + 1 := by
  induction cut with
  | last inner =>
      rw [endsInComma_eq_false inner, outerCommas_eq_zero inner]
      rfl
  | final inner kind =>
      rw [endsInComma_append_singleton kind, outerCommas_append inner.depth, outerCommas_eq_zero inner,
        outerCommas_singleton kind, inner.depth]
      rfl
  | more inner kind further rest ih =>
      have closed := depth_append_comma inner.depth kind
      rw [List.append_cons, endsInComma_behind closed further, outerCommas_append closed,
        outerCommas_append inner.depth, outerCommas_eq_zero inner, outerCommas_singleton kind,
        List.length_cons]
      omega

end Cut

section Parameters

variable {line : List Token} (balanced : Balanced (fun _ => True) line)
include balanced

theorem parameters_cut (some : line ≠ []) : Cut (parameters line) line := by
  cases line with
  | nil => exact absurd rfl some
  | cons t rest => exact .splitCommas balanced

theorem parameters_joined : CommaJoined (parameters line) (withoutFinalComma line) := by
  rcases eq_or_ne line [] with rfl | some
  · exact .none
  · exact (parameters_cut balanced some).joined

theorem parameters_balanced : ∀ span ∈ parameters line, Balanced NoComma span := by
  rcases eq_or_ne line [] with rfl | some
  · exact List.forall_mem_nil _
  · exact (parameters_cut balanced some).balanced

theorem parameters_eq_nil_iff : parameters line = [] ↔ line = [] := by
  rcases eq_or_ne line [] with rfl | some
  · exact iff_of_true rfl rfl
  · exact iff_of_false (parameters_cut balanced some).ne_nil some

theorem parameters_length : (parameters line).length = parameterCount line := by
  rcases eq_or_ne line [] with rfl | some
  · rfl
  · rw [parameterCount, if_neg some, ← (parameters_cut balanced some).length, Nat.add_sub_cancel]

end Parameters

theorem group_of_balanced {outside : Token → Prop} {opening close : Token} {line after : List Token}
    {g : Group (line ++ close :: after)} (balanced : Balanced outside line)
    (ends : close.kind = .closeParen) (grouped : group opening (line ++ close :: after) = .ok g) :
    g.inside = line ∧ g.after = after := by
  obtain ⟨inside, -, after⟩ := (closes_of_group grouped).unique (balanced.closes ends after)
  exact ⟨inside, after⟩

end Token

namespace Expr

open Reading Token

section Count

variable {words : Vocabulary} {n : Nat} {opening close : Token} {line after : List Token}
  (balanced : Balanced (fun _ => True) line) (opens : opening.kind = .openParen)
  (ends : close.kind = .closeParen) (fits : (opening :: (line ++ close :: after)).length < n)

theorem reader_nested (topLevel : Bool) (span : List Token) (h : span.length < n) :
    (reader words n topLevel span h).Yields fun root => Nested (OccursIn root) span :=
  readElements_nested.bind fun _ inner => yields_except fun _ collapsed =>
    inner.2.mono fun _ => Element.collapse_kept collapsed

theorem readLambda_length {inside : List Token} (h : inside.length < n) :
    (readLambda (reader words n) opening inside h).Yields fun e =>
      ∃ aliases body, e = .lambda aliases body ∧ aliases.length + 1 = (parameters inside).length := by
  refine (readLambdaSpans_nested reader_nested).inFrame.bind fun result all => ?_
  cases result with
  | none => exact yields_error _
  | some lambda =>
      have counts := (all lambda rfl).1
      rw [← List.length_map Subtype.val, spans_val] at counts
      exact yields_pure ⟨_, _, rfl, counts⟩

include balanced opens ends

theorem readArguments_count :
    (readArguments (reader words n) (opening :: (line ++ close :: after)) fits).Yields fun result =>
      result.1.length = parameterCount line ∧ result.2.val = after := by
  rw [readArguments, if_pos opens]
  refine (yields_except fun g grouped => grouped).bind fun g grouped => ?_
  obtain ⟨inside, behind⟩ := group_of_balanced balanced ends grouped
  refine (readParameters_nested reader_nested).bind fun args read => yields_pure ⟨?_, behind⟩
  rw [read.1, inside, parameters_length balanced]

theorem readLambdaGroup_count :
    (readLambdaGroup (reader words n) (opening :: (line ++ close :: after)) fits).Yields fun result =>
      (∃ aliases body, result.1 = .lambda aliases body ∧ aliases.length + 1 = parameterCount line) ∧
        result.2.val = after := by
  rw [readLambdaGroup, if_pos opens]
  refine (yields_except fun g grouped => grouped).bind fun g grouped => ?_
  obtain ⟨inside, behind⟩ := group_of_balanced balanced ends grouped
  refine (readLambda_length _).bind fun e lambda => yields_pure ⟨?_, behind⟩
  rwa [inside, parameters_length balanced] at lambda

end Count

end Expr

namespace Token

open Calculator.Expr Calculator.Expr.Reading

/-- The parameters of a line with its brackets in balance are the line again with a comma between every
two, but for a comma at the end outside of brackets. Each is in balance, and no comma stands outside of its
brackets. There is one more than there are commas outside of the brackets of the line, a comma at the end
apart, and there is none where the line is empty. A call that is read takes as many arguments, and a lambda
as many names and its body together. -/
theorem commas_separate_parameters {line : List Token} (byCount : BalancedByCount line) :
    CommaJoined (parameters line) (withoutFinalComma line) ∧
      (∀ span ∈ parameters line, BalancedByCount span ∧ ∀ t, Outside span t → t.kind ≠ .comma) ∧
      (parameters line = [] ↔ line = []) ∧
      (parameters line).length = parameterCount line ∧
      ∀ words n opening close after (fits : (opening :: (line ++ close :: after)).length < n),
        opening.kind = .openParen → close.kind = .closeParen →
          (readArguments (reader words n) (opening :: (line ++ close :: after)) fits).Yields
              (fun result => result.1.length = parameterCount line ∧ result.2.val = after) ∧
            (readLambdaGroup (reader words n) (opening :: (line ++ close :: after)) fits).Yields
              fun result => (∃ aliases body, result.1 = .lambda aliases body ∧
                aliases.length + 1 = parameterCount line) ∧ result.2.val = after := by
  have balanced := byCount.balanced
  have spans : ∀ span ∈ parameters line,
      BalancedByCount span ∧ ∀ t, Outside span t → t.kind ≠ .comma := by
    intro span mem
    have inner := parameters_balanced balanced span mem
    exact ⟨inner.byCount, fun t stands kind => not_outside inner kind stands⟩
  exact ⟨parameters_joined balanced, spans, parameters_eq_nil_iff balanced, parameters_length balanced,
    fun words n opening close after fits opens ends =>
      ⟨readArguments_count balanced opens ends fits, readLambdaGroup_count balanced opens ends fits⟩⟩

/-- `f[b, c], a,` holds two parameters, and `(f[b, c], a,)` is read as two arguments. -/
theorem commas_separate_parameters_nested :
    let words : Vocabulary := ⟨fun name => name = "f", fun _ => false⟩
    let name (text : String) : Token := ⟨.name, text⟩
    let call := [name "f", ⟨.openParen, "["⟩, name "b", commaToken, name "c", ⟨.closeParen, "]"⟩]
    let front := call ++ [commaToken, name "a"]
    let line := front ++ [commaToken]
    BalancedByCount line ∧ CommaJoined [call, [name "a"]] front ∧
      (BalancedByCount call ∧ ∀ t, Outside call t → t.kind ≠ .comma) ∧ parameterCount line = 2 ∧
      ∃ result names, (readArguments (reader words 12) (inBrackets line) (by decide)).run .empty =
        (.ok result, names) ∧ result.1.length = 2 ∧ result.2.val = [] := by
  intro words name call front line
  have byCount : BalancedByCount line := by decide
  obtain ⟨joined, spans, -, -, reads⟩ := commas_separate_parameters byCount
  refine ⟨byCount, joined, spans call (List.mem_cons_self ..), by decide, ?_⟩
  have counts := (reads words 12 openRound closeRound [] (by decide) rfl rfl).1
  have succeeds : ((readArguments (reader words 12) (inBrackets line) (by decide)).run .empty).1.isOk := by
    decide +kernel
  cases read : (readArguments (reader words 12) (inBrackets line) (by decide)).run .empty with
  | mk outcome names =>
      cases outcome with
      | error fault =>
          rw [read] at succeeds
          cases succeeds
      | ok result => exact ⟨result, names, rfl, counts .empty result names read⟩

end Token

end Calculator
