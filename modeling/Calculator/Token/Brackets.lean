import Calculator.Error
import Calculator.Operator

/-!
Bracket groups and what they enclose.

While depth is counted the three kinds of brackets are alike; only the pair that encloses a group has
to match.
-/

namespace Calculator

namespace Token

def bracket (t : Token) : Char := t.text.toList.headD '('

def closingFor (opening : Char) : Char :=
  match opening with
  | '[' => ']'
  | '\x7b' => '\x7d'
  | _ => ')'

structure Group (line : List Token) where
  inside : List Token
  close : Token
  after : List Token
  shorter : inside.length + after.length < line.length

def Group.cons {line : List Token} (t : Token) (g : Group line) : Group (t :: line) :=
  ⟨t :: g.inside, g.close, g.after, by
    have := g.shorter
    simp only [List.length_cons]
    omega⟩

/-- Splits at the bracket that closes a group, where `depth` groups inside it are open. -/
def closeGroup? (depth : Nat) : (line : List Token) → Option (Group line)
  | [] => none
  | t :: rest =>
    match t.kind, depth with
    | .closeParen, 0 => some ⟨[], t, rest, by simp⟩
    | .closeParen, depth + 1 => (closeGroup? depth rest).map (·.cons t)
    | .openParen, depth => (closeGroup? (depth + 1) rest).map (·.cons t)
    | _, depth => (closeGroup? depth rest).map (·.cons t)

def group (opening : Token) (line : List Token) : Except ParseError (Group line) :=
  match closeGroup? 0 line with
  | none => .error (.unclosedBracket opening.bracket)
  | some g =>
    if closingFor opening.bracket = g.close.bracket then .ok g
    else .error (.mismatchedBracket opening.bracket g.close.bracket)

/-- A part of a line, no longer than the line. -/
abbrev Span (line : List Token) := {span : List Token // span.length ≤ line.length}

def consFirst (t : Token) : List (List Token) → List (List Token)
  | [] => [[t]]
  | span :: spans => (t :: span) :: spans

/-- Splits at the commas outside of brackets, where `depth` brackets are open. A final comma begins no
further span. -/
def splitCommas (depth : Nat) : List Token → List (List Token)
  | [] => [[]]
  | t :: rest =>
    match t.kind with
    | .comma =>
      if depth ≠ 0 then consFirst t (splitCommas depth rest)
      else if rest.isEmpty then [[]]
      else [] :: splitCommas 0 rest
    | .openParen => consFirst t (splitCommas (depth + 1) rest)
    | .closeParen => consFirst t (splitCommas (depth - 1) rest)
    | _ => consFirst t (splitCommas depth rest)

def parameters : List Token → List (List Token)
  | [] => []
  | line => splitCommas 0 line

/-- Splits before the first operator outside of brackets that binds looser than assignment; `depth` is
the count of open brackets, negative where more were closed. -/
def splitBody (depth : Int) : List Token → List Token × List Token
  | [] => ([], [])
  | t :: rest =>
    if t.kind = .operator && depth = 0
        && (Operator.tier? t.text).any (Operator.assignmentTier < ·) then ([], t :: rest)
    else
      let depth := match t.kind with
        | .openParen => depth + 1
        | .closeParen => depth - 1
        | _ => depth
      let (body, after) := splitBody depth rest
      (t :: body, after)

theorem length_consFirst_le {t : Token} {spans : List (List Token)} {n : Nat}
    (le : ∀ span ∈ spans, span.length ≤ n) :
    ∀ span ∈ consFirst t spans, span.length ≤ n + 1 := by
  intro span member
  cases spans with
  | nil => simp_all [consFirst]
  | cons first rest =>
    rcases List.mem_cons.1 member with rfl | later
    · exact Nat.succ_le_succ (le first (List.mem_cons_self ..))
    · exact Nat.le_succ_of_le (le span (List.mem_cons_of_mem _ later))

theorem length_splitCommas_le (depth : Nat) (line : List Token) :
    ∀ span ∈ splitCommas depth line, span.length ≤ line.length := by
  fun_induction splitCommas depth line with
  | case1 => simp
  | case2 _ _ _ _ _ ih => exact length_consFirst_le ih
  | case3 => simp
  | case4 _ _ _ _ _ _ ih =>
    intro span member
    rcases List.mem_cons.1 member with rfl | later
    · exact Nat.zero_le _
    · exact Nat.le_succ_of_le (ih span later)
  | case5 _ _ _ _ ih => exact length_consFirst_le ih
  | case6 _ _ _ _ ih => exact length_consFirst_le ih
  | case7 _ _ _ _ _ _ ih => exact length_consFirst_le ih

theorem length_parameters_le (line : List Token) :
    ∀ span ∈ parameters line, span.length ≤ line.length := by
  cases line with
  | nil => simp [parameters]
  | cons t rest => exact length_splitCommas_le 0 (t :: rest)

theorem length_splitBody (depth : Int) (line : List Token) :
    (splitBody depth line).1.length + (splitBody depth line).2.length = line.length := by
  fun_induction splitBody depth line with
  | case1 => rfl
  | case2 => simp_all
  | case3 =>
    simp_all
    omega

def parameterSpans (line : List Token) : List (Span line) :=
  (parameters line).attach.map fun ⟨span, member⟩ => ⟨span, length_parameters_le line span member⟩

end Token

end Calculator
