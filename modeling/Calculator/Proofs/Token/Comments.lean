import Calculator.Proofs.Token.Lexing
import Calculator.Proofs.Token.Printing
import Mathlib.Logic.Relation

/-!
Comments are white space.

What is read in front of a comment does not depend on it, as nothing that is read goes on with a backtick or
with a space.

Main statement: a comment that is met may be replaced by a space, and so may all comments one after the
other, without any change of the tokens or of the error.
-/

namespace Calculator

namespace Token

open Text

def Parts (tail : List Char) : Prop := ∃ c rest, tail = c :: rest ∧ (c = ' ' ∨ c = '`')

theorem Parts.none {p : Char → Bool} {tail : List Char} (parts : Parts tail)
    (none : p ' ' = false ∧ p '`' = false) : ∀ c ∈ tail.head?, p c = false := by
  obtain ⟨_, rest, rfl, rfl | rfl⟩ := parts
  · rintro _ ⟨⟩
    exact none.1
  · rintro _ ⟨⟩
    exact none.2

theorem acceptDecimal_zero {literal : Token} (zero : literal.text.toList = ['0']) :
    acceptDecimal literal [] = .ok (some literal, []) ∧ ∀ next after,
      acceptDecimal literal (next :: after) =
        if isLetter next then .error (.unknownMark next) else .ok (some literal, next :: after) := by
  unfold acceptDecimal
  rw [zero]
  exact ⟨rfl, fun _ _ => rfl⟩

theorem acceptDecimal_other {literal : Token} (other : literal.text.toList ≠ ['0']) :
    ∃ result : Except TokenError (Option Token), ∀ after, acceptDecimal literal after = result.map (·, after) := by
  unfold acceptDecimal
  generalize literal.text.toList = text at other
  rcases text with _ | ⟨c, _ | ⟨letter, more⟩⟩
  · exact ⟨.ok literal, fun after => rfl⟩
  · refine ⟨.ok literal, fun after => ?_⟩
    split
    · rename_i same
      exact absurd same other
    · rename_i same
      cases same
    · rfl
  · by_cases zero : c = '0'
    · subst zero
      by_cases mark : (letter = 'e' || letter = 'E') = true
      · exact ⟨.error (.unknownMark letter), fun after => if_pos mark⟩
      · exact ⟨.ok literal, fun after => if_neg mark⟩
    · refine ⟨.ok literal, fun after => ?_⟩
      split
      · rename_i same
        cases same
      · rename_i same
        cases same
        exact absurd rfl zero
      · rfl

theorem scanNumber_other {first : Char} (other : first ≠ '0') (rest : List Char) :
    scanNumber first rest = scanDecimal first rest := by
  unfold scanNumber
  split
  · exact absurd rfl other
  · rfl

theorem scanNumber_marked {mark : Char} {literal : TokenKind × (Char → Bool)}
    (known : literalMark? mark = some literal) (more : List Char) :
    scanNumber '0' (mark :: more) =
      .ok (some (ofChars literal.1 (more.takeWhile fun c => literal.2 c || c = '_')),
        more.dropWhile fun c => literal.2 c || c = '_') := by
  simp only [scanNumber, known]

theorem literalMark?_ends {mark : Char} {literal : TokenKind × (Char → Bool)}
    (known : literalMark? mark = some literal) :
    (literal.2 ' ' || ' ' = '_') = false ∧ (literal.2 '`' || '`' = '_') = false := by
  unfold literalMark? at known
  split at known <;> cases known <;> decide

def followedBy (scanned : Scanned) (tail : List Char) : Scanned :=
  scanned.map fun (token, after) => (token, after ++ tail)

/-- What is scanned in front of a space or of a comment is scanned in front of every other one. -/
def Local (f : List Char → Scanned) : Prop :=
  ∀ ⦃front more tail tail' token⦄, Parts tail → Parts tail' →
    f (front ++ tail) = .ok (token, more ++ tail) → f (front ++ tail') = .ok (token, more ++ tail')

namespace Local

variable {f g : List Char → Scanned}

theorem error (fault : List Char → TokenError) : Local fun rest => .error (fault rest) :=
  fun _ _ _ _ _ _ _ scanned => nomatch scanned

theorem ok (token : Option Token) : Local fun rest => .ok (token, rest) := by
  intro front more tail tail' token' _ _ scanned
  simp only [Except.ok.injEq, Prod.mk.injEq, List.append_cancel_right_eq] at scanned
  obtain ⟨rfl, rfl⟩ := scanned
  rfl

theorem ite {c : Prop} [Decidable c] (first : Local f) (second : Local g) :
    Local fun rest => if c then f rest else g rest := by
  by_cases h : c
  · simpa only [if_pos h] using first
  · simpa only [if_neg h] using second

theorem of_followedBy (alone : ∀ front tail, Parts tail → f (front ++ tail) = followedBy (f front) tail) :
    Local f := by
  intro front more tail tail' token parts parts' scanned
  rw [alone front tail parts, followedBy] at scanned
  rw [alone front tail' parts', followedBy]
  cases here : f front with
  | error fault =>
      rw [here] at scanned
      cases scanned
  | ok result =>
      rw [here] at scanned
      simp only [Except.map, Except.ok.injEq, Prod.mk.injEq, List.append_cancel_right_eq] at scanned ⊢
      obtain ⟨rfl, rfl⟩ := scanned
      exact ⟨rfl, rfl⟩

end Local

section Followed

variable {tail : List Char} (parts : Parts tail) (front : List Char)
include parts

theorem takeWhile_followed {p : Char → Bool} (none : p ' ' = false ∧ p '`' = false) :
    (front ++ tail).takeWhile p = front.takeWhile p ∧
      (front ++ tail).dropWhile p = front.dropWhile p ++ tail := by
  have ends := parts.none none
  induction front with
  | nil => exact Number.takeWhile_run nofun ends
  | cons c front ih =>
      cases goesOn : p c with
      | true => simp [goesOn, ih]
      | false => simp [goesOn]

theorem scanRun_followed (kind : TokenKind) (first : Char) {goesOn : Char → Bool}
    (none : goesOn ' ' = false ∧ goesOn '`' = false) :
    scanRun kind first goesOn (front ++ tail) = followedBy (scanRun kind first goesOn front) tail := by
  obtain ⟨taken, dropped⟩ := takeWhile_followed parts front none
  rw [scanRun, taken, dropped]
  rfl

theorem splitDecimal_parts : splitDecimal tail = ([], tail) := by
  rw [splitDecimal.eq_def]
  obtain ⟨_, rest, rfl, rfl | rfl⟩ := parts
  · rfl
  · rfl

theorem splitDecimal_followed :
    splitDecimal (front ++ tail) = ((splitDecimal front).1, (splitDecimal front).2 ++ tail) := by
  fun_induction splitDecimal front with
  | case1 => exact splitDecimal_parts parts
  | case2 c rest goesOn text after split ih =>
      rw [List.cons_append, splitDecimal.eq_def]
      simp only [if_pos goesOn, ih, split]
  | case3 c plain mark =>
      rw [List.singleton_append, splitDecimal.eq_def]
      simp only [if_neg plain, if_pos mark]
      have noSign := @Parts.none (fun c => c = '+' || c = '-') _ parts (by decide)
      have nothing := splitDecimal_parts parts
      obtain ⟨next, rest, rfl, _⟩ := parts
      simp only [noSign next rfl, Bool.false_eq_true, if_false, nothing, List.nil_append]
  | case4 c plain mark sign more signed text after split ih =>
      rw [List.cons_append, List.cons_append, splitDecimal.eq_def]
      simp only [if_neg plain, if_pos mark, if_pos signed, ih, split]
  | case5 c plain mark sign more unsigned text after split ih =>
      rw [List.cons_append, List.cons_append, splitDecimal.eq_def]
      simp only [if_neg plain, if_pos mark, if_neg unsigned, ← List.cons_append, ih, split]
  | case6 c rest plain noMark =>
      rw [List.cons_append, splitDecimal.eq_def]
      simp only [if_neg plain, if_neg noMark]

theorem acceptDecimal_followed (literal : Token) (after : List Char) :
    acceptDecimal literal (after ++ tail) = followedBy (acceptDecimal literal after) tail := by
  by_cases zero : literal.text.toList = ['0']
  · obtain ⟨atEnd, before⟩ := acceptDecimal_zero zero
    cases after with
    | nil =>
        have noLetter := parts.none (p := isLetter) (by decide)
        obtain ⟨next, rest, rfl, _⟩ := parts
        rw [List.nil_append, atEnd, before, noLetter next rfl]
        rfl
    | cons next after =>
        rw [List.cons_append, before, before]
        split <;> rfl
  · obtain ⟨result, accepts⟩ := acceptDecimal_other zero
    rw [accepts, accepts]
    cases result <;> rfl

theorem scanDecimal_followed (first : Char) :
    scanDecimal first (front ++ tail) = followedBy (scanDecimal first front) tail := by
  rw [scanDecimal, splitDecimal_followed parts front]
  exact acceptDecimal_followed parts _ _

theorem scanNumber_followed (first : Char) :
    scanNumber first (front ++ tail) = followedBy (scanNumber first front) tail := by
  by_cases zero : first = '0'
  · subst zero
    cases front with
    | nil =>
        have unmarked : ∀ c ∈ tail.head?, literalMark? c = none := fun c mem =>
          literalMark?_none (parts.none (p := isLetter) (by decide) c mem)
        have none : ∀ c ∈ ([] : List Char).head?, literalMark? c = none := by simp
        rw [List.nil_append, scanNumber_decimal unmarked, scanNumber_decimal none]
        exact scanDecimal_followed parts [] '0'
    | cons mark front =>
        cases known : literalMark? mark with
        | none =>
            have unmarked (rest : List Char) : ∀ c ∈ (mark :: rest).head?, literalMark? c = none := by
              rintro _ ⟨⟩
              exact known
            rw [List.cons_append, scanNumber_decimal (unmarked _), scanNumber_decimal (unmarked _)]
            exact scanDecimal_followed parts (mark :: front) '0'
        | some literal =>
            obtain ⟨taken, dropped⟩ :=
              @takeWhile_followed _ parts front (fun c => literal.2 c || c = '_') (literalMark?_ends known)
            rw [List.cons_append, scanNumber_marked known, scanNumber_marked known, taken, dropped]
            rfl
  · rw [scanNumber_other zero, scanNumber_other zero]
    exact scanDecimal_followed parts front first

theorem scanDollar_followed : scanDollar (front ++ tail) = followedBy (scanDollar front) tail := by
  have noUnderscore : decide (' ' = '_') = false ∧ decide ('`' = '_') = false := by decide
  have noName : isNameChar ' ' = false ∧ isNameChar '`' = false := by decide
  obtain ⟨-, dropped⟩ := @takeWhile_followed _ parts front (· = '_') noUnderscore
  have run := scanRun_followed parts front .name '$' noName
  rw [scanDollar, scanDollar, dropped]
  cases starts : front.dropWhile (· = '_') with
  | nil =>
      have noLetter := parts.none (p := isLetter) (by decide)
      obtain ⟨next, rest, rfl, _⟩ := parts
      simp only [List.nil_append, noLetter next rfl, Bool.false_eq_true, if_false]
      rfl
  | cons c more =>
      simp only [List.cons_append]
      split
      · exact run
      · rfl

end Followed

theorem splitLiteral?_eq {close : Char} {text inside after : List Char}
    (closed : splitLiteral? close text = some (inside, after)) : text = inside ++ close :: after := by
  fun_induction splitLiteral? close text generalizing inside after with
  | case1 => cases closed
  | case2 => cases closed
  | case3 => cases closed
  | case4 c text sameLine ih =>
      obtain ⟨⟨inner, after⟩, found, same⟩ := Option.map_eq_some_iff.mp closed
      cases same
      rw [ih found]
      rfl
  | case5 text =>
      cases closed
      rfl
  | case6 => cases closed
  | case7 c text _ _ _ _ ih =>
      obtain ⟨⟨inner, after⟩, found, same⟩ := Option.map_eq_some_iff.mp closed
      cases same
      rw [ih found]
      rfl

theorem Local.literal (kind : TokenKind) {close : Char} (notEscape : close ≠ '\\')
    (fault : String → TokenError) : Local (scanLiteral kind close fault) := by
  intro front more tail tail' token _ _ scanned
  unfold scanLiteral at scanned
  split at scanned
  · rename_i inside after closed
    cases scanned
    obtain rfl : front = inside ++ close :: more := by
      have same := splitLiteral?_eq closed
      rwa [← List.cons_append, ← List.append_assoc, List.append_cancel_right_eq] at same
    rw [List.append_assoc, List.cons_append, scanLiteral, splitLiteral?_again notEscape closed]
  · cases scanned

theorem afterComment_suffix (text : List Char) : afterComment text <:+ text := by
  fun_induction afterComment text with
  | case1 => exact List.suffix_refl []
  | case2 rest => exact List.suffix_cons _ rest
  | case3 => exact List.suffix_refl _
  | case4 => exact List.suffix_refl _
  | case5 c rest _ ih => exact ih.trans (List.suffix_append ['\\', c] rest)
  | case6 c rest _ _ _ ih => exact ih.trans (List.suffix_cons c rest)

theorem length_afterComment_parts {tail : List Char} (parts : Parts tail) :
    (afterComment tail).length < tail.length := by
  obtain ⟨_, rest, rfl, rfl | rfl⟩ := parts
  · have shorter := length_afterComment_le rest
    simpa [afterComment, Nat.lt_succ_iff] using shorter
  · simp [afterComment]

theorem afterComment_escape {c : Char} (sameLine : c ≠ '\n') (rest : List Char) :
    afterComment ('\\' :: c :: rest) = afterComment rest := by
  rw [afterComment, if_neg sameLine]

theorem afterComment_break (rest : List Char) : afterComment ('\\' :: '\n' :: rest) = '\\' :: '\n' :: rest := by
  rw [afterComment, if_pos rfl]

theorem afterComment_plain {c : Char} (goesOn : c ≠ '`') (plain : c ≠ '\\') (rest : List Char) :
    afterComment (c :: rest) = afterComment rest := by
  rw [afterComment]
  · exact goesOn
  · exact fun same _ => plain same
  · exact fun _ _ same _ => plain same

theorem afterComment_followed {front more tail : List Char} (parts : Parts tail) (tail' : List Char)
    (ends : afterComment (front ++ tail) = more ++ tail) : afterComment (front ++ tail') = more ++ tail' := by
  -- A comment that goes on behind the space leaves too little.
  have within {rest : List Char} (shorter : rest.length < tail.length) : rest ≠ more ++ tail := by
    intro same
    rw [same, List.length_append] at shorter
    omega
  fun_induction afterComment front with
  | case1 => exact absurd ends (within (length_afterComment_parts parts))
  | case2 rest =>
      rw [List.append_cancel_right_eq rest tail more |>.mp ends]
      rfl
  | case3 =>
      obtain ⟨c, rest, rfl, isPart⟩ := parts
      have sameLine : c ≠ '\n' := by rcases isPart with rfl | rfl <;> decide
      rw [List.singleton_append, afterComment_escape sameLine] at ends
      exact absurd ends (within (Nat.lt_succ_of_le (length_afterComment_le rest)))
  | case4 rest =>
      rw [List.cons_append, List.cons_append, afterComment_break] at ends ⊢
      have same : '\\' :: '\n' :: rest = more := by
        rwa [← List.cons_append, ← List.cons_append, List.append_cancel_right_eq] at ends
      rw [← same]
      rfl
  | case5 c rest sameLine ih =>
      rw [List.cons_append, List.cons_append, afterComment_escape sameLine] at ends ⊢
      exact ih ends
  | case6 c rest goesOn last escaped ih =>
      have plain : c ≠ '\\' := by
        rintro rfl
        cases rest with
        | nil => exact last rfl rfl
        | cons d rest => exact escaped d rest rfl rfl
      rw [List.cons_append, afterComment_plain goesOn plain] at ends ⊢
      exact ih ends

theorem Local.comment : Local fun rest => .ok (none, afterComment rest) := by
  intro front more tail tail' token parts _ scanned
  obtain ⟨rfl, ends⟩ := Prod.mk.inj (Except.ok.inj scanned)
  exact congrArg (fun after => Except.ok (none, after)) (afterComment_followed parts tail' ends)

theorem scan_local (first : Char) : Local (scan first) :=
  .ite (.ok none) <|
  .ite .comment <|
  .ite (.literal .quote (by decide) .unterminatedQuote) <|
  .ite (.literal .char (by decide) .unterminatedChar) <|
  .ite (.of_followedBy fun front _ parts => scanNumber_followed parts front first) <|
  .ite (.of_followedBy fun front _ parts => scanRun_followed parts front .name first (by decide)) <|
  .ite (.of_followedBy fun front _ parts => scanDollar_followed parts front) <|
  .ite (.of_followedBy fun front _ parts => scanRun_followed parts front .operator first (by decide)) <|
  .ite (.ok _) <|
  .ite (.ok _) <|
  .ite (.ok _) (.error _)

inductive Reaches : List Char → List Char → Prop
  | here (rest : List Char) : Reaches [] rest
  | further {first : Char} {front more rest : List Char} {token : Option Token}
      (scanned : scan first (front ++ rest) = .ok (token, more ++ rest)) (reaches : Reaches more rest) :
      Reaches (first :: front) rest

theorem tokens_reached {before tail tail' : List Char} (parts : Parts tail) (parts' : Parts tail')
    (reaches : Reaches before tail) (same : tokens tail' = tokens tail) :
    tokens (before ++ tail') = tokens (before ++ tail) := by
  induction reaches with
  | here => exact same
  | @further first front more rest token scanned reaches ih =>
      have scanned' := scan_local first parts parts' scanned
      have ih := ih parts same
      rw [List.cons_append, List.cons_append]
      cases token with
      | none => rw [tokens_skip scanned', tokens_skip scanned, ih]
      | some t => rw [tokens_token scanned', tokens_token scanned, ih]

/-- A comment is met in a text, and another text has a space in its place. -/
def CommentReplaced (text text' : String) : Prop :=
  ∃ before rest, Reaches before ('`' :: rest) ∧ text.toList = before ++ '`' :: rest ∧
    text'.toList = before ++ ' ' :: afterComment rest

theorem tokenize_commentReplaced {text text' : String} (replaced : CommentReplaced text text') :
    tokenize text' = tokenize text := by
  obtain ⟨before, rest, reaches, whole, whole'⟩ := replaced
  have skipped : scan '`' rest = .ok (none, afterComment rest) := rfl
  have same : tokens (' ' :: afterComment rest) = tokens ('`' :: rest) := by
    rw [tokens_skip skipped, tokens_skip rfl]
  rw [tokenize, tokenize, whole, whole',
    tokens_reached ⟨_, _, rfl, .inr rfl⟩ ⟨_, _, rfl, .inl rfl⟩ reaches same]

/-- Every replacement leaves fewer backticks. -/
theorem count_commentReplaced {text text' : String} (replaced : CommentReplaced text text') :
    text'.toList.count '`' < text.toList.count '`' := by
  obtain ⟨before, rest, -, whole, whole'⟩ := replaced
  have fewer := (afterComment_suffix rest).sublist.count_le '`'
  have space : (' ' == '`') = false := rfl
  rw [whole, whole', List.count_append, List.count_append, List.count_cons, List.count_cons, space]
  simp only [beq_self_eq_true, Bool.false_eq_true, if_false, if_true]
  omega

theorem exists_without_comments (text : String) :
    ∃ text', Relation.ReflTransGen CommentReplaced text text' ∧ ∀ next, ¬CommentReplaced text' next := by
  induction marks : text.toList.count '`' using Nat.strongRecOn generalizing text with
  | ind n ih =>
      by_cases met : ∃ next, CommentReplaced text next
      · obtain ⟨next, replaced⟩ := met
        obtain ⟨text', removed, none⟩ := ih _ (marks ▸ count_commentReplaced replaced) next rfl
        exact ⟨text', .head replaced removed, none⟩
      · exact ⟨text, .refl, fun next replaced => met ⟨next, replaced⟩⟩

/-- A comment that is met may be replaced by a space, and so may comments one after the other until none is met:
the tokens, or the error, are the same. -/
theorem comments_are_blank :
    (∀ text text', CommentReplaced text text' → tokenize text' = tokenize text) ∧
    (∀ text text', Relation.ReflTransGen CommentReplaced text text' → tokenize text' = tokenize text) ∧
    ∀ text, ∃ text', Relation.ReflTransGen CommentReplaced text text' ∧ ∀ next, ¬CommentReplaced text' next := by
  refine ⟨fun _ _ => tokenize_commentReplaced, fun text text' replaced => ?_, exists_without_comments⟩
  induction replaced with
  | refl => rfl
  | tail _ last ih => exact (tokenize_commentReplaced last).trans ih

/-- A comment with a backtick in it behind a zero, and one that is not closed. -/
theorem comments_are_blank_zero :
    let text := "0`a\\`b`x '\\`'`end"
    let next := "0 x '\\`'`end"
    let last := "0 x '\\`' "
    CommentReplaced text next ∧ CommentReplaced next last ∧
      tokenize last = .ok [⟨.number, "0"⟩, ⟨.name, "x"⟩, ⟨.char, "\\`"⟩] ∧ tokenize text = tokenize last := by
  have first : CommentReplaced "0`a\\`b`x '\\`'`end" "0 x '\\`'`end" :=
    ⟨['0'], "a\\`b`x '\\`'`end".toList, .further rfl (.here _), rfl, rfl⟩
  have reaches : Reaches ['0', ' ', 'x', ' ', '\'', '\\', '`', '\''] ('`' :: "end".toList) :=
    .further rfl (.further rfl (.further rfl (.further rfl (.further rfl (.here _)))))
  have second : CommentReplaced "0 x '\\`'`end" "0 x '\\`' " := ⟨_, "end".toList, reaches, rfl, rfl⟩
  have split : tokens "0 x '\\`' ".toList = .ok [⟨.number, "0"⟩, ⟨.name, "x"⟩, ⟨.char, "\\`"⟩] := by
    have chars : "0 x '\\`' ".toList = ['0', ' ', 'x', ' ', '\'', '\\', '`', '\'', ' '] := rfl
    rw [chars]
    exact tokens_step rfl <| (tokens_skip rfl).trans <| tokens_step rfl <| (tokens_skip rfl).trans <|
      tokens_step rfl <| (tokens_skip rfl).trans tokens_nil
  obtain ⟨-, all, -⟩ := comments_are_blank
  exact ⟨first, second, tokenize_eq split rfl, (all _ _ (.tail (.single first) second)).symm⟩

end Token

end Calculator
