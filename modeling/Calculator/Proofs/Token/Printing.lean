import Calculator.Proofs.Token.Signs
import Calculator.Proofs.Token.Splitting

/-!
Tokens written out and read again.

Main statement: the tokens of a line, written with a space between every two, are the tokens of what
is written.
-/

namespace Calculator

namespace Token

open Text

/-- The token as it may stand in a text, with its mark or between its delimiters. -/
def spelling (t : Token) : String :=
  match t.kind with
  | .hex => "0x" ++ t.text
  | .binary => "0b" ++ t.text
  | .octal => "0o" ++ t.text
  | .roman => "0r" ++ t.text
  | .quote => "\"" ++ t.text ++ "\""
  | .char => "'" ++ t.text ++ "'"
  | _ => t.text

def written (line : List Token) : String := " ".intercalate (line.map spelling)

theorem Splits.of_scan {first : Char} {text : List Char} {t : Token}
    (scanned : ∀ rest, Stops rest → scan first (text ++ rest) = .ok (some t, rest)) :
    Splits (first :: text) [t] :=
  fun rest stops => tokens_token (scanned rest stops)

theorem splitLiteral?_again {close : Char} (notEscape : close ≠ '\\') {text inside after : List Char}
    (closed : splitLiteral? close text = some (inside, after)) (rest : List Char) :
    splitLiteral? close (inside ++ close :: rest) = some (inside, rest) := by
  fun_induction splitLiteral? close text generalizing inside after with
  | case1 => cases closed
  | case2 => cases closed
  | case3 => cases closed
  | case4 c text sameLine ih =>
      obtain ⟨⟨inner, after⟩, found, same⟩ := Option.map_eq_some_iff.mp closed
      cases same
      rw [List.cons_append, List.cons_append, splitLiteral?_escape sameLine, ih found]
      rfl
  | case5 text notLast notEscaped =>
      cases closed
      rw [List.nil_append, splitLiteral?, if_pos rfl]
      · exact fun same => absurd same notEscape
      · exact fun _ _ same => absurd same notEscape
  | case6 => cases closed
  | case7 c text notLast notEscaped goesOn noComment ih =>
      obtain ⟨⟨inner, after⟩, found, same⟩ := Option.map_eq_some_iff.mp closed
      cases same
      have plain : c ≠ '\\' := by
        rintro rfl
        cases text with
        | nil => exact notLast rfl rfl
        | cons d text => exact notEscaped d text rfl rfl
      rw [List.cons_append, splitLiteral?_plain plain goesOn noComment, ih found]
      rfl

theorem scanLiteral_again {kind : TokenKind} {close : Char} {fault : String → TokenError}
    (notEscape : close ≠ '\\') {text inside after : List Char}
    (closed : splitLiteral? close text = some (inside, after)) (rest : List Char) :
    scanLiteral kind close fault ((inside ++ [close]) ++ rest) =
      .ok (some ⟨kind, String.ofList inside⟩, rest) := by
  rw [scanLiteral, List.append_assoc, List.singleton_append, splitLiteral?_again notEscape closed]

theorem takeWhile_again {goesOn : Char → Bool} {rest : List Char} (ends : ∀ c ∈ rest.head?, goesOn c = false)
    (text : List Char) :
    let run := (text.takeWhile goesOn).filter (· != '_')
    (run ++ rest).takeWhile goesOn = run ∧ (run ++ rest).dropWhile goesOn = rest := by
  refine Number.takeWhile_run (fun c mem => ?_) ends
  exact List.all_eq_true.mp List.all_takeWhile c (List.mem_filter.mp mem).1

theorem filter_again (text : List Char) :
    (text.filter (· != '_')).filter (· != '_') = text.filter (· != '_') := by
  rw [List.filter_filter]
  simp only [Bool.and_self]

theorem scanRun_again {kind : TokenKind} {first : Char} {goesOn : Char → Bool} {rest : List Char}
    (other : first ≠ '_') (ends : ∀ c ∈ rest.head?, goesOn c = false) (text : List Char) :
    scanRun kind first goesOn ((text.takeWhile goesOn).filter (· != '_') ++ rest) =
      .ok (some (ofChars kind (first :: text.takeWhile goesOn)), rest) := by
  obtain ⟨taken, dropped⟩ := takeWhile_again ends text
  rw [scanRun, taken, dropped, ofChars, ofChars, filter_cons_ne other, filter_cons_ne other, filter_again]

def beginsOther (c : Char) : Bool :=
  isBlank c || c = '_' || c = '`' || c = '"' || c = '\'' || (c.isDigit || c = '.') ||
    (c = '#' || c = '@' || isLetter c) || c = '$'

theorem scan_operator {first : Char} (starts : isOperatorStart first = true) (rest : List Char) :
    scan first rest = scanRun .operator first isOperatorChar rest := by
  have none : "~!%^&*-+=|<>/;:?".toList.all (fun c => !beginsOther c) = true := by decide
  have no := List.all_eq_true.mp none first (List.contains_iff_mem.mp starts)
  simp only [beginsOther, Bool.not_eq_true', Bool.or_eq_false_iff, decide_eq_false_iff_not] at no
  simp [scan, no, starts]

/-- What a decimal literal goes on with: digits and points, and exponent marks each with a sign or
without. -/
inductive DecimalTail : List Char → Prop
  | nil : DecimalTail []
  | digit {c : Char} {text : List Char} (digit : (c.isDigit || c = '.') = true)
      (tail : DecimalTail text) : DecimalTail (c :: text)
  | mark {c : Char} {text : List Char} (mark : (c = 'e' || c = 'E') = true)
      (tail : DecimalTail text) : DecimalTail (c :: text)
  | signed {c sign : Char} {text : List Char} (mark : (c = 'e' || c = 'E') = true)
      (signed : (sign = '+' || sign = '-') = true) (tail : DecimalTail text) :
      DecimalTail (c :: sign :: text)

theorem ne_underscore_of_mark {c : Char} (mark : (c = 'e' || c = 'E') = true) : c ≠ '_' :=
  @ne_of_kind _ _ (fun c => c = 'e' || c = 'E') mark (by decide)

theorem decimalTail_splitDecimal (text : List Char) :
    DecimalTail ((splitDecimal text).1.filter (· != '_')) := by
  fun_induction splitDecimal text with
  | case1 => exact .nil
  | case2 c rest goesOn tail after split ih =>
      rw [split] at ih
      by_cases underscore : c = '_'
      · subst underscore
        exact ih
      · rw [filter_cons_ne underscore]
        exact .digit (by simpa [underscore] using goesOn) ih
  | case3 c _ mark =>
      rw [filter_cons_ne (ne_underscore_of_mark mark)]
      exact .mark mark .nil
  | case4 c _ mark sign more signed tail after split ih =>
      have other : sign ≠ '_' := @ne_of_kind _ _ (fun c => c = '+' || c = '-') signed (by decide)
      rw [split] at ih
      rw [filter_cons_ne (ne_underscore_of_mark mark), filter_cons_ne other]
      exact .signed mark signed ih
  | case5 c _ mark sign more unsigned tail after split ih =>
      rw [split] at ih
      rw [filter_cons_ne (ne_underscore_of_mark mark)]
      exact .mark mark ih
  | case6 => exact .nil

namespace DecimalTail

variable {text rest : List Char}

def isFront (c : Char) : Bool := c.isDigit || ".eE ,)".toList.contains c

theorem isFront_head (tail : DecimalTail text) (stops : Stops rest) :
    ∀ c ∈ (text ++ rest).head?, isFront c = true := by
  have marked {c : Char} (mark : (c = 'e' || c = 'E') = true) : isFront c = true := by
    simp only [Bool.or_eq_true, decide_eq_true_eq] at mark
    rcases mark with rfl | rfl <;> decide
  intro c mem
  cases tail with
  | nil => rcases stops c mem with rfl | rfl | rfl <;> decide
  | digit digit tail =>
      cases mem
      rcases Bool.or_eq_true_iff.mp digit with isDigit | point
      · rw [isFront, isDigit, Bool.true_or]
      · rw [of_decide_eq_true point]
        decide
  | mark mark tail =>
      cases mem
      exact marked mark
  | signed mark signed tail =>
      cases mem
      exact marked mark

theorem unmarked (tail : DecimalTail text) (stops : Stops rest) :
    ∀ c ∈ (text ++ rest).head?, literalMark? c = none := by
  intro c mem
  rcases Bool.or_eq_true_iff.mp (tail.isFront_head stops c mem) with digit | other
  · exact literalMark?_none (isLetter_digit digit)
  · have all : ∀ d ∈ ".eE ,)".toList, literalMark? d = none := by
      simp [literalMark?]
    exact all c (List.contains_iff_mem.mp other)

theorem splitDecimal (tail : DecimalTail text) (stops : Stops rest) :
    splitDecimal (text ++ rest) = (text, rest) := by
  have plain {c : Char} (mark : (c = 'e' || c = 'E') = true) : (c.isDigit || c = '.' || c = '_') = false := by
    simp only [Bool.or_eq_true, decide_eq_true_eq] at mark
    rcases mark with rfl | rfl <;> decide
  induction tail with
  | nil => exact splitDecimal_stops stops
  | digit digit tail ih =>
      rw [List.cons_append, splitDecimal.eq_def]
      simp only [digit, Bool.true_or, if_true, ih]
  | @mark c text mark tail ih =>
      have front := tail.isFront_head stops
      rw [List.cons_append, splitDecimal.eq_def]
      simp only [plain mark, Bool.false_eq_true, if_false, if_pos mark]
      cases behind : text ++ rest with
      | nil =>
          obtain ⟨rfl, rfl⟩ := List.append_eq_nil_iff.mp behind
          rfl
      | cons next more =>
          rw [behind] at ih front
          have unsigned : ¬(next = '+' || next = '-') = true := by
            have plus : next ≠ '+' := ne_of_kind (front next rfl) (by decide)
            have minus : next ≠ '-' := ne_of_kind (front next rfl) (by decide)
            simp [plus, minus]
          simp only [if_neg unsigned, ih]
  | signed mark signed tail ih =>
      rw [List.cons_append, List.cons_append, splitDecimal.eq_def]
      simp only [plain mark, Bool.false_eq_true, if_false, if_pos mark, if_pos signed, ih]

end DecimalTail

theorem acceptDecimal_again {literal : Token} {after rest : List Char}
    (accepted : acceptDecimal literal after = .ok (some literal, after)) (stops : Stops rest) :
    acceptDecimal literal rest = .ok (some literal, rest) := by
  unfold acceptDecimal
  split
  · have noLetter := @Stops.none isLetter _ stops (by decide) _ rfl
    rw [if_neg (by rw [noLetter]; decide)]
  · rename_i letter _ text
    refine if_neg fun mark => ?_
    simp only [acceptDecimal, text, if_pos mark] at accepted
    cases accepted
  · rfl

theorem splits_decimal {first : Char} {text : List Char} (starts : (first.isDigit || first = '.') = true)
    (accepted : acceptDecimal (ofChars .number (first :: (splitDecimal text).1)) (splitDecimal text).2 =
      .ok (some (ofChars .number (first :: (splitDecimal text).1)), (splitDecimal text).2)) :
    Splits (first :: (splitDecimal text).1.filter (· != '_'))
      [ofChars .number (first :: (splitDecimal text).1)] := by
  have other : first ≠ '_' := @ne_of_kind _ _ (fun c => c.isDigit || c = '.') starts (by decide)
  have tail := decimalTail_splitDecimal text
  refine .of_scan fun rest stops => ?_
  have kept : ofChars .number (first :: (splitDecimal text).1.filter (· != '_')) =
      ofChars .number (first :: (splitDecimal text).1) := by
    rw [ofChars, ofChars, filter_cons_ne other, filter_cons_ne other, filter_again]
  rw [scan_number starts, scanNumber_decimal (tail.unmarked stops), scanDecimal, tail.splitDecimal stops]
  simp only [kept]
  exact acceptDecimal_again accepted stops

theorem literalMark?_small {mark : Char} {kind : TokenKind} {isDigit : Char → Bool}
    (known : literalMark? mark = some (kind, isDigit)) :
    ∃ small, literalMark? small = some (kind, isDigit) ∧
      (∀ text, (spelling ⟨kind, text⟩).toList = '0' :: small :: text.toList) ∧
      isDigit ' ' = false ∧ isDigit ',' = false ∧ isDigit ')' = false := by
  unfold literalMark? at known
  split at known
  · cases known
    exact ⟨'x', rfl, fun text => by simp [spelling], by decide⟩
  · cases known
    exact ⟨'x', rfl, fun text => by simp [spelling], by decide⟩
  · cases known
    exact ⟨'b', rfl, fun text => by simp [spelling], by decide⟩
  · cases known
    exact ⟨'b', rfl, fun text => by simp [spelling], by decide⟩
  · cases known
    exact ⟨'o', rfl, fun text => by simp [spelling], by decide⟩
  · cases known
    exact ⟨'o', rfl, fun text => by simp [spelling], by decide⟩
  · cases known
    exact ⟨'r', rfl, fun text => by simp [spelling], by decide⟩
  · cases known
    exact ⟨'r', rfl, fun text => by simp [spelling], by decide⟩
  · cases known

theorem splits_marked {mark : Char} {kind : TokenKind} {isDigit : Char → Bool}
    (known : literalMark? mark = some (kind, isDigit)) (text : List Char) :
    let literal := ofChars kind (text.takeWhile fun c => isDigit c || c = '_')
    Splits literal.spelling.toList [literal] := by
  intro literal
  obtain ⟨small, marked, spelled, ends⟩ := literalMark?_small known
  have digits : literal.text.toList = (text.takeWhile fun c => isDigit c || c = '_').filter (· != '_') :=
    String.toList_ofList
  have spelledOut : literal.spelling.toList = '0' :: small :: literal.text.toList := spelled literal.text
  rw [spelledOut, digits]
  refine .of_scan fun rest stops => ?_
  obtain ⟨taken, dropped⟩ := @takeWhile_again (fun c => isDigit c || c = '_') rest
    (stops.none (by simp [ends])) text
  rw [scan_number (by decide), List.cons_append, scanNumber]
  simp only [marked, taken, dropped, ofChars, filter_again, literal]

theorem NameText.splits {text : List Char} (name : NameText text) :
    Splits text [⟨.name, String.ofList text⟩] := by
  cases name with
  | bare identifier => exact .name (.identifier identifier)
  | dollar => exact .name .dollar
  | dollarName identifier => exact .name (.dollarName identifier)
  | hash word => exact .name (.hash word)
  | atSign word => exact .name (.atSign word)

theorem splits_name {t : Token} (shaped : t.Shaped) (kind : t.kind = .name) :
    Splits t.spelling.toList [t] := by
  obtain ⟨_, text⟩ := t
  subst kind
  have splits := (shaped.name rfl).splits
  rwa [String.ofList_toList] at splits

theorem Lexeme.splits {first : Char} {text : List Char} {t : Token} (lexeme : Lexeme first text t) :
    Splits t.spelling.toList [t] := by
  have shaped := lexeme.shaped
  cases lexeme with
  | quote closed =>
      have spelled (inside : List Char) : (spelling ⟨.quote, String.ofList inside⟩).toList =
          '"' :: (inside ++ ['"']) := by simp [spelling]
      rw [spelled]
      exact .of_scan fun rest _ => scanLiteral_again (by decide) closed rest
  | char closed =>
      have spelled (inside : List Char) : (spelling ⟨.char, String.ofList inside⟩).toList =
          '\'' :: (inside ++ ['\'']) := by simp [spelling]
      rw [spelled]
      exact .of_scan fun rest _ => scanLiteral_again (by decide) closed rest
  | marked known rest => exact splits_marked known rest
  | decimal starts accepted =>
      have other : first ≠ '_' := @ne_of_kind _ _ (fun c => c.isDigit || c = '.') starts (by decide)
      have splits := splits_decimal starts accepted
      rwa [← filter_cons_ne other, ← ofChars_toList .number] at splits
  | name starts rest => exact splits_name shaped rfl
  | dollarName starts letter => exact splits_name shaped rfl
  | dollar rest => exact splits_name shaped rfl
  | operator starts rest =>
      have other : first ≠ '_' := ne_of_kind starts (by decide)
      have spelled : (ofChars .operator (first :: text.takeWhile isOperatorChar)).spelling.toList =
          first :: (text.takeWhile isOperatorChar).filter (· != '_') :=
        (ofChars_toList _ _).trans (filter_cons_ne other _)
      rw [spelled]
      exact .of_scan fun rest stops =>
        (scan_operator starts _).trans (scanRun_again other (stops.none (by decide)) text)
  | opening starts rest =>
      simp only [Bool.or_eq_true, decide_eq_true_eq, or_assoc] at starts
      rcases starts with rfl | rfl | rfl <;> exact .of_scan fun _ _ => rfl
  | closing starts rest =>
      simp only [Bool.or_eq_true, decide_eq_true_eq, or_assoc] at starts
      rcases starts with rfl | rfl | rfl <;> exact .of_scan fun _ _ => rfl
  | comma rest => exact .of_scan fun _ _ => rfl

theorem splits_written {line : List Token} (all : ∀ t ∈ line, Splits t.spelling.toList [t]) :
    Splits (written line).toList line := by
  rw [written, String.toList_intercalate, List.map_map]
  induction line with
  | nil => exact .nil
  | cons t line ih =>
      obtain ⟨here, others⟩ := List.forall_mem_cons.mp all
      cases line with
      | nil =>
        rw [List.map_singleton, List.intercalate_singleton]
        exact here
      | cons next line =>
        rw [List.map_cons, List.map_cons, List.intercalate_cons_cons, List.append_assoc]
        exact here.append (.skip (fun _ => rfl) (ih others)) fun _ _ => .cons (.inl rfl) _

theorem tokenize_splits {text : String} {line : List Token} (tokenized : tokenize text = .ok line) :
    ∀ t ∈ line, Splits t.spelling.toList [t] := by
  obtain ⟨raw, split, _, rfl⟩ := of_tokenize tokenized
  refine groupNegativeExponents_all (.of_scan fun _ _ => rfl) .closing fun t mem => ?_
  obtain ⟨first, rest, lexeme⟩ := tokens_lexeme split t mem
  exact lexeme.splits

/-- The tokens of a line are the tokens of what they are written as. -/
theorem tokenize_written {text : String} {line : List Token} (tokenized : tokenize text = .ok line) :
    tokenize (written line) = .ok line := by
  have split := (splits_written (tokenize_splits tokenized)).tokens_eq
  obtain ⟨raw, _, checked, rfl⟩ := of_tokenize tokenized
  have again := tokenize_eq split (checkSignsFrom_grouped checked (Nat.le_refl 0))
  rwa [groupNegativeExponents_again] at again

theorem tokenize_written_power :
    let line : List Token := [⟨.number, "10"⟩, ⟨.operator, "**"⟩, openRound, ⟨.operator, "-"⟩, ⟨.hex, "F"⟩,
      closeRound, ⟨.quote, "a b"⟩]
    tokenize "1_0 `ten`**-0X_F\"a b\"" = .ok line ∧ written line = "10 ** ( - 0xF ) \"a b\"" ∧
      tokenize (written line) = .ok line := by
  intro line
  have text : "1_0 `ten`**-0X_F\"a b\"".toList = ['1', '_', '0', ' ', '`', 't', 'e', 'n', '`', '*', '*',
      '-', '0', 'X', '_', 'F', '"', 'a', ' ', 'b', '"'] := rfl
  have split : tokens "1_0 `ten`**-0X_F\"a b\"".toList = .ok [⟨.number, "10"⟩, ⟨.operator, "**"⟩,
      ⟨.operator, "-"⟩, ⟨.hex, "F"⟩, ⟨.quote, "a b"⟩] := by
    rw [text]
    exact tokens_step rfl <| (tokens_skip rfl).trans <| (tokens_skip rfl).trans <| tokens_step rfl <|
      tokens_step rfl <| tokens_step rfl <| tokens_step rfl tokens_nil
  have tokenized : tokenize "1_0 `ten`**-0X_F\"a b\"" = .ok line := tokenize_eq split rfl
  exact ⟨tokenized, rfl, tokenize_written tokenized⟩

end Token

end Calculator
