import Calculator.Token.Signs

/-! Splitting text into tokens, one after the other. -/

namespace Calculator

namespace Token

variable {first : Char} {rest after : List Char} {t : Token}

theorem tokens_nil : tokens [] = .ok [] := by rw [tokens]

theorem tokens_token (scanned : scan first rest = .ok (some t, after)) :
    tokens (first :: rest) = (tokens after).map (t :: ·) := by
  rw [tokens]
  split
  · simp_all
  · simp_all
  · simp_all

theorem tokens_step {line : List Token} (scanned : scan first rest = .ok (some t, after))
    (more : tokens after = .ok line) : tokens (first :: rest) = .ok (t :: line) := by
  rw [tokens_token scanned, more]
  rfl

theorem tokens_skip (scanned : scan first rest = .ok (none, after)) :
    tokens (first :: rest) = tokens after := by
  rw [tokens]
  split
  · simp_all
  · simp_all
  · simp_all

theorem acceptDecimal_eq {literal : Token} {scanned : Option Token × List Char}
    (accepted : acceptDecimal literal after = .ok scanned) : scanned = (some literal, after) := by
  unfold acceptDecimal at accepted
  split at accepted
  · split at accepted
    · cases accepted
    · exact (Except.ok.inj accepted).symm
  · split at accepted
    · cases accepted
    · exact (Except.ok.inj accepted).symm
  · exact (Except.ok.inj accepted).symm

/-- The token that stands at the front of a text. -/
inductive Lexeme : Char → List Char → Token → Prop
  | quote {rest inside after : List Char} (closed : splitLiteral? '"' rest = some (inside, after)) :
      Lexeme '"' rest ⟨.quote, String.ofList inside⟩
  | char {rest inside after : List Char} (closed : splitLiteral? '\'' rest = some (inside, after)) :
      Lexeme '\'' rest ⟨.char, String.ofList inside⟩
  | marked {mark : Char} {kind : TokenKind} {isDigit : Char → Bool}
      (known : literalMark? mark = some (kind, isDigit)) (rest : List Char) :
      Lexeme '0' (mark :: rest) (ofChars kind (rest.takeWhile fun c => isDigit c || c = '_'))
  | decimal {first : Char} {rest : List Char} (starts : (first.isDigit || first = '.') = true)
      (accepted : acceptDecimal (ofChars .number (first :: (splitDecimal rest).1)) (splitDecimal rest).2 =
        .ok (some (ofChars .number (first :: (splitDecimal rest).1)), (splitDecimal rest).2)) :
      Lexeme first rest (ofChars .number (first :: (splitDecimal rest).1))
  | name {first : Char} (starts : (first = '#' || first = '@' || Text.isLetter first) = true)
      (rest : List Char) : Lexeme first rest (ofChars .name (first :: rest.takeWhile isNameChar))
  | dollarName {rest more : List Char} {c : Char} (starts : rest.dropWhile (· = '_') = c :: more)
      (letter : Text.isLetter c = true) :
      Lexeme '$' rest (ofChars .name ('$' :: rest.takeWhile isNameChar))
  | dollar (rest : List Char) : Lexeme '$' rest ⟨.name, "$"⟩
  | operator {first : Char} (starts : isOperatorStart first = true) (rest : List Char) :
      Lexeme first rest (ofChars .operator (first :: rest.takeWhile isOperatorChar))
  | opening {first : Char} (starts : (first = '(' || first = '[' || first = '{') = true)
      (rest : List Char) : Lexeme first rest ⟨.openParen, first.toString⟩
  | closing {first : Char} (starts : (first = ')' || first = ']' || first = '}') = true)
      (rest : List Char) : Lexeme first rest ⟨.closeParen, first.toString⟩
  | comma (rest : List Char) : Lexeme ',' rest ⟨.comma, ","⟩

namespace Lexeme

theorem of_scanLiteral {kind : TokenKind} {close : Char} {fault : String → TokenError}
    (scanned : scanLiteral kind close fault rest = .ok (some t, after)) :
    ∃ inside, splitLiteral? close rest = some (inside, after) ∧ t = ⟨kind, String.ofList inside⟩ := by
  unfold scanLiteral at scanned
  split at scanned
  · rename_i inside _ closed
    cases scanned
    exact ⟨inside, closed, rfl⟩
  · cases scanned

theorem of_scanDecimal (starts : (first.isDigit || first = '.') = true)
    (scanned : scanDecimal first rest = .ok (some t, after)) : Lexeme first rest t := by
  have accepted : acceptDecimal (ofChars .number (first :: (splitDecimal rest).1))
      (splitDecimal rest).2 = .ok (some t, after) := scanned
  obtain ⟨rfl, rfl⟩ : t = _ ∧ after = _ := by simpa using acceptDecimal_eq accepted
  exact .decimal starts accepted

theorem of_scanNumber (starts : (first.isDigit || first = '.') = true)
    (scanned : scanNumber first rest = .ok (some t, after)) : Lexeme first rest t := by
  unfold scanNumber at scanned
  split at scanned
  · split at scanned
    · rename_i known
      cases scanned
      exact .marked known _
    · exact of_scanDecimal starts scanned
  · exact of_scanDecimal starts scanned

theorem of_scanDollar (scanned : scanDollar rest = .ok (some t, after)) : Lexeme '$' rest t := by
  unfold scanDollar at scanned
  split at scanned
  · rename_i starts
    split at scanned
    · rename_i letter
      cases scanned
      exact .dollarName starts letter
    · cases scanned
      exact .dollar rest
  · cases scanned
    exact .dollar rest

theorem of_scan (scanned : scan first rest = .ok (some t, after)) : Lexeme first rest t := by
  unfold scan at scanned
  split at scanned
  · cases scanned
  split at scanned
  · cases scanned
  split at scanned
  · rename_i mark
    obtain ⟨inside, closed, rfl⟩ := of_scanLiteral scanned
    exact mark ▸ .quote closed
  split at scanned
  · rename_i mark
    obtain ⟨inside, closed, rfl⟩ := of_scanLiteral scanned
    exact mark ▸ .char closed
  split at scanned
  · rename_i starts
    exact of_scanNumber starts scanned
  split at scanned
  · rename_i starts
    cases scanned
    exact .name starts rest
  split at scanned
  · rename_i sigil
    exact sigil ▸ of_scanDollar scanned
  split at scanned
  · rename_i starts
    cases scanned
    exact .operator starts rest
  split at scanned
  · rename_i starts
    cases scanned
    exact .opening starts rest
  split at scanned
  · rename_i starts
    cases scanned
    exact .closing starts rest
  split at scanned
  · rename_i here
    cases scanned
    exact here ▸ .comma rest
  · cases scanned

end Lexeme

theorem tokens_lexeme {text : List Char} {line : List Token} (split : tokens text = .ok line) :
    ∀ t ∈ line, ∃ first rest, Lexeme first rest t := by
  fun_induction tokens text generalizing line with
  | case1 =>
      cases split
      exact List.forall_mem_nil _
  | case2 first rest fault scanned => cases split
  | case3 first rest after scanned ih => exact ih split
  | case4 first rest t after scanned ih =>
      cases splitMore : tokens after with
      | error fault =>
          rw [splitMore] at split
          cases split
      | ok more =>
          rw [splitMore] at split
          cases split
          exact List.forall_mem_cons.mpr ⟨⟨first, rest, .of_scan scanned⟩, ih splitMore⟩

section Line

variable {text : String} {line raw : List Token}

theorem tokenize_eq (split : tokens text.toList = .ok raw) (checked : checkSigns raw = .ok ()) :
    tokenize text = .ok (groupNegativeExponents raw) := by
  rw [tokenize, split]
  change (checkSigns raw >>= _) = _
  rw [checked]
  rfl

theorem of_tokenize (tokenized : tokenize text = .ok line) :
    ∃ raw, tokens text.toList = .ok raw ∧ checkSigns raw = .ok () ∧
      line = groupNegativeExponents raw := by
  rw [tokenize] at tokenized
  cases split : tokens text.toList with
  | error fault =>
      rw [split] at tokenized
      cases tokenized
  | ok raw =>
      rw [split] at tokenized
      change (checkSigns raw >>= _) = _ at tokenized
      cases checked : checkSigns raw with
      | error fault =>
          rw [checked] at tokenized
          cases tokenized
      | ok =>
          rw [checked] at tokenized
          cases tokenized
          exact ⟨raw, rfl, checked, rfl⟩

end Line

end Token

end Calculator
