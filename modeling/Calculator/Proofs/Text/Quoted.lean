import Calculator.Text.Escape
import Calculator.Text.Quoted
import Calculator.Token.Lexer

/-! Quoted text is read back. -/

namespace Calculator

namespace Text

theorem hexDigit?_lowerHexDigit {d : Nat} (below : d < 16) : hexDigit? (lowerHexDigit d) = some d := by
  revert d
  decide

theorem lowerHexDigit_ne {d : Nat} (below : d < 16) :
    lowerHexDigit d ≠ '+' ∧ lowerHexDigit d ≠ '}' ∧ lowerHexDigit d ≠ '"' ∧ lowerHexDigit d ≠ '\\' ∧
      lowerHexDigit d ≠ '`' := by
  revert d
  decide

theorem hexDigitsValue?_append (digits : List Char) (value : Nat) (c : Char) :
    hexDigitsValue? value (digits ++ [c]) =
      (hexDigitsValue? value digits).bind fun front =>
        (hexDigit? c).map fun digit => front * 16 + digit := by
  induction digits generalizing value with
  | nil =>
      simp only [List.nil_append, hexDigitsValue?, Option.bind_some]
      cases hexDigit? c <;> rfl
  | cons first digits ih =>
      simp only [List.cons_append, hexDigitsValue?]
      cases hexDigit? first with
      | none => rfl
      | some digit => exact ih _

theorem hexDigitsValue?_lowerHex (n : Nat) : hexDigitsValue? 0 (lowerHex n) = some n := by
  fun_induction lowerHex n with
  | case1 n small => simp [hexDigitsValue?, hexDigit?_lowerHexDigit small]
  | case2 n large ih =>
      rw [hexDigitsValue?_append, ih, hexDigit?_lowerHexDigit (Nat.mod_lt n (by decide))]
      simp only [Option.bind_some, Option.map_some]
      rw [Nat.div_add_mod']

theorem mem_lowerHex {n : Nat} {c : Char} (mem : c ∈ lowerHex n) : ∃ d < 16, c = lowerHexDigit d := by
  fun_induction lowerHex n with
  | case1 n small => exact ⟨n, small, List.mem_singleton.mp mem⟩
  | case2 n large ih =>
      rcases List.mem_append.mp mem with front | last
      · exact ih front
      · exact ⟨n % 16, Nat.mod_lt n (by decide), List.mem_singleton.mp last⟩

theorem lowerHex_ne_nil (n : Nat) : lowerHex n ≠ [] := by
  unfold lowerHex
  split
  · exact List.cons_ne_nil _ _
  · simp

theorem hexChar?_lowerHex (c : Char) : hexChar? (lowerHex c.toNat) = some c := by
  have value : hexValue? (lowerHex c.toNat) = some c.toNat := by
    have unsigned : ∀ rest, lowerHex c.toNat ≠ '+' :: rest := by
      intro rest signed
      obtain ⟨d, below, same⟩ := mem_lowerHex (signed ▸ List.mem_cons_self)
      exact (lowerHexDigit_ne below).1 same.symm
    have digits : (lowerHex c.toNat).isEmpty = false :=
      List.isEmpty_eq_false_iff.mpr (lowerHex_ne_nil _)
    unfold hexValue?
    split
    · rename_i signed
      exact absurd signed (unsigned _)
    · simp only [digits, Bool.false_eq_true, if_false]
      exact hexDigitsValue?_lowerHex _
  have code : charOfCode? c.toNat = some c := by
    have valid : c.toNat.isValidChar := c.valid
    rw [charOfCode?, if_pos valid, Char.ofNat_toNat]
  rw [hexChar?, value]
  exact code

theorem unescape?_simple {c : Char} (notHex : c ≠ 'x') (notCode : c ≠ 'u') (rest : List Char) :
    unescape? ('\\' :: c :: rest) = (simpleEscape? c).bind fun c => (unescape? rest).map (c :: ·) := by
  rw [unescape?]
  · exact fun _ _ _ same _ => notHex same
  · exact fun _ same _ => notCode same
  · exact fun _ _ _ _ _ same _ => notCode same

theorem unescape?_plain {c : Char} (plain : c ≠ '\\') (rest : List Char) :
    unescape? (c :: rest) = (unescape? rest).map (c :: ·) := by
  rw [unescape?]
  · exact fun _ _ _ same _ => plain same
  · exact fun _ same _ => plain same
  · exact fun _ _ _ _ _ same _ => plain same
  · exact fun _ _ same _ => plain same
  · exact fun same _ => plain same

theorem unescape?_code {digits : List Char} (digit : ∀ c ∈ digits, (c != '\x7d') = true)
    (rest : List Char) :
    unescape? ('\\' :: 'u' :: '\x7b' :: (digits ++ '\x7d' :: rest)) =
      (hexChar? digits).bind fun c => (unescape? rest).map (c :: ·) := by
  have taken : (digits ++ '\x7d' :: rest).takeWhile (· != '\x7d') = digits := by
    rw [List.takeWhile_append_of_pos digit]
    simp
  have dropped : (digits ++ '\x7d' :: rest).dropWhile (· != '\x7d') = '\x7d' :: rest := by
    rw [List.dropWhile_append_of_pos digit]
    simp
  rw [unescape?]
  split
  · rename_i none
    rw [dropped] at none
    cases none
  · rename_i after split
    rw [dropped] at split
    cases split
    rw [taken]

inductive QuotedAs (c : Char) : List Char → Prop
  | escape {letter : Char} (known : simpleEscape? letter = some c)
      (other : letter ≠ 'x' ∧ letter ≠ 'u' ∧ letter ≠ '\n') : QuotedAs c ['\\', letter]
  | code : QuotedAs c (['\\', 'u', '\x7b'] ++ lowerHex c.toNat ++ ['\x7d'])
  | plain (other : c ≠ '\\' ∧ c ≠ '"') : QuotedAs c [c]

theorem quotedAs_quoteChar (c : Char) : QuotedAs c (quoteChar c) := by
  unfold quoteChar
  split
  · exact .escape rfl (by decide)
  · exact .escape rfl (by decide)
  · exact .escape rfl (by decide)
  · exact .escape rfl (by decide)
  · exact .escape rfl (by decide)
  · exact .escape rfl (by decide)
  · split
    · exact .code
    · exact .plain ⟨‹_›, ‹_›⟩

theorem unescape?_quoted {c : Char} {quoted : List Char} (quotedAs : QuotedAs c quoted)
    (rest : List Char) : unescape? (quoted ++ rest) = (unescape? rest).map (c :: ·) := by
  cases quotedAs with
  | escape known other =>
      obtain ⟨notHex, notCode, _⟩ := other
      exact (unescape?_simple notHex notCode rest).trans (by rw [known]; rfl)
  | code =>
      have digit : ∀ d ∈ lowerHex c.toNat, (d != '\x7d') = true := by
        intro d mem
        obtain ⟨value, below, rfl⟩ := mem_lowerHex mem
        exact bne_iff_ne.mpr (lowerHexDigit_ne below).2.1
      simp only [List.cons_append, List.nil_append, List.append_assoc]
      rw [unescape?_code digit, hexChar?_lowerHex]
      rfl
  | plain other => exact unescape?_plain other.1 rest

theorem unescape?_flatMap (text : List Char) : unescape? (text.flatMap quoteChar) = some text := by
  induction text with
  | nil => rw [List.flatMap_nil, unescape?]
  | cons c text ih => rw [List.flatMap_cons, unescape?_quoted (quotedAs_quoteChar c), ih]; rfl

end Text

namespace Token

open Text

theorem splitLiteral?_escape {c : Char} (sameLine : c ≠ '\n') (close : Char) (rest : List Char) :
    splitLiteral? close ('\\' :: c :: rest) =
      (splitLiteral? close rest).map fun (inside, after) => ('\\' :: c :: inside, after) := by
  rw [splitLiteral?, if_neg sameLine]

theorem splitLiteral?_plain {c close : Char} (plain : c ≠ '\\') (goesOn : c ≠ close)
    (noComment : c ≠ '\x60') (rest : List Char) :
    splitLiteral? close (c :: rest) =
      (splitLiteral? close rest).map fun (inside, after) => (c :: inside, after) := by
  rw [splitLiteral?, if_neg goesOn, if_neg noComment]
  · exact fun same _ => plain same
  · exact fun _ _ same _ => plain same

theorem splitLiteral?_append {close : Char} {front : List Char}
    (plain : ∀ c ∈ front, c ≠ '\\' ∧ c ≠ close ∧ c ≠ '\x60') (rest : List Char) :
    splitLiteral? close (front ++ rest) =
      (splitLiteral? close rest).map fun (inside, after) => (front ++ inside, after) := by
  induction front with
  | nil => simp
  | cons c front ih =>
      obtain ⟨⟨notEscape, goesOn, noComment⟩, plain⟩ := List.forall_mem_cons.mp plain
      rw [List.cons_append, splitLiteral?_plain notEscape goesOn noComment, ih plain, Option.map_map]
      rfl

theorem splitLiteral?_quoted {c : Char} {quoted : List Char} (quotedAs : QuotedAs c quoted)
    (noComment : c ≠ '\x60') (rest : List Char) :
    splitLiteral? '"' (quoted ++ rest) =
      (splitLiteral? '"' rest).map fun (inside, after) => (quoted ++ inside, after) := by
  cases quotedAs with
  | escape known other => exact splitLiteral?_escape other.2.2 '"' rest
  | code =>
      have plain : ∀ d ∈ '\x7b' :: (lowerHex c.toNat ++ ['\x7d']), d ≠ '\\' ∧ d ≠ '"' ∧ d ≠ '\x60' := by
        intro d mem
        simp only [List.mem_cons, List.mem_append, List.not_mem_nil, or_false] at mem
        rcases mem with rfl | digit | rfl
        · decide
        · obtain ⟨value, below, rfl⟩ := mem_lowerHex digit
          obtain ⟨_, _, notQuote, notEscape, noMark⟩ := lowerHexDigit_ne below
          exact ⟨notEscape, notQuote, noMark⟩
        · decide
      have escaped := splitLiteral?_escape (show 'u' ≠ '\n' by decide) '"'
        (('\x7b' :: (lowerHex c.toNat ++ ['\x7d'])) ++ rest)
      rw [splitLiteral?_append plain, Option.map_map] at escaped
      simpa [Function.comp_def] using escaped
  | plain other => exact splitLiteral?_plain other.1 other.2 noComment rest

theorem splitLiteral?_quote {text : List Char} (noComment : '\x60' ∉ text) (rest : List Char) :
    splitLiteral? '"' (text.flatMap quoteChar ++ '"' :: rest) = some (text.flatMap quoteChar, rest) := by
  induction text with
  | nil => simp [splitLiteral?]
  | cons c text ih =>
      obtain ⟨here, noComment⟩ := List.ne_and_not_mem_of_not_mem_cons noComment
      rw [List.flatMap_cons, List.append_assoc,
        splitLiteral?_quoted (quotedAs_quoteChar c) (Ne.symm here), ih noComment]
      rfl

end Token

end Calculator
