import Calculator.Proofs.Number.Decimal
import Calculator.Proofs.Text.Quoted
import Calculator.Proofs.Token.Shape

/-! Texts that are split into known tokens, whatever comes behind them. -/

namespace Calculator

namespace Token

open Text

/-- A text ends here, or it goes on with a space, a comma or a closing bracket. -/
def Stops (rest : List Char) : Prop := ∀ c ∈ rest.head?, c = ' ' ∨ c = ',' ∨ c = ')'

def Splits (text : List Char) (line : List Token) : Prop :=
  ∀ rest, Stops rest → tokens (text ++ rest) = (tokens rest).map (line ++ ·)

def codesOf (ranges : List (Nat × Nat)) : List Nat :=
  ranges.flatMap fun (first, last) => List.range' first (last + 1 - first)

theorem mem_codesOf {code : Nat} {ranges : List (Nat × Nat)} (inside : inRanges code ranges = true) :
    code ∈ codesOf ranges := by
  induction ranges with
  | nil => cases inside
  | cons range rest ih =>
      obtain ⟨first, last⟩ := range
      rw [inRanges] at inside
      split at inside
      · cases inside
      rw [codesOf, List.flatMap_cons, List.mem_append, List.mem_range'_1]
      rcases Bool.or_eq_true_iff.mp inside with here | later
      · have below := of_decide_eq_true here
        left
        omega
      · exact .inr (ih later)

theorem isBlank_letter {c : Char} (letter : isLetter c = true) : isBlank c = false := by
  have noLetters : ∀ code ∈ codesOf blankRanges, inRanges code letterRanges = false := by
    decide +kernel
  rw [Bool.eq_false_iff]
  intro blank
  rw [isLetter, noLetters c.toNat (mem_codesOf blank)] at letter
  cases letter

theorem digit_codes {c : Char} (digit : c.isDigit = true) : c.toNat ∈ codesOf [(0x30, 0x39)] := by
  simp only [Char.isDigit, Bool.and_eq_true, decide_eq_true_eq] at digit
  have low : 0x30 ≤ c.toNat := UInt32.le_iff_toNat_le.mp digit.1
  have high : c.toNat ≤ 0x39 := UInt32.le_iff_toNat_le.mp digit.2
  rw [codesOf, List.flatMap_singleton, List.mem_range'_1]
  omega

theorem isBlank_digit {c : Char} (digit : c.isDigit = true) : isBlank c = false := by
  have noBlanks : ∀ code ∈ codesOf [(0x30, 0x39)], inRanges code blankRanges = false := by decide
  exact noBlanks c.toNat (digit_codes digit)

theorem isLetter_digit {c : Char} (digit : c.isDigit = true) : isLetter c = false := by
  have noLetters : ∀ code ∈ codesOf [(0x30, 0x39)], inRanges code letterRanges = false := by decide
  exact noLetters c.toNat (digit_codes digit)

theorem isDigit_letter {c : Char} (letter : isLetter c = true) : c.isDigit = false := by
  rw [Bool.eq_false_iff]
  intro digit
  rw [isLetter_digit digit] at letter
  cases letter

theorem isOperatorChar_word {c : Char} (word : isWordChar c = true) : isOperatorChar c = false := by
  have none : "%^&*=|<>/;:?_".toList.all (fun d => !isWordChar d) = true := by decide
  rw [Bool.eq_false_iff]
  intro operator
  have noWord := List.all_eq_true.mp none c (List.contains_iff_mem.mp operator)
  rw [word] at noWord
  cases noWord

theorem isNameChar_word {c : Char} (word : isWordChar c = true) :
    isNameChar c = true ∧ (c != '_') = true := by
  have underscore : isWordChar '_' = false := by decide
  constructor
  · rw [isWordChar, Bool.or_eq_true] at word
    rcases word with digit | letter
    · simp [isNameChar, digit]
    · simp [isNameChar, letter]
  · rw [bne_iff_ne]
    rintro rfl
    rw [underscore] at word
    cases word

theorem Stops.nil : Stops [] := nofun

theorem Stops.cons {c : Char} (stop : c = ' ' ∨ c = ',' ∨ c = ')') (rest : List Char) :
    Stops (c :: rest) := by
  rintro _ ⟨⟩
  exact stop

theorem Stops.none {p : Char → Bool} {rest : List Char} (stops : Stops rest)
    (none : p ' ' = false ∧ p ',' = false ∧ p ')' = false) : ∀ c ∈ rest.head?, p c = false := by
  intro c mem
  rcases stops c mem with rfl | rfl | rfl
  · exact none.1
  · exact none.2.1
  · exact none.2.2

theorem scanRun_word {first : Char} {word rest : List Char} (other : first ≠ '_') (isWord : Word word)
    (ends : ∀ c ∈ rest.head?, isNameChar c = false) :
    scanRun .name first isNameChar (word ++ rest) =
      .ok (some ⟨.name, String.ofList (first :: word)⟩, rest) := by
  obtain ⟨taken, dropped⟩ := Number.takeWhile_run (fun c mem => (isNameChar_word (isWord c mem)).1) ends
  have kept : (first :: word).filter (· != '_') = first :: word := by
    rw [filter_cons_ne other, List.filter_eq_self.mpr fun c mem => (isNameChar_word (isWord c mem)).2]
  rw [scanRun, taken, dropped, ofChars, kept]

theorem scan_letter {first : Char} (letter : isLetter first = true) (rest : List Char) :
    scan first rest = scanRun .name first isNameChar rest := by
  have notBlank := isBlank_letter letter
  have notDigit := isDigit_letter letter
  have ne (d : Char) (other : isLetter d = false) : first ≠ d := ne_of_kind letter other
  simp [scan, notBlank, notDigit, letter, ne '_' (by decide), ne '`' (by decide), ne '"' (by decide),
    ne '\'' (by decide), ne '.' (by decide)]

/-- A text is a name wherever no character behind it goes on with it. -/
def SplitsName (text : List Char) : Prop :=
  ∀ rest, (∀ c ∈ rest.head?, isNameChar c = false) →
    tokens (text ++ rest) = (tokens rest).map (⟨.name, String.ofList text⟩ :: ·)

namespace SplitsName

variable {text : List Char}

theorem identifier (identifier : Identifier text) : SplitsName text := by
  intro rest ends
  obtain ⟨word, first, more, rfl, letter⟩ := identifier
  obtain ⟨_, word⟩ := List.forall_mem_cons.mp word
  exact tokens_token ((scan_letter letter _).trans
    (scanRun_word (ne_of_kind letter isLetter_underscore) word ends))

theorem hash (word : Word text) : SplitsName ('#' :: text) :=
  fun _ ends => tokens_token (scanRun_word (by decide) word ends)

theorem atSign (word : Word text) : SplitsName ('@' :: text) :=
  fun _ ends => tokens_token (scanRun_word (by decide) word ends)

theorem dollar : SplitsName ['$'] := by
  intro rest ends
  refine tokens_token ?_
  change scanDollar rest = _
  cases rest with
  | nil => rfl
  | cons c rest =>
      have noName := ends c rfl
      simp only [isNameChar, Bool.or_eq_false_iff, decide_eq_false_iff_not] at noName
      simp [scanDollar, noName]

theorem dollarName (identifier : Identifier text) : SplitsName ('$' :: text) := by
  intro rest ends
  obtain ⟨word, first, more, rfl, letter⟩ := identifier
  have starts : ((first :: more) ++ rest).dropWhile (· = '_') = first :: (more ++ rest) := by
    simp [ne_of_kind letter isLetter_underscore]
  have scanned : scan '$' ((first :: more) ++ rest) =
      scanRun .name '$' isNameChar ((first :: more) ++ rest) := by
    change scanDollar _ = _
    rw [scanDollar, starts]
    exact if_pos letter
  exact tokens_token (scanned.trans (scanRun_word (by decide) word ends))

end SplitsName

theorem literalMark?_none {c : Char} (noLetter : isLetter c = false) : literalMark? c = none := by
  have letters : ∀ d ∈ "xXbBoOrR".toList, c ≠ d := by
    have all : "xXbBoOrR".toList.all isLetter = true := by decide
    exact fun d mem => Ne.symm (ne_of_kind (List.all_eq_true.mp all d mem) noLetter)
  simp only [literalMark?]
  split
  · exact absurd rfl (letters 'x' (by decide))
  · exact absurd rfl (letters 'X' (by decide))
  · exact absurd rfl (letters 'b' (by decide))
  · exact absurd rfl (letters 'B' (by decide))
  · exact absurd rfl (letters 'o' (by decide))
  · exact absurd rfl (letters 'O' (by decide))
  · exact absurd rfl (letters 'r' (by decide))
  · exact absurd rfl (letters 'R' (by decide))
  · rfl

theorem scanNumber_decimal {rest : List Char} (plain : ∀ c ∈ rest.head?, literalMark? c = none)
    (first : Char) : scanNumber first rest = scanDecimal first rest := by
  unfold scanNumber
  split
  · rw [plain _ rfl]
  · rfl

section Digits

variable {digits rest : List Char} (all : ∀ c ∈ digits, (c.isDigit || c = '.') = true)
  (stops : Stops rest)

include stops in
theorem splitDecimal_stops : splitDecimal rest = ([], rest) := by
  rw [splitDecimal.eq_def]
  cases rest with
  | nil => rfl
  | cons c rest =>
      rcases stops c rfl with rfl | rfl | rfl
      · rfl
      · rfl
      · rfl

include all stops in
theorem splitDecimal_digits : splitDecimal (digits ++ rest) = (digits, rest) := by
  induction digits with
  | nil => exact splitDecimal_stops stops
  | cons c digits ih =>
      obtain ⟨here, others⟩ := List.forall_mem_cons.mp all
      have goesOn : (c.isDigit || c = '.' || c = '_') = true := by rw [here, Bool.true_or]
      rw [List.cons_append, splitDecimal.eq_def]
      simp only [if_pos goesOn, ih others]

include all in
theorem isLetter_digits {c : Char} (mem : c ∈ digits) : isLetter c = false := by
  rcases Bool.or_eq_true_iff.mp (all c mem) with digit | point
  · exact isLetter_digit digit
  · rw [of_decide_eq_true point]
    decide

include all stops in
theorem acceptDecimal_digits :
    acceptDecimal ⟨.number, String.ofList digits⟩ rest =
      .ok (some ⟨.number, String.ofList digits⟩, rest) := by
  unfold acceptDecimal
  simp only [String.toList_ofList]
  split
  · have noLetter := @Stops.none isLetter _ stops (by decide) _ rfl
    rw [if_neg (by simp [noLetter])]
  · rename_i c _
    have noLetter : isLetter c = false := isLetter_digits all (.tail _ (.head _))
    have noMark : ¬(c = 'e' ∨ c = 'E') := by
      rintro (rfl | rfl)
      · cases noLetter
      · cases noLetter
    simp [noMark]
  · rfl

end Digits

theorem scan_number {first : Char} (starts : (first.isDigit || first = '.') = true)
    (rest : List Char) : scan first rest = scanNumber first rest := by
  have notBlank : isBlank first = false := by
    rcases Bool.or_eq_true_iff.mp starts with digit | point
    · exact isBlank_digit digit
    · rw [of_decide_eq_true point]
      decide
  have ne (d : Char) (other : (d.isDigit || d = '.') = false) : first ≠ d :=
    @ne_of_kind _ d (fun c => c.isDigit || c = '.') starts other
  simp only [scan, notBlank, ne '_' (by decide), ne '`' (by decide), ne '"' (by decide),
    ne '\'' (by decide), decide_false, Bool.or_self, Bool.false_eq_true, if_false, if_pos starts]

section Pointed

variable {whole fraction : List Char} (wholeDigits : ∀ c ∈ whole, c.isDigit = true)
  (fractionDigits : ∀ c ∈ fraction, c.isDigit = true)
include wholeDigits fractionDigits

theorem pointed_digits : ∀ c ∈ Number.pointed whole fraction, (c.isDigit || c = '.') = true := by
  intro c mem
  rcases List.mem_append.mp mem with early | late
  · rw [wholeDigits c early, Bool.true_or]
  split at late
  · cases late
  rcases List.mem_cons.mp late with rfl | late
  · decide
  · rw [fractionDigits c late, Bool.true_or]

theorem splits_number (nonempty : whole ≠ []) :
    Splits (Number.pointed whole fraction)
      [⟨.number, String.ofList (Number.pointed whole fraction)⟩] := by
  intro rest stops
  have all := pointed_digits wholeDigits fractionDigits
  obtain ⟨first, whole, rfl⟩ := List.exists_cons_of_ne_nil nonempty
  obtain ⟨digit, others⟩ := List.forall_mem_cons.mp wholeDigits
  have behind := pointed_digits others fractionDigits
  have plain : ∀ c ∈ (Number.pointed whole fraction ++ rest).head?, isLetter c = false := by
    cases text : Number.pointed whole fraction with
    | nil => exact stops.none (by decide)
    | cons c more =>
        rintro _ ⟨⟩
        exact isLetter_digits behind (text ▸ List.mem_cons_self)
  have kept : (first :: Number.pointed whole fraction).filter (· != '_') =
      first :: Number.pointed whole fraction := by
    refine List.filter_eq_self.mpr fun c mem => ?_
    rw [bne_iff_ne]
    exact @ne_of_kind _ _ (fun c => c.isDigit || c = '.') (all c mem) (by decide)
  have scanned : scan first (Number.pointed whole fraction ++ rest) =
      .ok (some ⟨.number, String.ofList (first :: Number.pointed whole fraction)⟩, rest) := by
    rw [scan_number (by rw [digit, Bool.true_or]),
      scanNumber_decimal fun c mem => literalMark?_none (plain c mem), scanDecimal, splitDecimal_digits behind stops]
    simp only [ofChars, kept]
    exact acceptDecimal_digits all stops
  exact tokens_token scanned

end Pointed

theorem scan_binary (op : BinaryOp) (rest : List Char) :
    ∃ first more, op.symbol.toList = first :: more ∧
      scan first (more ++ ' ' :: rest) = .ok (some ⟨.operator, op.symbol⟩, ' ' :: rest) := by
  cases op with
  | value op => cases op <;> exact ⟨_, _, rfl, rfl⟩
  | and => exact ⟨_, _, rfl, rfl⟩
  | xor => exact ⟨_, _, rfl, rfl⟩
  | or => exact ⟨_, _, rfl, rfl⟩
  | sequence => exact ⟨_, _, rfl, rfl⟩

theorem scan_unary (op : UnaryOp) {c : Char} (plain : isOperatorChar c = false) (rest : List Char) :
    ∃ first, op.symbol.toList = [first] ∧
      scan first (c :: rest) = .ok (some ⟨.operator, op.symbol⟩, c :: rest) := by
  have alone (first : Char) : scanRun .operator first isOperatorChar (c :: rest) =
      .ok (some (ofChars .operator [first]), c :: rest) := by
    simp [scanRun, plain]
  cases op with
  | not => exact ⟨'!', rfl, alone '!'⟩
  | complement => exact ⟨'~', rfl, alone '~'⟩

theorem map_append (result : Except TokenError (List Token)) (front line : List Token) :
    (result.map (line ++ ·)).map (front ++ ·) = result.map (front ++ line ++ ·) := by
  cases result with
  | error fault => rfl
  | ok rest => exact congrArg Except.ok (List.append_assoc front line rest).symm

namespace Splits

variable {text more : List Char} {line others : List Token}

theorem append (first : Splits text line) (second : Splits more others)
    (stops : ∀ rest, Stops rest → Stops (more ++ rest)) : Splits (text ++ more) (line ++ others) := by
  intro rest ends
  rw [List.append_assoc, first _ (stops rest ends), second rest ends, map_append]

theorem token {first : Char} {t : Token} (scanned : ∀ rest, scan first rest = .ok (some t, rest))
    (splits : Splits text line) : Splits (first :: text) (t :: line) := by
  intro rest ends
  rw [List.cons_append, tokens_token (scanned _), splits rest ends]
  exact map_append _ [t] line

theorem skip {first : Char} (scanned : ∀ rest, scan first rest = .ok (none, rest))
    (splits : Splits text line) : Splits (first :: text) line := by
  intro rest ends
  rw [List.cons_append, tokens_skip (scanned _), splits rest ends]

theorem nil : Splits [] [] := by
  intro rest ends
  cases result : tokens rest with
  | error fault => simp [result, Except.map]
  | ok line => simp [result, Except.map]

theorem tokens_eq (splits : Splits text line) : tokens text = .ok line := by
  have whole := splits [] .nil
  rwa [List.append_nil, tokens_nil, Except.map, List.append_nil] at whole

theorem closing : Splits [')'] [closeRound] := nil.token fun _ => rfl

theorem bracketed (splits : Splits text line) :
    Splits ('(' :: (text ++ [')'])) (inBrackets line) :=
  token (fun _ => rfl) (splits.append closing fun _ _ => .cons (.inr (.inr rfl)) _)

theorem name (name : SplitsName text) : Splits text [⟨.name, String.ofList text⟩] :=
  fun rest ends => name rest (ends.none (by decide))

theorem applied (name : SplitsName text) (inner : Splits more others) :
    Splits (text ++ '(' :: (more ++ [')']))
      (⟨.name, String.ofList text⟩ :: inBrackets others) := by
  intro rest ends
  have opens : ∀ c ∈ ('(' :: (more ++ [')']) ++ rest).head?, isNameChar c = false := by
    rintro _ ⟨⟩
    decide
  rw [List.append_assoc, name _ opens, inner.bracketed rest ends]
  exact map_append _ [_] _

theorem comma (first : Splits text line) (second : Splits more others) :
    Splits (text ++ ',' :: ' ' :: more) (line ++ commaToken :: others) :=
  first.append (token (fun _ => rfl) (skip (fun _ => rfl) second)) fun _ _ =>
    .cons (.inr (.inl rfl)) _

theorem operator {symbol : String} (spaced : ∀ rest, ∃ first more, symbol.toList = first :: more ∧
      scan first (more ++ ' ' :: rest) = .ok (some ⟨.operator, symbol⟩, ' ' :: rest))
    (first : Splits text line) (second : Splits more others) :
    Splits (text ++ ' ' :: (symbol.toList ++ ' ' :: more)) (line ++ ⟨.operator, symbol⟩ :: others) := by
  have behind : Splits (symbol.toList ++ ' ' :: more) (⟨.operator, symbol⟩ :: others) := by
    intro rest ends
    obtain ⟨c, tail, text, scanned⟩ := spaced (more ++ rest)
    have skipped := tokens_skip (rfl : scan ' ' (more ++ rest) = .ok (none, more ++ rest))
    rw [List.append_assoc, text]
    change tokens (c :: (tail ++ ' ' :: (more ++ rest))) = _
    rw [tokens_token scanned, skipped, second rest ends]
    exact map_append _ [_] others
  exact first.append (skip (fun _ => rfl) behind) fun _ _ => .cons (.inl rfl) _

theorem unary (op : UnaryOp) {c : Char} (plain : isOperatorChar c = false)
    (splits : Splits (c :: text) line) :
    Splits (op.symbol.toList ++ c :: text) (⟨.operator, op.symbol⟩ :: line) := by
  intro rest ends
  obtain ⟨first, symbol, scanned⟩ := scan_unary op plain (text ++ rest)
  have behind := splits rest ends
  rw [List.cons_append] at behind
  rw [symbol, List.append_assoc, List.singleton_append, List.cons_append, tokens_token scanned, behind]
  exact map_append _ [_] line

theorem quote {content : List Char} (noComment : '`' ∉ content) :
    Splits ('"' :: (content.flatMap quoteChar ++ ['"']))
      [⟨.quote, String.ofList (content.flatMap quoteChar)⟩] := by
  intro rest _
  have found := splitLiteral?_quote noComment rest
  have scanned : scan '"' (content.flatMap quoteChar ++ ['"'] ++ rest) =
      .ok (some ⟨.quote, String.ofList (content.flatMap quoteChar)⟩, rest) := by
    change scanLiteral .quote '"' .unterminatedQuote _ = _
    rw [List.append_assoc, List.singleton_append, scanLiteral, found]
  exact tokens_token scanned

end Splits

end Token

end Calculator
