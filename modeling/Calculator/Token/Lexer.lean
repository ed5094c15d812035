import Calculator.Error
import Calculator.Text.Blank
import Calculator.Text.Letter

/-!
Splitting text into tokens.

At each place the longest possible token is taken. White space, lone underscores and comments
between backticks separate tokens and leave nothing. Underscores inside numbers, names and operators
are dropped.

Main statement: `scan` leaves no more text than it was given, so `tokens` ends.
-/

namespace Calculator

namespace Token

open Text

/-- The text after a comment whose opening backtick has been read. The comment runs to the next
backtick that no backslash precedes, or to the end; a backslash that escapes nothing ends it too. -/
def afterComment : List Char → List Char
  | [] => []
  | '`' :: rest => rest
  | ['\\'] => ['\\']
  | '\\' :: c :: rest => if c = '\n' then '\\' :: c :: rest else afterComment rest
  | _ :: rest => afterComment rest

/-- Splits at the closing mark of a literal. Backslashes escape the next character on the line; a
backtick may stand only behind one. -/
def splitLiteral? (close : Char) : List Char → Option (List Char × List Char)
  | [] => none
  | ['\\'] => none
  | '\\' :: c :: rest =>
    if c = '\n' then none
    else (splitLiteral? close rest).map fun (inside, after) => ('\\' :: c :: inside, after)
  | c :: rest =>
    if c = close then some ([], rest)
    else if c = '`' then none
    else (splitLiteral? close rest).map fun (inside, after) => (c :: inside, after)

def splitDecimal : List Char → List Char × List Char
  | [] => ([], [])
  | c :: rest =>
    if c.isDigit || c = '.' || c = '_' then
      let (tail, after) := splitDecimal rest
      (c :: tail, after)
    else if c = 'e' || c = 'E' then
      match rest with
      | [] => ([c], [])
      | sign :: more =>
        if sign = '+' || sign = '-' then
          let (tail, after) := splitDecimal more
          (c :: sign :: tail, after)
        else
          let (tail, after) := splitDecimal (sign :: more)
          (c :: tail, after)
    else ([], c :: rest)

def isNameChar (c : Char) : Bool := c.isDigit || c = '_' || isLetter c

def isOperatorStart (c : Char) : Bool := "~!%^&*-+=|<>/;:?".toList.contains c

/-- The characters an operator may go on with; those that can be unary only ever start one. -/
def isOperatorChar (c : Char) : Bool := "%^&*=|<>/;:?_".toList.contains c

def isHexDigit (c : Char) : Bool :=
  c.isDigit || ('a' ≤ c && c ≤ 'f') || ('A' ≤ c && c ≤ 'F')

def isRomanChar (c : Char) : Bool := "IVXLCDMivxlcdm\u0305".toList.contains c

def literalMark? (c : Char) : Option (TokenKind × (Char → Bool)) :=
  match c with
  | 'x' | 'X' => some (.hex, isHexDigit)
  | 'b' | 'B' => some (.binary, fun d => d = '0' || d = '1')
  | 'o' | 'O' => some (.octal, fun d => '0' ≤ d && d ≤ '7')
  | 'r' | 'R' => some (.roman, isRomanChar)
  | _ => none

def ofChars (kind : TokenKind) (text : List Char) : Token :=
  ⟨kind, String.ofList (text.filter (· != '_'))⟩

/-- The token at the front of a text, or `none` where something is skipped, and the text after it. -/
abbrev Scanned := Except TokenError (Option Token × List Char)

def scanRun (kind : TokenKind) (first : Char) (goesOn : Char → Bool) (rest : List Char) : Scanned :=
  .ok (some (ofChars kind (first :: rest.takeWhile goesOn)), rest.dropWhile goesOn)

/-- Accepts a decimal literal unless it is a zero directly followed by a letter. -/
def acceptDecimal (literal : Token) (after : List Char) : Scanned :=
  match literal.text.toList, after with
  | ['0'], letter :: _ =>
    if isLetter letter then .error (.unknownMark letter) else .ok (some literal, after)
  | '0' :: letter :: _, _ =>
    if letter = 'e' || letter = 'E' then .error (.unknownMark letter)
    else .ok (some literal, after)
  | _, _ => .ok (some literal, after)

def scanDecimal (first : Char) (rest : List Char) : Scanned :=
  let (tail, after) := splitDecimal rest
  acceptDecimal (ofChars .number (first :: tail)) after

def scanNumber (first : Char) (rest : List Char) : Scanned :=
  match first, rest with
  | '0', mark :: more =>
    match literalMark? mark with
    | some (kind, isDigit) =>
      .ok (some (ofChars kind (more.takeWhile fun c => isDigit c || c = '_')),
        more.dropWhile fun c => isDigit c || c = '_')
    | none => scanDecimal '0' (mark :: more)
  | _, _ => scanDecimal first rest

def scanLiteral (kind : TokenKind) (close : Char) (unterminated : String → TokenError)
    (rest : List Char) : Scanned :=
  match splitLiteral? close rest with
  | some (inside, after) => .ok (some ⟨kind, String.ofList inside⟩, after)
  | none => .error (unterminated (String.ofList rest))

/-- A dollar sign belongs to a name only if a letter follows, underscores aside. -/
def scanDollar (rest : List Char) : Scanned :=
  match rest.dropWhile (· = '_') with
  | c :: _ =>
    if isLetter c then scanRun .name '$' isNameChar rest else .ok (some ⟨.name, "$"⟩, rest)
  | [] => .ok (some ⟨.name, "$"⟩, rest)

def scan (first : Char) (rest : List Char) : Scanned :=
  if isBlank first || first = '_' then .ok (none, rest)
  else if first = '`' then .ok (none, afterComment rest)
  else if first = '"' then scanLiteral .quote '"' .unterminatedQuote rest
  else if first = '\'' then scanLiteral .char '\'' .unterminatedChar rest
  else if first.isDigit || first = '.' then scanNumber first rest
  else if first = '#' || first = '@' || isLetter first then scanRun .name first isNameChar rest
  else if first = '$' then scanDollar rest
  else if isOperatorStart first then scanRun .operator first isOperatorChar rest
  else if first = '(' || first = '[' || first = '{' then
    .ok (some ⟨.openParen, first.toString⟩, rest)
  else if first = ')' || first = ']' || first = '}' then
    .ok (some ⟨.closeParen, first.toString⟩, rest)
  else if first = ',' then .ok (some ⟨.comma, ","⟩, rest)
  else .error (.unexpectedCharacter first)

theorem length_dropWhile_le {α : Type} (p : α → Bool) (l : List α) :
    (l.dropWhile p).length ≤ l.length :=
  (List.dropWhile_sublist p).length_le

theorem length_afterComment_le (text : List Char) : (afterComment text).length ≤ text.length := by
  fun_induction afterComment text with
  | case1 => exact Nat.le_refl _
  | case2 => exact Nat.le_succ _
  | case3 => exact Nat.le_refl _
  | case4 => exact Nat.le_refl _
  | case5 _ rest _ ih => exact Nat.le_trans ih (Nat.le_add_right _ 2)
  | case6 _ rest _ _ _ ih => exact Nat.le_succ_of_le ih

theorem length_splitLiteral_le {close : Char} {text inside after : List Char}
    (h : splitLiteral? close text = some (inside, after)) : after.length ≤ text.length := by
  fun_induction splitLiteral? close text generalizing inside after with
  | case1 => cases h
  | case2 => cases h
  | case3 => cases h
  | case4 c rest _ ih =>
    obtain ⟨⟨i, a⟩, found, eq⟩ := Option.map_eq_some_iff.1 h
    cases eq
    exact Nat.le_trans (ih found) (Nat.le_add_right _ 2)
  | case5 =>
    cases h
    exact Nat.le_succ _
  | case6 => cases h
  | case7 c rest _ _ _ _ ih =>
    obtain ⟨⟨i, a⟩, found, eq⟩ := Option.map_eq_some_iff.1 h
    cases eq
    exact Nat.le_succ_of_le (ih found)

theorem length_splitDecimal_le (text : List Char) :
    (splitDecimal text).2.length ≤ text.length := by
  fun_induction splitDecimal text <;> simp only [List.length_cons] at * <;> grind

/-- Whatever is read, no more text is left than `rest`. -/
def LeavesAtMost (rest : List Char) (scanned : Scanned) : Prop :=
  ∀ token after, scanned = .ok (token, after) → after.length ≤ rest.length

theorem LeavesAtMost.error {rest : List Char} {e : TokenError} :
    LeavesAtMost rest (.error e) := by
  intro token after h
  cases h

theorem LeavesAtMost.ok {rest kept : List Char} {token : Option Token}
    (le : kept.length ≤ rest.length) : LeavesAtMost rest (.ok (token, kept)) := by
  intro token' after h
  cases h
  exact le

theorem LeavesAtMost.ite {rest : List Char} {c : Prop} [Decidable c] {a b : Scanned}
    (ha : LeavesAtMost rest a) (hb : LeavesAtMost rest b) :
    LeavesAtMost rest (if c then a else b) := by
  by_cases h : c
  · rwa [if_pos h]
  · rwa [if_neg h]

theorem scanRun_leaves {kind : TokenKind} {first : Char} {goesOn : Char → Bool}
    {rest : List Char} : LeavesAtMost rest (scanRun kind first goesOn rest) :=
  .ok (length_dropWhile_le _ _)

theorem acceptDecimal_leaves {literal : Token} {rest after : List Char}
    (le : after.length ≤ rest.length) : LeavesAtMost rest (acceptDecimal literal after) := by
  unfold acceptDecimal
  split
  · exact .ite .error (.ok le)
  · exact .ite .error (.ok le)
  · exact .ok le

theorem scanDecimal_leaves {first : Char} {rest : List Char} :
    LeavesAtMost rest (scanDecimal first rest) :=
  acceptDecimal_leaves (length_splitDecimal_le rest)

theorem scanNumber_leaves {first : Char} {rest : List Char} :
    LeavesAtMost rest (scanNumber first rest) := by
  unfold scanNumber
  split
  · split
    · exact .ok (Nat.le_succ_of_le (length_dropWhile_le _ _))
    · exact scanDecimal_leaves
  · exact scanDecimal_leaves

theorem scanLiteral_leaves {kind : TokenKind} {close : Char} {fault : String → TokenError}
    {rest : List Char} : LeavesAtMost rest (scanLiteral kind close fault rest) := by
  unfold scanLiteral
  split
  · exact .ok (length_splitLiteral_le (by assumption))
  · exact .error

theorem scanDollar_leaves {rest : List Char} : LeavesAtMost rest (scanDollar rest) := by
  unfold scanDollar
  split
  · exact .ite scanRun_leaves (.ok (Nat.le_refl _))
  · exact .ok (Nat.le_refl _)

theorem scan_leaves (first : Char) (rest : List Char) : LeavesAtMost rest (scan first rest) :=
  .ite (.ok (Nat.le_refl _)) <|
  .ite (.ok (length_afterComment_le _)) <|
  .ite scanLiteral_leaves <|
  .ite scanLiteral_leaves <|
  .ite scanNumber_leaves <|
  .ite scanRun_leaves <|
  .ite scanDollar_leaves <|
  .ite scanRun_leaves <|
  .ite (.ok (Nat.le_refl _)) <|
  .ite (.ok (Nat.le_refl _)) <|
  .ite (.ok (Nat.le_refl _)) .error

def tokens (text : List Char) : Except TokenError (List Token) :=
  match text with
  | [] => .ok []
  | first :: rest =>
    match _ : scan first rest with
    | .error e => .error e
    | .ok (none, after) => tokens after
    | .ok (some token, after) => (tokens after).map (token :: ·)
termination_by text.length
decreasing_by
  all_goals
    rename_i found
    have := scan_leaves _ _ _ _ found
    simp only [List.length_cons]
    omega

end Token

end Calculator
