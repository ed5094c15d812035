import Calculator.Proofs.Token.Lexing
import Calculator.Proofs.Token.Signs

/-! What the texts of names and of decimal literals consist of. -/

namespace Calculator

namespace Token

open Text

def isWordChar (c : Char) : Bool := c.isDigit || isLetter c

def Word (text : List Char) : Prop := ∀ c ∈ text, isWordChar c = true

def Identifier (text : List Char) : Prop :=
  Word text ∧ ∃ first rest, text = first :: rest ∧ isLetter first = true

inductive NameText : List Char → Prop
  | bare {text : List Char} (identifier : Identifier text) : NameText text
  | dollar : NameText ['$']
  | dollarName {text : List Char} (identifier : Identifier text) : NameText ('$' :: text)
  | hash {text : List Char} (word : Word text) : NameText ('#' :: text)
  | atSign {text : List Char} (word : Word text) : NameText ('@' :: text)

/-- A name is a name's text, and a decimal literal has no sign. -/
structure Shaped (t : Token) : Prop where
  name : t.kind = .name → NameText t.text.toList
  number : t.kind = .number → t.text.toList.head? ≠ some '-'

theorem Shaped.of_kind {t : Token} (notName : t.kind ≠ .name) (notNumber : t.kind ≠ .number) :
    t.Shaped :=
  ⟨fun kind => absurd kind notName, fun kind => absurd kind notNumber⟩

theorem Shaped.of_name {text : String} (name : NameText text.toList) : Shaped ⟨.name, text⟩ :=
  ⟨fun _ => name, nofun⟩

theorem ne_of_kind {c d : Char} {kind : Char → Bool} (here : kind c = true) (other : kind d = false) :
    c ≠ d := by
  rintro rfl
  rw [here] at other
  cases other

theorem isLetter_underscore : isLetter '_' = false := by decide

theorem word_takeWhile (rest : List Char) :
    Word ((rest.takeWhile isNameChar).filter (· != '_')) := by
  intro c mem
  obtain ⟨taken, other⟩ := List.mem_filter.mp mem
  have nameChar := List.all_eq_true.mp List.all_takeWhile c taken
  simpa [isNameChar, isWordChar, show c ≠ '_' by simpa using other] using nameChar

theorem ofChars_toList (kind : TokenKind) (text : List Char) :
    (ofChars kind text).text.toList = text.filter (· != '_') := String.toList_ofList

theorem filter_cons_ne {first : Char} (other : first ≠ '_') (text : List Char) :
    (first :: text).filter (· != '_') = first :: text.filter (· != '_') :=
  List.filter_cons_of_pos (by simpa using other)

theorem identifier_takeWhile {rest : List Char} {c : Char} {more : List Char}
    (starts : rest.dropWhile (· = '_') = c :: more) (letter : isLetter c = true) :
    Identifier ((rest.takeWhile isNameChar).filter (· != '_')) := by
  refine ⟨word_takeWhile rest, ?_⟩
  induction rest with
  | nil => cases starts
  | cons first rest ih =>
      by_cases underscore : first = '_'
      · subst underscore
        exact ih (by simpa using starts)
      · obtain ⟨rfl, rfl⟩ : first = c ∧ rest = more := by simpa [underscore] using starts
        have nameChar : isNameChar first = true := by simp [isNameChar, letter]
        rw [List.takeWhile_cons_of_pos nameChar, filter_cons_ne underscore]
        exact ⟨first, _, rfl, letter⟩

theorem literalMark?_kind {c : Char} {kind : TokenKind} {isDigit : Char → Bool}
    (known : literalMark? c = some (kind, isDigit)) : kind ≠ .name ∧ kind ≠ .number := by
  unfold literalMark? at known
  split at known <;> cases known <;> exact ⟨nofun, nofun⟩

theorem shaped_name {first : Char} {rest : List Char} (other : first ≠ '_')
    (name : NameText (first :: (rest.takeWhile isNameChar).filter (· != '_'))) :
    Shaped (ofChars .name (first :: rest.takeWhile isNameChar)) := by
  refine ⟨fun _ => ?_, nofun⟩
  rwa [ofChars_toList, filter_cons_ne other]

theorem nameText_takeWhile {first : Char}
    (starts : (first = '#' || first = '@' || isLetter first) = true) (rest : List Char) :
    NameText (first :: (rest.takeWhile isNameChar).filter (· != '_')) := by
  have word := word_takeWhile rest
  simp only [Bool.or_eq_true, decide_eq_true_eq, or_assoc] at starts
  rcases starts with rfl | rfl | letter
  · exact .hash word
  · exact .atSign word
  · exact .bare ⟨List.forall_mem_cons.mpr ⟨by simp [isWordChar, letter], word⟩, _, _, rfl, letter⟩

theorem Lexeme.shaped {first : Char} {rest : List Char} {t : Token} (lexeme : Lexeme first rest t) :
    t.Shaped := by
  cases lexeme with
  | quote closed => exact .of_kind nofun nofun
  | char closed => exact .of_kind nofun nofun
  | marked known rest =>
      obtain ⟨notName, notNumber⟩ := literalMark?_kind known
      exact .of_kind notName notNumber
  | decimal starts accepted =>
      refine ⟨nofun, fun _ => ?_⟩
      have ne (d : Char) (other : (d.isDigit || d = '.') = false) : first ≠ d :=
        @ne_of_kind _ d (fun c => c.isDigit || c = '.') starts other
      rw [ofChars_toList, filter_cons_ne (ne '_' (by decide))]
      simpa using ne '-' (by decide)
  | name starts rest =>
      have other : first ≠ '_' :=
        @ne_of_kind _ _ (fun c => c = '#' || c = '@' || isLetter c) starts (by decide)
      exact shaped_name other (nameText_takeWhile starts rest)
  | dollarName starts letter =>
      exact shaped_name (by decide) (.dollarName (identifier_takeWhile starts letter))
  | dollar rest => exact .of_name .dollar
  | operator starts rest => exact .of_kind nofun nofun
  | opening starts rest => exact .of_kind nofun nofun
  | closing starts rest => exact .of_kind nofun nofun
  | comma rest => exact .of_kind nofun nofun

theorem tokens_shaped {text : List Char} {line : List Token} (split : tokens text = .ok line) :
    ∀ t ∈ line, t.Shaped := by
  intro t mem
  obtain ⟨first, rest, lexeme⟩ := tokens_lexeme split t mem
  exact lexeme.shaped

theorem tokenize_shaped {text : String} {line : List Token} (tokenized : tokenize text = .ok line) :
    ∀ t ∈ line, t.Shaped := by
  obtain ⟨raw, split, _, rfl⟩ := of_tokenize tokenized
  exact groupNegativeExponents_all (.of_kind nofun nofun) (.of_kind nofun nofun) (tokens_shaped split)

end Token

end Calculator
