import Calculator.Proofs.Text.Quoted
import Mathlib.Data.List.Basic
import Mathlib.Data.List.Induction

/-!
Which texts have only escapes that are understood.

Main statement: `unescapeString?` understands the twelve letters and the codes of two digits, of four digits and
in braces, and nothing else; but a plus may stand where the digits of a code begin.
-/

namespace Calculator

namespace Text

def HexDigit (c : Char) (value : Nat) : Prop :=
  "0123456789abcdef".toList[value]? = some c ∨ "0123456789ABCDEF".toList[value]? = some c

inductive Numeral : List Char → Nat → Prop
  | digit {c : Char} {value : Nat} (digit : HexDigit c value) : Numeral [c] value
  | append {digits : List Char} {front value : Nat} {c : Char} (numeral : Numeral digits front)
      (digit : HexDigit c value) : Numeral (digits ++ [c]) (front * 16 + value)

/-- A numeral, perhaps behind a plus. -/
inductive SignedNumeral : List Char → Nat → Prop
  | plain {digits : List Char} {code : Nat} (numeral : Numeral digits code) : SignedNumeral digits code
  | plus {digits : List Char} {code : Nat} (numeral : Numeral digits code) : SignedNumeral ('+' :: digits) code

theorem HexDigit.lt {c : Char} {value : Nat} (digit : HexDigit c value) : value < 16 := by
  rcases digit with small | capital
  · exact (List.getElem?_eq_some_iff.mp small).1
  · exact (List.getElem?_eq_some_iff.mp capital).1

theorem hexDigit?_of_hexDigit {c : Char} {value : Nat} (digit : HexDigit c value) : hexDigit? c = some value := by
  have small : ∀ v < 16, "0123456789abcdef".toList[v]?.bind hexDigit? = some v := by decide
  have capital : ∀ v < 16, "0123456789ABCDEF".toList[v]?.bind hexDigit? = some v := by decide
  have lt := digit.lt
  rcases digit with found | found
  · have read := small value lt
    rwa [found] at read
  · have read := capital value lt
    rwa [found] at read

theorem exists_of_between {first last c : Char} (inside : (first ≤ c && c ≤ last) = true) :
    ∃ distance ≤ last.toNat - first.toNat, c.toNat - first.toNat = distance ∧
      c = Char.ofNat (first.toNat + distance) := by
  simp only [Bool.and_eq_true, decide_eq_true_eq] at inside
  have low : first.toNat ≤ c.toNat := inside.1
  have high : c.toNat ≤ last.toNat := inside.2
  refine ⟨c.toNat - first.toNat, by omega, rfl, ?_⟩
  rw [Nat.add_sub_cancel' low, Char.ofNat_toNat]

theorem hexDigit_of_hexDigit? {c : Char} {value : Nat} (read : hexDigit? c = some value) : HexDigit c value := by
  unfold hexDigit? at read
  split at read
  · rename_i inside
    obtain ⟨d, le, distance, rfl⟩ := exists_of_between inside
    rw [distance, Option.some.injEq] at read
    subst read
    have digits : ∀ d ≤ 9, "0123456789abcdef".toList[d]? = some (Char.ofNat ('0'.toNat + d)) := by decide
    exact .inl (digits d le)
  split at read
  · rename_i inside
    obtain ⟨d, le, distance, rfl⟩ := exists_of_between inside
    rw [distance, Option.some.injEq] at read
    subst read
    have digits : ∀ d ≤ 5, "0123456789abcdef".toList[d + 10]? = some (Char.ofNat ('a'.toNat + d)) := by decide
    exact .inl (digits d le)
  split at read
  · rename_i inside
    obtain ⟨d, le, distance, rfl⟩ := exists_of_between inside
    rw [distance, Option.some.injEq] at read
    subst read
    have digits : ∀ d ≤ 5, "0123456789ABCDEF".toList[d + 10]? = some (Char.ofNat ('A'.toNat + d)) := by decide
    exact .inr (digits d le)
  · cases read

theorem numeral_iff {digits : List Char} {code : Nat} :
    Numeral digits code ↔ digits ≠ [] ∧ hexDigitsValue? 0 digits = some code := by
  constructor
  · intro numeral
    induction numeral with
    | digit digit => simp [hexDigitsValue?, hexDigit?_of_hexDigit digit]
    | append numeral digit ih => simp [hexDigitsValue?_append, ih.2, hexDigit?_of_hexDigit digit]
  · rintro ⟨nonempty, read⟩
    induction digits using List.reverseRecOn generalizing code with
    | nil => exact absurd rfl nonempty
    | append_singleton digits c ih =>
        rw [hexDigitsValue?_append] at read
        obtain ⟨front, readFront, read⟩ := Option.bind_eq_some_iff.mp read
        obtain ⟨value, readDigit, rfl⟩ := Option.map_eq_some_iff.mp read
        have digit := hexDigit_of_hexDigit? readDigit
        by_cases alone : digits = []
        · subst alone
          cases readFront
          rw [Nat.zero_mul, Nat.zero_add]
          exact .digit digit
        · exact .append (ih alone readFront) digit

theorem Numeral.hexDigit {digits : List Char} {code : Nat} (numeral : Numeral digits code) :
    ∀ c ∈ digits, ∃ value, HexDigit c value := by
  induction numeral with
  | digit digit => exact List.forall_mem_singleton.mpr ⟨_, digit⟩
  | append numeral digit ih => exact List.forall_mem_append.mpr ⟨ih, List.forall_mem_singleton.mpr ⟨_, digit⟩⟩

theorem Numeral.not_mem {digits : List Char} {code : Nat} (numeral : Numeral digits code) {c : Char}
    (other : hexDigit? c = none) : c ∉ digits := by
  intro mem
  obtain ⟨value, digit⟩ := numeral.hexDigit c mem
  rw [hexDigit?_of_hexDigit digit] at other
  cases other

theorem Numeral.ne_plus {digits : List Char} {code : Nat} (numeral : Numeral digits code) : '+' ∉ digits :=
  numeral.not_mem rfl

theorem hexValue?_eq_some_iff {digits : List Char} {code : Nat} :
    hexValue? digits = some code ↔ SignedNumeral digits code := by
  have unsigned (digits : List Char) :
      (if digits.isEmpty then none else hexDigitsValue? 0 digits) = some code ↔ Numeral digits code := by
    rw [numeral_iff]
    cases digits <;> simp
  unfold hexValue?
  split
  · rename_i rest
    refine (unsigned rest).trans ⟨.plus, ?_⟩
    rintro (numeral | numeral)
    · exact absurd List.mem_cons_self numeral.ne_plus
    · exact numeral
  · rename_i plain
    refine (unsigned digits).trans ⟨.plain, ?_⟩
    rintro (numeral | numeral)
    · exact numeral
    · exact absurd rfl (plain _)

theorem charOfCode?_eq_some_iff {code : Nat} {c : Char} : charOfCode? code = some c ↔ c.toNat = code := by
  rw [charOfCode?]
  constructor
  · intro named
    split at named
    · rename_i valid
      cases named
      rw [Char.ofNat, dif_pos valid]
      rfl
    · cases named
  · rintro rfl
    have valid : c.toNat.isValidChar := c.valid
    rw [if_pos valid, Char.ofNat_toNat]

theorem hexChar?_eq_some_iff {digits : List Char} {c : Char} :
    hexChar? digits = some c ↔ SignedNumeral digits c.toNat := by
  rw [hexChar?, Option.bind_eq_some_iff]
  constructor
  · rintro ⟨code, read, named⟩
    rw [charOfCode?_eq_some_iff.mp named]
    exact hexValue?_eq_some_iff.mp read
  · intro numeral
    exact ⟨c.toNat, hexValue?_eq_some_iff.mpr numeral, charOfCode?_eq_some_iff.mpr rfl⟩

def escapeLetters : List (Char × Char) :=
  [('n', '\n'), ('t', '\t'), ('r', '\r'), ('0', '\x00'), ('a', '\x07'), ('b', '\x08'), ('f', '\x0c'),
    ('v', '\x0b'), ('\\', '\\'), ('"', '"'), ('\'', '\''), ('`', '`')]

/-- What stands behind a backslash, and the character that is meant. -/
inductive Escape (Names : List Char → Nat → Prop) : List Char → Char → Prop
  | letter {letter c : Char} (known : (letter, c) ∈ escapeLetters) : Escape Names [letter] c
  | two {digits : List Char} {c : Char} (count : digits.length = 2) (named : Names digits c.toNat) :
      Escape Names ('x' :: digits) c
  | four {digits : List Char} {c : Char} (count : digits.length = 4) (named : Names digits c.toNat) :
      Escape Names ('u' :: digits) c
  | braced {digits : List Char} {c : Char} (named : Names digits c.toNat) :
      Escape Names ('u' :: '\x7b' :: (digits ++ ['\x7d'])) c

/-- A text consists of characters other than backslashes and of escapes, and they mean another text. -/
inductive Spells (Names : List Char → Nat → Prop) : List Char → List Char → Prop
  | nil : Spells Names [] []
  | plain {c : Char} {raw text : List Char} (plain : c ≠ '\\') (spells : Spells Names raw text) :
      Spells Names (c :: raw) (c :: text)
  | escape {code raw text : List Char} {c : Char} (escape : Escape Names code c) (spells : Spells Names raw text) :
      Spells Names ('\\' :: (code ++ raw)) (c :: text)

theorem simpleEscape?_eq_some_iff {letter c : Char} :
    simpleEscape? letter = some c ↔ (letter, c) ∈ escapeLetters := by
  constructor
  · intro known
    unfold simpleEscape? at known
    split at known <;> cases known <;> decide
  · intro known
    simp only [escapeLetters, List.mem_cons, Prod.mk.injEq, List.not_mem_nil, or_false] at known
    rcases known with ⟨rfl, rfl⟩ | ⟨rfl, rfl⟩ | ⟨rfl, rfl⟩ | ⟨rfl, rfl⟩ | ⟨rfl, rfl⟩ | ⟨rfl, rfl⟩ | ⟨rfl, rfl⟩ |
      ⟨rfl, rfl⟩ | ⟨rfl, rfl⟩ | ⟨rfl, rfl⟩ | ⟨rfl, rfl⟩ | ⟨rfl, rfl⟩ <;> rfl

theorem SignedNumeral.not_mem {digits : List Char} {code : Nat} (numeral : SignedNumeral digits code) {c : Char}
    (other : hexDigit? c = none) (notPlus : c ≠ '+') : c ∉ digits := by
  cases numeral with
  | plain numeral => exact numeral.not_mem other
  | plus numeral => exact List.not_mem_cons_of_ne_of_not_mem notPlus (numeral.not_mem other)

theorem unescape?_escape {code : List Char} {c : Char} (escape : Escape SignedNumeral code c) (rest : List Char) :
    unescape? ('\\' :: (code ++ rest)) = (unescape? rest).map (c :: ·) := by
  cases escape with
  | @letter letter c known =>
      have notCode : letter ≠ 'x' ∧ letter ≠ 'u' := by
        have all : ∀ pair ∈ escapeLetters, pair.1 ≠ 'x' ∧ pair.1 ≠ 'u' := by decide
        exact all _ known
      rw [List.singleton_append, unescape?_simple notCode.1 notCode.2, simpleEscape?_eq_some_iff.mpr known]
      rfl
  | @two digits c count named =>
      obtain ⟨a, b, rfl⟩ := List.length_eq_two.mp count
      rw [List.cons_append, List.cons_append, List.cons_append, List.nil_append, unescape?,
        hexChar?_eq_some_iff.mpr named]
      rfl
  | @four digits c count named =>
      obtain ⟨first, digits, rfl⟩ := List.exists_cons_of_length_eq_add_one count
      obtain ⟨x, y, z, rfl⟩ := List.length_eq_three.mp (Nat.succ.inj count)
      have unbraced : first ≠ '\x7b' := by
        rintro rfl
        exact named.not_mem rfl (by decide) List.mem_cons_self
      simp only [List.cons_append, List.nil_append]
      rw [unescape?, hexChar?_eq_some_iff.mpr named]
      · rfl
      · exact unbraced
  | @braced digits c named =>
      have inside : ∀ d ∈ digits, (d != '\x7d') = true := by
        rintro d mem
        rw [bne_iff_ne]
        rintro rfl
        exact named.not_mem rfl (by decide) mem
      simp only [List.cons_append, List.append_assoc, List.nil_append]
      rw [unescape?_code inside, hexChar?_eq_some_iff.mpr named]
      rfl

theorem unescape?_of_spells {raw text : List Char} (spells : Spells SignedNumeral raw text) :
    unescape? raw = some text := by
  induction spells with
  | nil => rw [unescape?]
  | plain plain spells ih => rw [unescape?_plain plain, ih, Option.map_some]
  | escape escape spells ih => rw [unescape?_escape escape, ih, Option.map_some]

theorem of_bind_map {named : Option Char} {rest : Option (List Char)} {text : List Char}
    (understood : (named.bind fun c => rest.map (c :: ·)) = some text) :
    ∃ c more, named = some c ∧ rest = some more ∧ text = c :: more := by
  obtain ⟨c, named, mapped⟩ := Option.bind_eq_some_iff.mp understood
  obtain ⟨more, rest, rfl⟩ := Option.map_eq_some_iff.mp mapped
  exact ⟨c, more, named, rest, rfl⟩

theorem spells_of_unescape? {raw text : List Char} (understood : unescape? raw = some text) :
    Spells SignedNumeral raw text := by
  -- The induction goes along the text, from escape to escape.
  fun_induction unescape? raw generalizing text with
  | case1 =>
      cases understood
      exact .nil
  | case2 a b rest ih =>
      obtain ⟨c, more, named, behind, rfl⟩ := of_bind_map understood
      exact .escape (.two rfl (hexChar?_eq_some_iff.mp named)) (ih behind)
  | case3 => cases understood
  | case4 rest close after found ih =>
      obtain ⟨c, more, named, behind, rfl⟩ := of_bind_map understood
      have closed : close = '\x7d' := by
        have ends := List.head?_dropWhile_not (· != '\x7d') rest
        rw [found] at ends
        simpa using ends
      have split : rest = rest.takeWhile (· != '\x7d') ++ '\x7d' :: after := by
        conv_lhs => rw [← List.takeWhile_append_dropWhile (p := (· != '\x7d')) (l := rest), found, closed]
      have spells := Spells.escape (.braced (hexChar?_eq_some_iff.mp named)) (ih behind)
      simp only [List.cons_append, List.append_assoc, List.nil_append] at spells
      rwa [← split] at spells
  | case5 rest a b c d other ih =>
      obtain ⟨e, more, named, behind, rfl⟩ := of_bind_map understood
      exact .escape (.four rfl (hexChar?_eq_some_iff.mp named)) (ih behind)
  | case6 c rest _ _ _ ih =>
      obtain ⟨e, more, named, behind, rfl⟩ := of_bind_map understood
      exact .escape (.letter (simpleEscape?_eq_some_iff.mp named)) (ih behind)
  | case7 => cases understood
  | case8 c rest _ _ _ escaped last ih =>
      obtain ⟨more, behind, rfl⟩ := Option.map_eq_some_iff.mp understood
      refine .plain (fun backslash => ?_) (ih behind)
      cases rest with
      | nil => exact last backslash rfl
      | cons next rest => exact escaped next rest backslash rfl

theorem unescape?_eq_some_iff {raw text : List Char} :
    unescape? raw = some text ↔ Spells SignedNumeral raw text :=
  ⟨spells_of_unescape?, unescape?_of_spells⟩

/-- Where a code with a plus begins. -/
def plusMarks : List (List Char) := [['\\', 'x', '+'], ['\\', 'u', '+'], ['\\', 'u', '\x7b', '+']]

theorem Escape.imp {Names Names' : List Char → Nat → Prop} {code : List Char} {c : Char}
    (escape : Escape Names code c) (weaker : ∀ digits code, Names digits code → Names' digits code) :
    Escape Names' code c := by
  cases escape with
  | letter known => exact .letter known
  | two count named => exact .two count (weaker _ _ named)
  | four count named => exact .four count (weaker _ _ named)
  | braced named => exact .braced (weaker _ _ named)

theorem Spells.imp {Names Names' : List Char → Nat → Prop} {raw text : List Char} (spells : Spells Names raw text)
    (weaker : ∀ digits code, Names digits code → Names' digits code) : Spells Names' raw text := by
  induction spells with
  | nil => exact .nil
  | plain plain spells ih => exact .plain plain ih
  | escape escape spells ih => exact .escape (escape.imp weaker) ih

theorem Escape.unsigned {code : List Char} {c : Char} (escape : Escape SignedNumeral code c)
    (noPlus : ∀ mark ∈ plusMarks, ¬mark <+: '\\' :: code) : Escape Numeral code c := by
  have notMarked (before digits : List Char) (mem : '\\' :: (before ++ ['+']) ∈ plusMarks)
      (code : '\\' :: code = '\\' :: (before ++ ['+']) ++ digits) : False :=
    noPlus _ mem ⟨digits, code.symm⟩
  cases escape with
  | letter known => exact .letter known
  | two count named =>
      cases named with
      | plain numeral => exact .two count numeral
      | plus numeral => exact (notMarked ['x'] _ (by decide) rfl).elim
  | four count named =>
      cases named with
      | plain numeral => exact .four count numeral
      | plus numeral => exact (notMarked ['u'] _ (by decide) rfl).elim
  | braced named =>
      cases named with
      | plain numeral => exact .braced numeral
      | plus numeral => exact (notMarked ['u', '\x7b'] _ (by decide) rfl).elim

theorem Spells.unsigned {raw text : List Char} (spells : Spells SignedNumeral raw text)
    (noPlus : ∀ mark ∈ plusMarks, ¬mark <:+: raw) : Spells Numeral raw text := by
  induction spells with
  | nil => exact .nil
  | @plain c raw _ plain spells ih =>
      exact .plain plain (ih fun mark mem inside => noPlus mark mem (inside.trans (List.suffix_cons c raw).isInfix))
  | @escape code raw _ _ escape spells ih =>
      refine .escape (escape.unsigned fun mark mem front => ?_) (ih fun mark mem inside => ?_)
      · exact noPlus mark mem (front.trans (List.prefix_append ('\\' :: code) raw)).isInfix
      · exact noPlus mark mem (inside.trans (List.suffix_append ('\\' :: code) raw).isInfix)

/-- A text is understood, with this meaning, if and only if it consists of characters other than backslashes and
of the escapes, where a plus may stand before the digits of a code. So a text without such a plus is
understood if and only if its codes have as many digits as they have to have. -/
theorem escapes_understood (raw : String) :
    (∀ text : String, unescapeString? raw = some text ↔ Spells SignedNumeral raw.toList text.toList) ∧
    (∀ text : String, Spells Numeral raw.toList text.toList → unescapeString? raw = some text) ∧
    ((∀ mark ∈ plusMarks, ¬mark <:+: raw.toList) →
      ∀ text : String, unescapeString? raw = some text ↔ Spells Numeral raw.toList text.toList) := by
  have understood (text : String) :
      unescapeString? raw = some text ↔ Spells SignedNumeral raw.toList text.toList := by
    rw [unescapeString?, Option.map_eq_some_iff, ← unescape?_eq_some_iff]
    constructor
    · rintro ⟨chars, spelled, rfl⟩
      rwa [String.toList_ofList]
    · exact fun spelled => ⟨_, spelled, String.ofList_toList⟩
  have plain (text : String) (spells : Spells Numeral raw.toList text.toList) : unescapeString? raw = some text :=
    (understood text).mpr (spells.imp fun _ _ => .plain)
  refine ⟨understood, plain, fun noPlus text => ⟨fun meant => ?_, plain text⟩⟩
  exact ((understood text).mp meant).unsigned noPlus

/-- One code of each form, and a letter. -/
theorem escapes_understood_each :
    (∀ mark ∈ plusMarks, ¬mark <:+: "a\\x4F\\u00e9\\u\x7b1F600\x7d\\n".toList) ∧
      Spells Numeral "a\\x4F\\u00e9\\u\x7b1F600\x7d\\n".toList "aOé😀\n".toList ∧
      unescapeString? "a\\x4F\\u00e9\\u\x7b1F600\x7d\\n" = some "aOé😀\n" ∧
      ∀ text : String, Spells Numeral "a\\x4F\\u00e9\\u\x7b1F600\x7d\\n".toList text.toList → text = "aOé😀\n" := by
  have chars : "a\\x4F\\u00e9\\u\x7b1F600\x7d\\n".toList = ['a', '\\', 'x', '4', 'F', '\\', 'u', '0', '0', 'e', '9',
      '\\', 'u', '\x7b', '1', 'F', '6', '0', '0', '\x7d', '\\', 'n'] := rfl
  have meant : "aOé😀\n".toList = ['a', 'O', 'é', '😀', '\n'] := rfl
  obtain ⟨-, accepted, exact⟩ := escapes_understood "a\\x4F\\u00e9\\u\x7b1F600\x7d\\n"
  have noPlus : ∀ mark ∈ plusMarks, ¬mark <:+: "a\\x4F\\u00e9\\u\x7b1F600\x7d\\n".toList := by
    rw [chars]
    decide
  have spells : Spells Numeral "a\\x4F\\u00e9\\u\x7b1F600\x7d\\n".toList "aOé😀\n".toList := by
    have two : Numeral ['4', 'F'] 'O'.toNat := numeral_iff.mpr ⟨by decide, rfl⟩
    have four : Numeral ['0', '0', 'e', '9'] 'é'.toNat := numeral_iff.mpr ⟨by decide, rfl⟩
    have braced : Numeral ['1', 'F', '6', '0', '0'] '😀'.toNat := numeral_iff.mpr ⟨by decide, rfl⟩
    rw [chars, meant]
    exact .plain (by decide) (.escape (.two rfl two) (.escape (.four rfl four) (.escape (.braced braced)
      (.escape (.letter (by decide)) .nil))))
  have understood := (exact noPlus _).mpr spells
  refine ⟨noPlus, spells, understood, fun text spells => ?_⟩
  exact Option.some.inj ((accepted text spells).symm.trans understood)

/-- A plus and one digit are taken for two digits. -/
theorem plus_taken_for_digit :
    unescapeString? "\\x+5" = some "\x05" ∧ ¬∃ text : String, Spells Numeral "\\x+5".toList text.toList := by
  have chars : "\\x+5".toList = ['\\', 'x', '+', '5'] := rfl
  constructor
  · have five : SignedNumeral ['+', '5'] '\x05'.toNat := .plus (numeral_iff.mpr ⟨by decide, rfl⟩)
    have spells : Spells SignedNumeral ['\\', 'x', '+', '5'] ['\x05'] := .escape (.two rfl five) .nil
    rw [unescapeString?, chars, unescape?_of_spells spells]
    rfl
  · rintro ⟨meant, spells⟩
    rw [chars] at spells
    generalize whole : ['\\', 'x', '+', '5'] = raw at spells
    generalize meant.toList = text at spells
    cases spells with
    | nil => cases whole
    | plain plain =>
        cases whole
        exact plain rfl
    | escape escape =>
        have code := (List.cons.inj whole).2
        cases escape with
        | letter known =>
            obtain rfl := (List.cons.inj code).1
            have none : ∀ pair ∈ escapeLetters, pair.1 ≠ 'x' := by decide
            exact none _ known rfl
        | two count named =>
            obtain ⟨a, b, rfl⟩ := List.length_eq_two.mp count
            obtain rfl := (List.cons.inj (List.cons.inj code).2).1
            exact named.ne_plus List.mem_cons_self
        | four count named => cases (List.cons.inj code).1
        | braced named => cases (List.cons.inj code).1

end Text

end Calculator
