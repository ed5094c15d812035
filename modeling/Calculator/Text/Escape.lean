/-!
Backslash escapes in quoted text.

`\n \t \r \0 \a \b \f \v \\ \" \' \`` stand for one character each; `\xHH`, `\uHHHH` and `\u{…}` name
a character by its code point in hexadecimal. Any other use of a backslash is malformed.
-/

namespace Calculator

namespace Text

def simpleEscape? (c : Char) : Option Char :=
  match c with
  | 'n' => some '\n'
  | 't' => some '\t'
  | 'r' => some '\r'
  | '0' => some '\x00'
  | 'a' => some '\x07'
  | 'b' => some '\x08'
  | 'f' => some '\x0c'
  | 'v' => some '\x0b'
  | '\\' => some '\\'
  | '"' => some '"'
  | '\'' => some '\''
  | '`' => some '`'
  | _ => none

def hexDigit? (c : Char) : Option Nat :=
  if '0' ≤ c && c ≤ '9' then some (c.toNat - '0'.toNat)
  else if 'a' ≤ c && c ≤ 'f' then some (c.toNat - 'a'.toNat + 10)
  else if 'A' ≤ c && c ≤ 'F' then some (c.toNat - 'A'.toNat + 10)
  else none

def hexDigitsValue? (value : Nat) : List Char → Option Nat
  | [] => some value
  | c :: rest => (hexDigit? c).bind fun digit => hexDigitsValue? (value * 16 + digit) rest

/-- A hexadecimal number of at least one digit; a plus sign may stand before it. -/
def hexValue? (digits : List Char) : Option Nat :=
  let digits := match digits with
    | '+' :: rest => rest
    | _ => digits
  if digits.isEmpty then none else hexDigitsValue? 0 digits

def charOfCode? (code : Nat) : Option Char :=
  if code.isValidChar then some (Char.ofNat code) else none

def hexChar? (digits : List Char) : Option Char := (hexValue? digits).bind charOfCode?

def unescape? : List Char → Option (List Char)
  | [] => some []
  | '\\' :: 'x' :: a :: b :: rest =>
    (hexChar? [a, b]).bind fun c => (unescape? rest).map (c :: ·)
  | '\\' :: 'u' :: '{' :: rest =>
    match _ : rest.dropWhile (· != '}') with
    | [] => none
    | _ :: after =>
      (hexChar? (rest.takeWhile (· != '}'))).bind fun c => (unescape? after).map (c :: ·)
  | '\\' :: 'u' :: a :: b :: c :: d :: rest =>
    (hexChar? [a, b, c, d]).bind fun c => (unescape? rest).map (c :: ·)
  | '\\' :: c :: rest => (simpleEscape? c).bind fun c => (unescape? rest).map (c :: ·)
  | ['\\'] => none
  | c :: rest => (unescape? rest).map (c :: ·)
termination_by text => text.length
decreasing_by
  all_goals simp_wf
  all_goals try omega
  have shorter := (List.dropWhile_sublist (fun c => c != '}') (l := rest)).length_le
  simp_all
  omega

def unescapeString? (text : String) : Option String :=
  (unescape? text.toList).map String.ofList

end Text

end Calculator
