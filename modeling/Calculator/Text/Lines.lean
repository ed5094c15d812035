import Calculator.Text.Blank

/-!
Text as lines. A line ends with a line feed, before which one carriage return is dropped; what follows
the last line feed is a line of its own if it is not empty.
-/

namespace Calculator

namespace Text

def endLine (line : List Char) : String :=
  match line with
  | '\r' :: before => String.ofList before.reverse
  | _ => String.ofList line.reverse

/-- The lines of `rest`, the first of which has begun with `line`, in reverse. -/
def linesFrom (line : List Char) : List Char → List String
  | [] => if line.isEmpty then [] else [String.ofList line.reverse]
  | '\n' :: rest => endLine line :: linesFrom [] rest
  | c :: rest => linesFrom (c :: line) rest

def lines (text : String) : List String := linesFrom [] text.toList

def fullLines (text : String) : List String := (lines text).filter fun line =>
  !line.toList.all isBlank

def dropLineEnd (line : String) : String :=
  String.ofList (line.toList.reverse.dropWhile fun c => c = '\r' || c = '\n').reverse

end Text

end Calculator
