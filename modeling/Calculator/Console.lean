/-!
The text channels of a session: what has been written, and the lines that wait to be read.
-/

namespace Calculator

inductive Display where
  | buffer
  | screen
  deriving DecidableEq, Repr

structure Console where
  display : Display
  output : String
  errors : String
  input : List String
  /-- Whether a line was asked for when none was left. -/
  starved : Bool
  deriving DecidableEq, Repr

namespace Console

def withInput (display : Display) (lines : List String) : Console :=
  ⟨display, "", "", lines, false⟩

def write (console : Console) (text : String) : Console :=
  { console with output := console.output ++ text }

def writeLine (console : Console) (text : String) : Console := console.write (text ++ "\n")

def writeError (console : Console) (text : String) : Console :=
  { console with errors := console.errors ++ text ++ "\n" }

def readLine (console : Console) : Option String × Console :=
  match console.input with
  | [] => (none, { console with starved := true })
  | line :: lines => (some line, { console with input := lines })

def pushInput (console : Console) (line : String) : Console :=
  { console with input := console.input ++ [line] }

def wipe : String := "\x1b[2J\x1b[1;1H"

def clear (console : Console) : Console :=
  match console.display with
  | .buffer => { console with output := "" }
  | .screen => console.write wipe

end Console

end Calculator
