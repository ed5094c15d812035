import Calculator.Builtin.Channel
import Calculator.Builtin.Control
import Calculator.Builtin.Math
import Calculator.Builtin.Memory
import Calculator.Builtin.Program
import Calculator.Builtin.Reduce

/-!
The functions that every session knows.
-/

namespace Calculator

namespace Builtin

def standardTable : List (String × Builtin) :=
  controlTable ++ memoryTable ++ programTable ++ channelTable ++ mathTable ++ reduceTable

end Builtin

namespace Registry

def standard : Registry := Std.TreeMap.ofList Builtin.standardTable

end Registry

end Calculator
