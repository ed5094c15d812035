import Calculator.Builtin.Channel
import Calculator.Builtin.Math
import Calculator.Builtin.Reduce
import Calculator.Proofs.Correspondence.Builtin.Control

/-! Functions of numbers and lists, and those that write and read text, on machines that evaluate
alike. -/

namespace Calculator

namespace Correspondence

variable {C : Correspondence} {w : C.World}

theorem keeps_mathTable : C.KeepsAll Builtin.mathTable :=
  fun entry mem => keeps_evaluating (Builtin.onlyEvaluates_mathTable entry mem)

theorem keeps_reduceAny (reduce : List Number → Number) : C.Keeps ⟨.atLeast 1, Builtin.reduceAny reduce⟩ := by
  intro w m m' args args' f f' h parts frames takes
  exact .mapped reduce (h.values parts frames)

theorem keeps_reduceSome (function : String) (reduce : List Number → Number) :
    C.Keeps ⟨.atLeast 1, Builtin.reduceSome function reduce⟩ := by
  intro w m m' args args' f f' h parts frames takes
  apply (h.values parts frames).andThenSame
  intro values
  split
  · exact refuse rfl
  · exact .value rfl

theorem keeps_reduceTable : C.KeepsAll Builtin.reduceTable := by
  simp only [KeepsAll, Builtin.reduceTable, List.forall_mem_cons]
  exact ⟨keeps_reduceSome _ _, keeps_reduceSome _ _, keeps_reduceAny _, keeps_reduceAny _,
    keeps_reduceSome _ _, keeps_reduceSome _ _, List.forall_mem_nil _⟩

theorem keeps_writeText (function lineEnd : String) :
    C.Keeps ⟨.exact 1, Builtin.writeText function lineEnd⟩ := by
  intro w m m' args args' f f' h parts frames takes
  apply (h.textArg parts frames function 0 (takes.given rfl)).andThenSame
  intro text
  exact (Related.onConsole _).andThenSame fun _ => .value rfl

theorem keeps_print : C.Keeps ⟨.atLeast 1, Builtin.print⟩ := by
  intro w m m' args args' f f' h parts frames takes
  apply (h.values parts frames).andThenSame
  intro values
  exact (Related.onConsole _).andThenSame fun _ => .value rfl

theorem keeps_read : C.Keeps ⟨.exact 1, Builtin.read⟩ := by
  intro w m m' args args' f f' h parts frames takes
  apply (pointer_arg parts "read" 0 (takes.given rfl)).andThen
  intro p p' pointers
  apply (Related.onConsole _).andThenSame
  intro line
  cases line with
  | none => exact .value rfl
  | some line => exact (h.allocate pointers frames _).andThenSame fun _ => .value rfl

theorem keeps_clearOut : C.Keeps ⟨.exact 0, Builtin.clearOut⟩ :=
  fun _ _ _ _ _ _ _ _ _ _ _ => (Related.onConsole _).andThenSame fun _ => .value rfl

theorem keeps_flush : C.Keeps ⟨.exact 0, Builtin.flush⟩ :=
  fun _ _ _ _ _ _ _ _ _ _ _ => .value rfl

theorem keeps_channelTable : C.KeepsAll Builtin.channelTable := by
  simp only [KeepsAll, Builtin.channelTable, List.forall_mem_cons]
  exact ⟨keeps_writeText _ _, keeps_writeText _ _, keeps_print, keeps_read, keeps_clearOut,
    keeps_flush, List.forall_mem_nil _⟩

end Correspondence

end Calculator
