import Calculator.Proofs.Arrays
import Calculator.Proofs.Correspondence.Lasting

/-!
Text in memory.

A text that is allocated, or read from the input, at any address whose cells have names of their own is
there afterwards: every function that takes a quote or a pointer does the same with the pointer as with
the text as a quote.
-/

namespace Calculator

open Number Session CellArray

namespace Text

theorem charOfCell_ofNat (c : Char) : charOfCell (.ofNat c.toNat) = c := by
  have valid : c.toNat.isValidChar := c.valid
  have below : c.toNat < 0x110000 := by
    unfold Nat.isValidChar at valid
    omega
  have largest : (0x110000 : Int) ≤ largestInteger := by decide
  have least : leastInteger ≤ 0 := by decide
  have code : (ofNat c.toNat).truncate = c.toNat := by
    rw [(isInt_ofNat (by omega)).truncate]
    omega
  simp only [charOfCell, code, Int.toNat_natCast, Char.ofNat_toNat]
  simp [valid]

theorem ofCells_toCells (text : String) : ofCells (toCells text) = text := by
  simp [ofCells, toCells, Function.comp_def, charOfCell_ofNat]

theorem length_toCells (text : String) : (toCells text).length = text.length := by
  simp [toCells, String.length_toList]

end Text

namespace Session

def elementKeys (x : Number) (index count : Nat) : List String :=
  (List.range' index count).map (elementKey x)

def arrayKeys (x : Number) (count : Nat) : List String := x.key :: elementKeys x 0 count

variable {s t : Session} {x : Number} {values : List Number}

theorem Elements.congr {index : Nat} (elements : s.Elements x index values) (same : t.globals = s.globals) :
    t.Elements x index values := by
  induction values generalizing index with
  | nil => trivial
  | cons value values ih =>
      obtain ⟨here, others⟩ := elements
      exact ⟨same ▸ here, ih others⟩

theorem HasCells.congr (cells : s.HasCells x values) (same : t.globals = s.globals) : t.HasCells x values :=
  ⟨same ▸ cells.length, cells.elements.congr same⟩

theorem getElem?_setVariable_other {name other : String} (different : Text.fold name ≠ Text.fold other)
    (value : Number) :
    (s.setVariable name value).globals[Text.fold other]? = s.globals[Text.fold other]? := by
  rw [setVariable, Std.TreeMap.getElem?_insert, if_neg]
  rwa [Std.LawfulEqCmp.compare_eq_iff_eq]

theorem getElem?_setVariable_self (name : String) (value : Number) :
    (s.setVariable name value).globals[Text.fold name]? = some value := by
  rw [setVariable, Std.TreeMap.getElem?_insert, if_pos Std.ReflCmp.compare_self]

theorem elementKeys_succ (x : Number) (index count : Nat) :
    elementKeys x index (count + 1) = elementKey x index :: elementKeys x (index + 1) count := by
  rw [elementKeys, List.range'_succ, List.map_cons]
  rfl

end Session

namespace CellArray

variable {base : Expr} {frame : FrameId} {s : Session} {x : Number} {setting : Setting}

theorem costs_storeElements {values : List Number} {index : Nat}
    (apart : (elementKeys x index values.length).Nodup) :
    ∃ t, (∀ m : Machine, (storeFrom m (.pointer base) x index values frame).Costs values.length s
        (.ok ()) t) ∧
      t.Elements x index values ∧
      (∀ y : Number, y.key ∉ elementKeys x index values.length →
        t.globals[Text.fold y.key]? = s.globals[Text.fold y.key]?) ∧
      t = { s with globals := t.globals } := by
  induction values generalizing index s with
  | nil => exact ⟨s, fun m => Eval.costs_pure () s, trivial, fun _ _ => rfl, rfl⟩
  | cons value values ih =>
      rw [List.length_cons, elementKeys_succ] at apart ⊢
      obtain ⟨fresh, apart⟩ := List.nodup_cons.mp apart
      obtain ⟨t, costs, elements, others, rest⟩ := @ih (s.setVariable (elementKey x index) value) _ apart
      refine ⟨t, fun m => ?_, ⟨?_, elements⟩, fun y absent => ?_, ?_⟩
      · rw [Nat.add_comm]
        exact (costs_writeCell m _ value).andThen (costs m)
      · rw [elementKey, others _ fresh]
        exact getElem?_setVariable_self _ value
      · obtain ⟨different, absent⟩ := not_or.mp fun found => absent (List.mem_cons.mpr found)
        rw [others y absent, getElem?_setVariable_other]
        exact fun folds => different (fold_key_injective folds).symm
      · rw [rest]
        rfl

theorem eventually_allocateCells {values : List Number} (address : setting.Gives frame s base x)
    (apart : (arrayKeys x values.length).Nodup) :
    ∃ t, Eval.Eventually (fun fuel => allocate (setting.machineAt fuel) (.pointer base) values frame) s
        (.ok x) t ∧ t.HasCells x values ∧ t = { s with globals := t.globals } := by
  obtain ⟨fresh, apart⟩ := List.nodup_cons.mp apart
  obtain ⟨t, costs, elements, others, rest⟩ := @costs_storeElements base frame
    (s.setVariable x.key (.ofNat values.length)) x values 0 apart
  refine ⟨t, ?_, ⟨?_, elements⟩, by rw [rest]; rfl⟩
  · refine address.andThen ?_
    refine (Eval.Costs.eventually fun fuel => costs_writeCell _ x _).andThen ?_
    exact (Eval.Costs.eventually fun fuel => costs _).andThen (Eval.eventually_pure x t)
  · rw [others x fresh, getElem?_setVariable_self]

end CellArray

abbrev cellAt (x : Number) : Expr := .pointer (.constant x)

section Calls

variable {setting : Setting} {frame : FrameId} {s s' after : Session} {x : Number} {text name : String}

theorem eventually_text (cells : s.HasCells x (Text.toCells text)) (small : text.length < 2 ^ 53)
    (function : String) :
    Eval.Eventually (fun fuel => Argument.text (setting.machineAt fuel) function [cellAt x] 0 frame) s
      (.ok text) s := by
  have address : setting.Gives frame s (.constant x) x := gives_constant x
  have listed := (eventually_listCells address cells (by rwa [Text.length_toCells])).map Text.ofCells
  rwa [Text.ofCells_toCells] at listed

theorem eventually_quote (function : String) :
    Eval.Eventually (fun fuel => Argument.text (setting.machineAt fuel) function [.quote text] 0 frame) s
      (.ok text) s := Eval.eventually_pure text s

def Builtin.Asks (builtin : Builtin) (goOn : Machine → String → Eval Number) : Prop :=
  builtin.arity = .exact 1 ∧ ∃ function, ∀ m args frame,
    builtin.handler m args frame = Argument.text m function args 0 frame >>= goOn m

def Setting.GoesOnAs (setting : Setting) (frame : FrameId) (s : Session) (e : Expr)
    (goOn : Nat → Eval Number) : Prop :=
  ∃ enough cost, ∀ fuel, enough ≤ fuel → ∀ spare,
    (setting.solve (fuel + 1) e frame).run ⟨cost + spare, s⟩ = (goOn fuel).run ⟨spare, s⟩

theorem goesOnAs_call {builtin : Builtin} {goOn : Machine → String → Eval Number} {arg : Expr}
    (found : setting.registry.find? name = some builtin) (asks : builtin.Asks goOn)
    (asked : ∀ function, Eval.Eventually
      (fun fuel => Argument.text (setting.machineAt fuel) function [arg] 0 frame) s (.ok text) s) :
    setting.GoesOnAs frame s (.call name [arg]) fun fuel => goOn (setting.machineAt fuel) text := by
  obtain ⟨arity, function, handles⟩ := asks
  obtain ⟨enough, cost, costs⟩ := asked function
  refine ⟨enough, 1 + cost, fun fuel most spare => ?_⟩
  have called : (setting.machineAt fuel).step setting.registry (.call name [arg]) frame =
      Argument.text (setting.machineAt fuel) function [arg] 0 frame >>= goOn (setting.machineAt fuel) := by
    rw [step_call found (by rw [arity]; rfl), handles]
  have ticked := Eval.costs_tick s (cost + spare)
  rw [← Nat.add_assoc] at ticked
  change (Eval.tick >>= fun _ => (setting.machineAt fuel).step setting.registry _ frame).run _ = _
  rw [Eval.run_bind, ticked]
  change ((setting.machineAt fuel).step setting.registry _ frame).run _ = _
  rw [called, Eval.run_bind, costs fuel most]
  rfl

variable (standard : setting.registry = .standard)
include standard

theorem ends_of_goesOnAs {e e' : Expr} {goOn : Nat → Eval Number} {result : Except RuntimeError Number}
    (first : setting.GoesOnAs frame s e goOn) (second : setting.GoesOnAs frame s e' goOn)
    (ends : Eval.Ends (setting.solve · e frame) s result after) :
    Eval.Ends (setting.solve · e' frame) s result after := by
  obtain ⟨enough, cost, runs⟩ := first
  obtain ⟨enough', cost', runs'⟩ := second
  obtain ⟨fuel, steps, left, ran⟩ := ends
  have le : fuel ≤ max fuel (max enough enough') + 1 := by omega
  have more := solve_more standard le ran cost
  rw [Nat.add_comm steps cost, runs _ (by omega)] at more
  exact ⟨_, cost' + steps, _, (runs' _ (by omega) steps).trans more⟩

theorem ends_call_iff {builtin : Builtin} {goOn : Machine → String → Eval Number}
    (cells : s.HasCells x (Text.toCells text)) (small : text.length < 2 ^ 53)
    (found : setting.registry.find? name = some builtin) (asks : builtin.Asks goOn)
    (result : Except RuntimeError Number) (after : Session) :
    Eval.Ends (setting.solve · (.call name [cellAt x]) frame) s result after ↔
      Eval.Ends (setting.solve · (.call name [.quote text]) frame) s result after := by
  have stored : setting.GoesOnAs frame s (.call name [cellAt x]) _ :=
    goesOnAs_call found asks (eventually_text cells small)
  have quoted : setting.GoesOnAs frame s (.call name [.quote text]) _ :=
    goesOnAs_call found asks eventually_quote
  exact ⟨ends_of_goesOnAs standard stored quoted, ends_of_goesOnAs standard quoted stored⟩

end Calls

section Text

variable {setting : Setting} {frame : FrameId} {s : Session} {x : Number} {text : String}

/-- The text is in memory at an address: it is what is read there, `len` is the number of its characters,
and the functions that take a text do with the pointer what they do with the quote. -/
structure HasText (setting : Setting) (frame : FrameId) (s : Session) (x : Number) (text : String) :
    Prop where
  read : ∀ engine : Engine, engine.session.globals = s.globals → ∃ enough, ∀ fuel, enough ≤ fuel →
    ∃ cells, engine.readArray fuel x = some (cells, engine) ∧ Text.ofCells cells = text
  len : setting.Gives frame s (.call "len" [cellAt x]) (.ofNat text.length)
  written : ∀ entry ∈ [("write", ""), ("writeline", "\n")], ∀ arg ∈ [cellAt x, .quote text],
    Eval.Eventually (setting.solve · (.call entry.1 [arg]) frame) s (.ok (.ofNat text.length))
      { s with console := s.console.write (text ++ entry.2) }
  run : ∀ result after,
    Eval.Ends (setting.solve · (.call "exec" [cellAt x]) frame) s result after ↔
      Eval.Ends (setting.solve · (.call "exec" [.quote text]) frame) s result after

theorem eventually_writeText {args : List Expr} (function lineEnd : String)
    (asked : Eval.Eventually (fun fuel => Argument.text (setting.machineAt fuel) function args 0 frame) s
      (.ok text) s) :
    Eval.Eventually (fun fuel => Builtin.writeText function lineEnd (setting.machineAt fuel) args frame) s
      (.ok (.ofNat text.length)) { s with console := s.console.write (text ++ lineEnd) } := by
  have writes := Eval.costs_update (fun s : Session =>
    ((), { s with console := s.console.write (text ++ lineEnd) })) s
  exact asked.andThen ((Eval.Costs.eventually fun _ => writes).andThen (Eval.eventually_pure _ _))

variable (standard : setting.registry = .standard)
include standard

theorem find_of_standard {name : String} {builtin : Builtin}
    (mem : (name, builtin) ∈ Builtin.standardTable) (low : Text.fold name = name) :
    setting.registry.find? name = some builtin := by
  rw [standard]
  exact Registry.find_standard mem low

theorem find_of_memoryTable {name : String} {builtin : Builtin} (mem : (name, builtin) ∈ Builtin.memoryTable) :
    setting.registry.find? name = some builtin := by
  have low : (Builtin.memoryTable.map Prod.fst).all (fun name => Text.fold name == name) = true := by
    decide +kernel
  have listed : (name, builtin) ∈ Builtin.standardTable := by
    rw [Builtin.standardTable]
    refine List.mem_append_left _ (List.mem_append_left _ (List.mem_append_left _ (List.mem_append_left _ ?_)))
    exact List.mem_append_right _ mem
  exact find_of_standard standard listed
    (beq_iff_eq.mp (List.all_eq_true.mp low name (List.mem_map_of_mem mem)))

variable (small : text.length < 2 ^ 53)
include small

theorem hasText_of_cells (cells : s.HasCells x (Text.toCells text)) : HasText setting frame s x text where
  read engine globals := by
    have pushed : (engine.session.push .main).HasCells x (Text.toCells text) := cells.congr globals
    obtain ⟨enough, reads⟩ := engine.eventually_inMainFrame
      (x := fun fuel => toList (engine.setting.machineAt fuel) (.pointer (.constant x)))
      (eventually_listCells (gives_constant x) pushed (by rwa [Text.length_toCells])) rfl
    refine ⟨enough, fun fuel most => ⟨Text.toCells text, ?_, Text.ofCells_toCells text⟩⟩
    unfold Engine.readArray
    simp only [reads fuel most]
    rfl
  len := by
    have found : setting.registry.find? "len" = some ⟨.exact 1, Builtin.len⟩ :=
      find_of_standard standard (by simp [Builtin.standardTable, Builtin.memoryTable]) (by decide +kernel)
    have address : setting.Gives frame s (.constant x) x := gives_constant x
    have length := eventually_lengthCell address cells
    rw [Text.length_toCells] at length
    exact eventually_call found rfl length
  written := by
    have found : ∀ entry ∈ [("write", ""), ("writeline", "\n")],
        setting.registry.find? entry.1 = some ⟨.exact 1, Builtin.writeText entry.1 entry.2⟩ := by
      simp only [List.forall_mem_cons, List.not_mem_nil, IsEmpty.forall_iff, implies_true, and_true]
      exact ⟨find_of_standard standard (by simp [Builtin.standardTable, Builtin.channelTable])
          (by decide +kernel),
        find_of_standard standard (by simp [Builtin.standardTable, Builtin.channelTable])
          (by decide +kernel)⟩
    intro entry mem arg given
    refine eventually_call (found entry mem) rfl (eventually_writeText _ _ ?_)
    rcases List.mem_cons.mp given with rfl | given
    · exact eventually_text cells small _
    · obtain rfl := List.mem_singleton.mp given
      exact eventually_quote _
  run := by
    have found : setting.registry.find? "exec" = some ⟨.exact 1, Builtin.exec⟩ :=
      find_of_standard standard (by simp [Builtin.standardTable, Builtin.programTable]) (by decide +kernel)
    exact ends_call_iff standard cells small found ⟨rfl, "exec", fun _ _ _ => rfl⟩

/-- A text that is allocated, or read from the input, at an address whose cells have different names is in
memory there. -/
theorem text_survives (apart : (arrayKeys x text.length).Nodup) :
    (∃ t, Eval.Eventually (setting.solve · (.call "alloc" [cellAt x, .quote text]) frame) s (.ok x) t ∧
      HasText setting frame t x text) ∧
    ∀ lines, s.console.input = text :: lines →
      ∃ t, Eval.Eventually (setting.solve · (.call "read" [cellAt x]) frame) s (.ok (.ofNat text.length)) t ∧
        t.console.input = lines ∧ HasText setting frame t x text := by
  have address (s : Session) : setting.Gives frame s (.constant x) x := gives_constant x
  have keys : (arrayKeys x (Text.toCells text).length).Nodup := by rwa [Text.length_toCells]
  refine ⟨?_, fun lines waits => ?_⟩
  · have found : setting.registry.find? "alloc" = some ⟨.atLeast 1, Builtin.alloc⟩ :=
      find_of_standard standard (by simp [Builtin.standardTable, Builtin.memoryTable]) (by decide +kernel)
    obtain ⟨t, allocates, cells, _⟩ := eventually_allocateCells (address s) keys
    exact ⟨t, eventually_call found rfl allocates, hasText_of_cells standard small cells⟩
  · have found : setting.registry.find? "read" = some ⟨.exact 1, Builtin.read⟩ :=
      find_of_standard standard (by simp [Builtin.standardTable, Builtin.channelTable]) (by decide +kernel)
    let s₁ : Session := { s with console := { s.console with input := lines } }
    have taken : Eval.readLine.Costs 1 s (.ok (some text)) s₁ := by
      have costs := Eval.costs_update (fun s : Session =>
        (s.console.readLine.1, { s with console := s.console.readLine.2 })) s
      simp only [Console.readLine, waits] at costs
      exact costs
    obtain ⟨t, allocates, cells, rest⟩ := eventually_allocateCells (address s₁) keys
    have reads : Eval.Eventually (fun fuel => Builtin.read (setting.machineAt fuel) [cellAt x] frame) s
        (.ok (.ofNat (Text.toCells text).length)) t :=
      (Eval.Costs.eventually fun _ => taken).andThen
        (allocates.map fun _ => Number.ofNat (Text.toCells text).length)
    rw [Text.length_toCells] at reads
    have left : t.console.input = lines := congrArg (·.console.input) rest
    exact ⟨t, eventually_call found rfl reads, left, hasText_of_cells standard small cells⟩

end Text

/-- `hi` at the address 100. -/
theorem text_survives_hi :
    let setting : Setting := ⟨.standard, true⟩
    let s := (Engine.new .standard (.withInput .buffer ["hi"])).session.push .main
    let x := Number.ofNat 100
    (∃ t, Eval.Eventually (setting.solve · (.call "alloc" [cellAt x, .quote "hi"]) 0) s (.ok x) t ∧
      HasText setting 0 t x "hi") ∧
    ∃ t, Eval.Eventually (setting.solve · (.call "read" [cellAt x]) 0) s (.ok (.ofNat 2)) t ∧
      t.console.input = [] ∧ HasText setting 0 t x "hi" := by
  intro setting s x
  have apart : (arrayKeys x 2).Nodup := by decide +kernel
  obtain ⟨allocated, read⟩ := @text_survives setting 0 s x "hi" rfl (by decide) apart
  exact ⟨allocated, read [] rfl⟩

end Calculator
