import Calculator.Builtin.Standard

/-! Registries made of tables. -/

namespace Calculator

namespace Registry

section Table

variable {P : String → Builtin → Prop} {table : List (String × Builtin)}
  (all : ∀ entry ∈ table, P entry.1 entry.2)
include all

theorem of_get_insertMany {registry : Registry}
    (kept : ∀ (key : String) builtin, registry[key]? = some builtin → P key builtin) (key : String)
    (builtin : Builtin) (found : (registry.insertMany table)[key]? = some builtin) :
    P key builtin := by
  induction table generalizing registry with
  | nil => exact kept key builtin (by simpa using found)
  | cons entry table ih =>
      rw [Std.TreeMap.insertMany_cons] at found
      apply ih (fun entry mem => all entry (.tail _ mem)) _ found
      intro key builtin found
      rw [Std.TreeMap.getElem?_insert] at found
      split at found
      · rename_i same
        obtain rfl := Option.some.inj found
        rw [← Std.LawfulEqCmp.eq_of_compare same]
        exact all entry (.head _)
      · exact kept key builtin found

theorem of_find_ofList (name : String) (builtin : Builtin)
    (found : find? (Std.TreeMap.ofList table) name = some builtin) : P (Text.fold name) builtin := by
  rw [find?, Std.TreeMap.ofList_eq_insertMany_empty] at found
  exact of_get_insertMany all (by simp) _ builtin found

end Table

theorem standard_names_nodup : (Builtin.standardTable.map Prod.fst).Nodup := by
  decide +kernel

theorem get_standard {key : String} {builtin : Builtin} (mem : (key, builtin) ∈ Builtin.standardTable) :
    standard[key]? = some builtin := by
  refine Std.TreeMap.getElem?_ofList_of_mem Std.ReflCmp.compare_self ?_ mem
  refine List.Pairwise.imp ?_ (List.pairwise_map.mp standard_names_nodup)
  intro entry other different same
  exact different (Std.LawfulEqCmp.eq_of_compare same)

theorem find_standard {key name : String} {builtin : Builtin}
    (mem : (key, builtin) ∈ Builtin.standardTable) (folded : Text.fold name = key) :
    standard.find? name = some builtin := by
  rw [find?, folded]
  exact get_standard mem

theorem isFunction_eq (registry : Registry) (name : String) :
    registry.isFunction name = (registry.find? name).isSome :=
  Std.TreeMap.contains_eq_isSome_getElem?

theorem find_register (registry : Registry) (key name : String) (builtin : Builtin) :
    (registry.register key builtin).find? name =
      if Text.fold key = Text.fold name then some builtin else registry.find? name := by
  rw [find?, register, Std.TreeMap.getElem?_insert]
  simp only [Std.LawfulEqCmp.compare_eq_iff_eq]
  rfl

end Registry

end Calculator
