import NativeBindings.Native.DeclMap
import NativeBindings.Proofs.Data.SlotMap

namespace NativeBindings

/-! # Tables made from declarations

A table is known by the declarations that it lists, and of those it is made from it lists
the last with each identity.
-/

namespace DeclMap

variable {α : Type} {id : α → DeclId}

theorem entries_eq (map : DeclMap id) :
    map.slots.entries = map.values.map fun decl => (id decl, decl) := by
  rw [values, ← SlotMap.values_entries, List.map_map]
  refine (List.map_id _).symm.trans (List.map_congr_left fun entry member => ?_)
  exact Prod.ext (map.identified entry member).symm rfl

theorem map_id_values (map : DeclMap id) : map.values.map id = map.slots.keys := by
  rw [← SlotMap.keys_entries, entries_eq, List.map_map]
  rfl

theorem nodup_ids (map : DeclMap id) : (map.values.map id).Nodup := by
  rw [map_id_values]
  exact map.slots.inStep.distinct

/-- A table is known by the declarations it lists. -/
theorem values_injective : Function.Injective (values : DeclMap id → List α) := by
  intro map other same
  have slots : map.slots = other.slots :=
    SlotMap.entries_injective (by rw [map.entries_eq, other.entries_eq, same])
  obtain ⟨_, _⟩ := map
  cases slots
  rfl

@[simp] theorem values_empty : (∅ : DeclMap id).values = [] := rfl

theorem slots_ofList (decls : List α) :
    (ofList decls : DeclMap id).slots =
      SlotMap.insertAll ∅ (decls.map fun decl => (id decl, decl)) := by
  have onward (map : DeclMap id) : (decls.foldl insert map).slots =
      map.slots.insertAll (decls.map fun decl => (id decl, decl)) := by
    induction decls generalizing map with
    | nil => rfl
    | cons decl rest ih => exact ih (map.insert decl)
  exact onward ∅

theorem entries_ofList (decls : List α) : (ofList decls : DeclMap id).slots.entries =
    storeAll [] (decls.map fun decl => (id decl, decl)) := by
  rw [slots_ofList, SlotMap.entries_insertAll]
  rfl

theorem get?_ofList (decls : List α) (wanted : DeclId) :
    (ofList decls : DeclMap id).get? wanted = (decls.filter (id · = wanted)).getLast? := by
  rw [get?, SlotMap.get?_eq, entries_ofList, valueOf?_storeAll, lastInserted?, List.filter_map,
    List.getLast?_map, Option.map_map]
  exact Option.map_id'

theorem ids_ofList (decls : List α) :
    (ofList decls : DeclMap id).values.map id = (decls.map id).eraseDups := by
  rw [map_id_values, ← SlotMap.keys_entries, entries_ofList, keys_storeAll, List.map_map]
  rfl

/-- Declarations with different identities are listed as they come. -/
theorem values_ofList {decls : List α} (distinct : (decls.map id).Nodup) :
    (ofList decls : DeclMap id).values = decls := by
  have fresh : ((([] : List (DeclId × α)) ++ decls.map fun decl => (id decl, decl)).map
      (·.1)).Nodup := by
    rw [List.nil_append, List.map_map]
    exact distinct
  rw [values, ← SlotMap.values_entries, entries_ofList, storeAll_of_fresh fresh, List.nil_append,
    List.map_map]
  exact List.map_id' decls

/-- A table is made again from what it lists. -/
theorem ofList_values (map : DeclMap id) : ofList map.values = map :=
  values_injective (values_ofList map.nodup_ids)

end DeclMap

end NativeBindings
