import NativeBindings.Data.SlotMap
import NativeBindings.Native.Declaration

namespace NativeBindings

/-! # Tables of declarations

A table keeps declarations of one kind, each in the slot of its own identity, so
what is found under an identity carries it.
-/

/-- Declarations by their identities, in the order in which these were first seen. -/
structure DeclMap {α : Type} (id : α → DeclId) where
  slots : SlotMap DeclId α
  identified : ∀ entry ∈ slots.entries, id entry.2 = entry.1

namespace DeclMap

variable {α : Type} {id : α → DeclId}

instance : EmptyCollection (DeclMap id) := ⟨⟨∅, nofun⟩⟩

instance : Inhabited (DeclMap id) := ⟨∅⟩

def values (map : DeclMap id) : List α := map.slots.values

def size (map : DeclMap id) : Nat := map.slots.size

def get? (map : DeclMap id) (wanted : DeclId) : Option α := map.slots.get? wanted

/-- Adds a declaration, in the slot of an earlier one with its identity. -/
def insert (map : DeclMap id) (decl : α) : DeclMap id where
  slots := map.slots.insert (id decl) decl
  identified := by
    intro entry member
    rw [SlotMap.entries_insert] at member
    rcases mem_storeEntry member with rfl | old
    · rfl
    · exact map.identified entry old

def ofList (decls : List α) : DeclMap id := decls.foldl insert ∅

theorem id_of_get? {map : DeclMap id} {wanted : DeclId} {decl : α}
    (found : map.get? wanted = some decl) : id decl = wanted :=
  map.identified _ (SlotMap.mem_entries_of_get? found)

theorem mem_values_of_get? {map : DeclMap id} {wanted : DeclId} {decl : α}
    (found : map.get? wanted = some decl) : decl ∈ map.values := by
  rw [values, ← SlotMap.values_entries]
  exact List.mem_map_of_mem (SlotMap.mem_entries_of_get? found)

theorem length_values (map : DeclMap id) : map.values.length = map.size := rfl

/-- A declaration of a table is found under its own identity. -/
theorem get?_of_mem_values {map : DeclMap id} {decl : α} (member : decl ∈ map.values) :
    map.get? (id decl) = some decl := by
  rw [values, ← SlotMap.values_entries] at member
  obtain ⟨entry, listed, rfl⟩ := List.mem_map.mp member
  rw [map.identified entry listed]
  exact SlotMap.get?_of_mem_entries listed

end DeclMap

end NativeBindings
