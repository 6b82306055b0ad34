import NativeBindings.Data.Entries

namespace NativeBindings

/-! # Maps in the order of first insertion

A map keeps its values in slots, numbered from zero in the order in which their keys
were first seen, and apart from them the slot of each key.  Storing under a known key
replaces the value in its slot.  A reader of the whole map sees a list of entries, in
the order of the slots.
-/

/-- Values in their slots, and apart from them the slots that keys own.  That the two
agree is left to those who store. -/
structure SlotTable (κ α : Type) where
  storage : List α := []
  slotOf : List (κ × Nat) := []
  deriving DecidableEq

namespace SlotTable

variable {κ α : Type}

def keys (table : SlotTable κ α) : List κ := table.slotOf.map (·.1)

/-- What a reader of the whole table sees. -/
def entries (table : SlotTable κ α) : List (κ × α) := table.keys.zip table.storage

/-- Is there a key for every slot, and one only? -/
structure InStep (table : SlotTable κ α) : Prop where
  numbered : table.slotOf.map (·.2) = List.range table.storage.length
  distinct : table.keys.Nodup

variable [DecidableEq κ] {table : SlotTable κ α} {key : κ}

def slot? (table : SlotTable κ α) (key : κ) : Option Nat := valueOf? key table.slotOf

def get? (table : SlotTable κ α) (key : κ) : Option α :=
  (table.slot? key).bind (table.storage[·]?)

/-- Stores `value` in the slot that `key` owns, or else in a new one, and tells the slot. -/
def put (table : SlotTable κ α) (key : κ) (value : α) : Nat × SlotTable κ α :=
  match table.slot? key with
  | some slot => (slot, { table with storage := table.storage.set slot value })
  | none =>
      let slot := table.storage.length
      (slot, {
        storage := table.storage ++ [value]
        slotOf := storeEntry key slot table.slotOf })

theorem put_of_some {slot : Nat} (owned : table.slot? key = some slot) (value : α) :
    table.put key value = (slot, { table with storage := table.storage.set slot value }) := by
  rw [put, owned]

theorem put_of_none (unknown : table.slot? key = none) (value : α) :
    table.put key value = (table.storage.length, {
      storage := table.storage ++ [value]
      slotOf := table.slotOf ++ [(key, table.storage.length)] }) := by
  have fresh : storeEntry key table.storage.length table.slotOf =
      table.slotOf ++ [(key, table.storage.length)] :=
    storeEntry_of_notMem (valueOf?_eq_none_iff.mp unknown)
  simp only [put, unknown, fresh]

namespace InStep

omit [DecidableEq κ] in
theorem empty : ({} : SlotTable κ α).InStep := ⟨rfl, List.nodup_nil⟩

omit [DecidableEq κ] in
theorem length_keys (inStep : table.InStep) : table.keys.length = table.storage.length := by
  rw [keys, List.length_map, ← List.length_map (·.2), inStep.numbered, List.length_range]

omit [DecidableEq κ] in
theorem slotOf_eq (inStep : table.InStep) :
    table.slotOf = table.keys.zip (List.range table.storage.length) := by
  rw [← inStep.numbered, keys]
  exact (List.zip_unzip table.slotOf).symm.trans (by rw [List.unzip_eq_map])

theorem slot?_eq (inStep : table.InStep) (key : κ) : table.slot? key = table.keys.idxOf? key := by
  rw [slot?, inStep.slotOf_eq, valueOf?_zip]
  cases found : table.keys.idxOf? key with
  | none => rfl
  | some slot =>
      have within : slot < table.keys.length :=
        (List.idxOf?_eq_some_iff.mp found).1
      exact List.getElem?_range (by rwa [inStep.length_keys] at within)

theorem lt_length (inStep : table.InStep) {slot : Nat} (owned : table.slot? key = some slot) :
    slot < table.storage.length := by
  rw [inStep.slot?_eq] at owned
  rw [← inStep.length_keys]
  exact (List.idxOf?_eq_some_iff.mp owned).1

theorem get?_eq (inStep : table.InStep) (key : κ) :
    table.get? key = valueOf? key table.entries := by
  rw [get?, inStep.slot?_eq, entries, valueOf?_zip]

omit [DecidableEq κ] in
theorem keys_entries (inStep : table.InStep) : table.entries.map (·.1) = table.keys :=
  List.map_fst_zip (Nat.le_of_eq inStep.length_keys)

omit [DecidableEq κ] in
theorem values_entries (inStep : table.InStep) : table.entries.map (·.2) = table.storage :=
  List.map_snd_zip (Nat.le_of_eq inStep.length_keys.symm)

/-- However a value is stored, slots and keys stay in step. -/
theorem put (inStep : table.InStep) (key : κ) (value : α) : (table.put key value).2.InStep := by
  cases owned : table.slot? key with
  | some slot =>
      rw [put_of_some owned]
      refine ⟨?_, inStep.distinct⟩
      rw [List.length_set]
      exact inStep.numbered
  | none =>
      rw [put_of_none owned]
      constructor
      · rw [List.map_append, inStep.numbered, List.length_append, List.length_singleton,
          List.range_succ]
        rfl
      · rw [keys, List.map_append]
        refine List.nodup_append.mpr ⟨inStep.distinct, by simp, ?_⟩
        rintro _ member _ fresh rfl
        rw [List.map_singleton, List.mem_singleton] at fresh
        subst fresh
        exact valueOf?_eq_none_iff.mp owned member

/-- Storing does to the two parts of a table what it does to a list of entries. -/
theorem entries_put (inStep : table.InStep) (key : κ) (value : α) :
    (table.put key value).2.entries = storeEntry key value table.entries := by
  cases owned : table.slot? key with
  | some slot =>
      rw [put_of_some owned]
      exact (storeEntry_zip (inStep.slot?_eq key ▸ owned) (inStep.lt_length owned)).symm
  | none =>
      have unknown : key ∉ table.entries.map (·.1) := by
        rw [inStep.keys_entries]
        exact valueOf?_eq_none_iff.mp owned
      rw [put_of_none owned, storeEntry_of_notMem unknown, entries, keys, List.map_append,
        List.zip_append (by simpa [keys] using inStep.length_keys)]
      rfl

end InStep

end SlotTable

/-- A table that is in step. -/
structure SlotMap (κ α : Type) where
  table : SlotTable κ α
  inStep : table.InStep

namespace SlotMap

variable {κ α : Type}

instance : EmptyCollection (SlotMap κ α) := ⟨⟨{}, .empty⟩⟩

instance : Inhabited (SlotMap κ α) := ⟨∅⟩

def entries (map : SlotMap κ α) : List (κ × α) := map.table.entries

def keys (map : SlotMap κ α) : List κ := map.table.keys

def values (map : SlotMap κ α) : List α := map.table.storage

def size (map : SlotMap κ α) : Nat := map.table.storage.length

def isEmpty (map : SlotMap κ α) : Bool := map.size = 0

def at? (map : SlotMap κ α) (slot : Nat) : Option α := map.table.storage[slot]?

/-- Stores `value` in a slot that a key owns. -/
def set (map : SlotMap κ α) (slot : Nat) (value : α) : SlotMap κ α where
  table := { map.table with storage := map.table.storage.set slot value }
  inStep := ⟨by rw [List.length_set]; exact map.inStep.numbered, map.inStep.distinct⟩

variable [DecidableEq κ]

def get? (map : SlotMap κ α) (key : κ) : Option α := map.table.get? key

def slot? (map : SlotMap κ α) (key : κ) : Option Nat := map.table.slot? key

def contains (map : SlotMap κ α) (key : κ) : Bool := (map.slot? key).isSome

def put (map : SlotMap κ α) (key : κ) (value : α) : Nat × SlotMap κ α :=
  ((map.table.put key value).1, ⟨(map.table.put key value).2, map.inStep.put key value⟩)

/-- Stores `value` under `key`: in the slot the key owns, or in a new last one. -/
def insert (map : SlotMap κ α) (key : κ) (value : α) : SlotMap κ α := (map.put key value).2

/-- Changes what is stored under `key`; an unknown key is left alone. -/
def modify (map : SlotMap κ α) (key : κ) (change : α → α) : SlotMap κ α :=
  match map.slot? key with
  | some slot => ((map.at? slot).map fun value => map.set slot (change value)).getD map
  | none => map

variable {map : SlotMap κ α} {key : κ}

omit [DecidableEq κ] in
theorem keys_entries (map : SlotMap κ α) : map.entries.map (·.1) = map.keys :=
  map.inStep.keys_entries

omit [DecidableEq κ] in
theorem values_entries (map : SlotMap κ α) : map.entries.map (·.2) = map.values :=
  map.inStep.values_entries

theorem get?_eq (map : SlotMap κ α) (key : κ) : map.get? key = valueOf? key map.entries :=
  map.inStep.get?_eq key

theorem get?_eq_none_iff : map.get? key = none ↔ key ∉ map.keys := by
  rw [get?_eq, valueOf?_eq_none_iff, keys_entries]

theorem mem_entries_of_get? {value : α} (found : map.get? key = some value) :
    (key, value) ∈ map.entries :=
  mem_of_valueOf? (map.get?_eq key ▸ found)

theorem mem_keys_of_get? {value : α} (found : map.get? key = some value) : key ∈ map.keys :=
  map.keys_entries ▸ List.mem_map_of_mem (mem_entries_of_get? found)

theorem get?_of_mem_entries {entry : κ × α} (member : entry ∈ map.entries) :
    map.get? entry.1 = some entry.2 := by
  rw [get?_eq]
  exact valueOf?_of_mem (map.keys_entries ▸ map.inStep.distinct) member

theorem entries_insert (map : SlotMap κ α) (key : κ) (value : α) :
    (map.insert key value).entries = storeEntry key value map.entries :=
  map.inStep.entries_put key value

theorem keys_insert (map : SlotMap κ α) (key : κ) (value : α) :
    (map.insert key value).keys = if key ∈ map.keys then map.keys else map.keys ++ [key] := by
  rw [← keys_entries, entries_insert, keys_storeEntry, keys_entries]

theorem get?_insert (map : SlotMap κ α) (key wanted : κ) (value : α) :
    (map.insert key value).get? wanted = if key = wanted then some value else map.get? wanted := by
  rw [get?_eq, entries_insert, valueOf?_storeEntry, ← get?_eq]

end SlotMap

end NativeBindings
