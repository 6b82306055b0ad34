import Mathlib.Data.List.Induction
import Mathlib.Data.List.Nodup
import Mathlib.Data.Set.Function
import Mathlib.Order.Interval.Set.Defs
import NativeBindings.Data.SlotMap

namespace NativeBindings

/-! # What slot maps remember

A table is filled by one insertion after the other, and each of them tells a slot.  The
two parts of the table never part: together they are the list of entries that the same
insertions make.  So under a key stands what was inserted under it last, keys are in the
order in which they came first, and the slot that a key was given then stays its own,
whatever is inserted later.
-/

section Entries

variable {κ α : Type} [DecidableEq κ]

/-- A list of entries after some insertions more. -/
def storeAll (entries inserts : List (κ × α)) : List (κ × α) :=
  inserts.foldl (fun entries entry => storeEntry entry.1 entry.2 entries) entries

/-- What some insertions left under a key: the last of its values. -/
def lastInserted? (key : κ) (inserts : List (κ × α)) : Option α :=
  (inserts.filter (·.1 = key)).getLast?.map (·.2)

theorem storeAll_concat (entries inserts : List (κ × α)) (entry : κ × α) :
    storeAll entries (inserts ++ [entry]) =
      storeEntry entry.1 entry.2 (storeAll entries inserts) := by
  rw [storeAll, List.foldl_append]
  rfl

theorem lastInserted?_concat (key : κ) (inserts : List (κ × α)) (entry : κ × α) :
    lastInserted? key (inserts ++ [entry]) =
      if entry.1 = key then some entry.2 else lastInserted? key inserts := by
  rw [lastInserted?, List.filter_append]
  by_cases same : entry.1 = key <;> simp [same, lastInserted?]

theorem valueOf?_storeAll (key : κ) (inserts : List (κ × α)) :
    valueOf? key (storeAll [] inserts) = lastInserted? key inserts := by
  induction inserts using List.reverseRecOn with
  | nil => rfl
  | append_singleton inserts entry ih =>
      rw [storeAll_concat, valueOf?_storeEntry, lastInserted?_concat, ih]

theorem keys_storeAll (inserts : List (κ × α)) :
    (storeAll [] inserts).map (·.1) = (inserts.map (·.1)).eraseDups := by
  induction inserts using List.reverseRecOn with
  | nil => rfl
  | append_singleton inserts entry ih =>
      rw [storeAll_concat, keys_storeEntry, ih, List.map_append, List.eraseDups_append]
      by_cases known : entry.1 ∈ inserts.map (·.1) <;>
        simp [known, List.removeAll, List.eraseDups_cons]

/-- Under keys that are new and different, entries are added as they come. -/
theorem storeAll_of_fresh {entries inserts : List (κ × α)}
    (fresh : ((entries ++ inserts).map (·.1)).Nodup) :
    storeAll entries inserts = entries ++ inserts := by
  induction inserts using List.reverseRecOn with
  | nil => exact (List.append_nil _).symm
  | append_singleton inserts entry ih =>
      rw [← List.append_assoc, List.map_append] at fresh
      obtain ⟨earlier, -, apart⟩ := List.nodup_append.mp fresh
      have new : entry.1 ∉ (entries ++ inserts).map (·.1) :=
        fun old => apart _ old _ List.mem_cons_self rfl
      rw [storeAll_concat, ih earlier, storeEntry_of_notMem new, List.append_assoc]

end Entries

namespace SlotTable

variable {κ α : Type} [DecidableEq κ] {table : SlotTable κ α} {key : κ} {slot : Nat}

/-- The slots that some insertions tell one after the other, and the table behind them. -/
def putAll (table : SlotTable κ α) : List (κ × α) → List Nat × SlotTable κ α
  | [] => ([], table)
  | entry :: rest =>
      let (slot, table) := table.put entry.1 entry.2
      let (slots, table) := table.putAll rest
      (slot :: slots, table)

/-- What a table is after some insertions into the empty one, and what these told. -/
structure Remembers (told : List Nat) (table : SlotTable κ α) (inserts : List (κ × α)) :
    Prop where
  inStep : table.InStep
  simulates : table.entries = storeAll [] inserts
  found : ∀ key, table.get? key = lastInserted? key inserts
  /-- The values are those of the keys, in the order in which these were first inserted. -/
  values : table.storage.map some =
    (inserts.map (·.1)).eraseDups.map fun key => lastInserted? key inserts
  /-- Each inserted key has a slot of its own, and each slot is one of theirs. -/
  slots : Set.BijOn table.slot? { key | key ∈ inserts.map (·.1) }
    (some '' Set.Iio table.storage.length)
  unknown : ∀ key, key ∉ inserts.map (·.1) → table.slot? key = none
  /-- An insertion tells the slot that its key has from then on. -/
  told : told.map some = inserts.map fun entry => table.slot? entry.1
  stays : ∀ key slot, table.slot? key = some slot →
    ∀ more, (table.putAll more).2.slot? key = some slot

theorem slot?_put (table : SlotTable κ α) (key : κ) (value : α) :
    (table.put key value).2.slot? key = some (table.put key value).1 := by
  cases owned : table.slot? key with
  | some slot =>
      rw [put_of_some owned]
      exact owned
  | none =>
      rw [put, owned]
      exact (valueOf?_storeEntry ..).trans (if_pos rfl)

theorem slot?_put_of_some (owned : table.slot? key = some slot) (other : κ) (value : α) :
    (table.put other value).2.slot? key = some slot := by
  cases known : table.slot? other with
  | some place =>
      rw [put_of_some known]
      exact owned
  | none =>
      have different : other ≠ key := by
        rintro rfl
        cases known.symm.trans owned
      rw [put, known]
      exact (valueOf?_storeEntry ..).trans ((if_neg different).trans owned)

theorem slot?_putAll (owned : table.slot? key = some slot) (inserts : List (κ × α)) :
    (table.putAll inserts).2.slot? key = some slot := by
  induction inserts generalizing table with
  | nil => exact owned
  | cons entry rest ih => exact ih (slot?_put_of_some owned entry.1 entry.2)

theorem told_putAll (table : SlotTable κ α) (inserts : List (κ × α)) :
    (table.putAll inserts).1.map some =
      inserts.map fun entry => (table.putAll inserts).2.slot? entry.1 := by
  induction inserts generalizing table with
  | nil => rfl
  | cons entry rest ih =>
      rw [putAll, List.map_cons, List.map_cons, ih]
      exact congrArg (· :: _) (slot?_putAll (slot?_put table entry.1 entry.2) rest).symm

namespace InStep

theorem putAll (inStep : table.InStep) (inserts : List (κ × α)) :
    (table.putAll inserts).2.InStep := by
  induction inserts generalizing table with
  | nil => exact inStep
  | cons entry rest ih => exact ih (inStep.put entry.1 entry.2)

/-- A whole run of insertions does to a table what it does to a list of entries. -/
theorem entries_putAll (inStep : table.InStep) (inserts : List (κ × α)) :
    (table.putAll inserts).2.entries = storeAll table.entries inserts := by
  induction inserts generalizing table with
  | nil => rfl
  | cons entry rest ih =>
      rw [storeAll, List.foldl_cons, ← inStep.entries_put]
      exact ih (inStep.put entry.1 entry.2)

theorem slot?_eq_some_iff (inStep : table.InStep) :
    table.slot? key = some slot ↔ table.keys[slot]? = some key := by
  rw [inStep.slot?_eq, List.idxOf?_eq_some_iff, List.getElem?_eq_some_iff]
  constructor
  · rintro ⟨within, here, -⟩
    exact ⟨within, here⟩
  · rintro ⟨within, here⟩
    refine ⟨within, here, fun earlier less same => ?_⟩
    exact Nat.ne_of_lt less
      ((List.Nodup.getElem_inj_iff inStep.distinct).mp (same.trans here.symm))

theorem slot?_eq_none_iff (inStep : table.InStep) : table.slot? key = none ↔ key ∉ table.keys := by
  rw [inStep.slot?_eq, List.idxOf?_eq_none_iff]

theorem bijOn_slot? (inStep : table.InStep) :
    Set.BijOn table.slot? { key | key ∈ table.keys } (some '' Set.Iio table.storage.length) := by
  have owns {key : κ} (member : key ∈ table.keys) : ∃ slot, table.slot? key = some slot :=
    Option.ne_none_iff_exists'.mp fun none => inStep.slot?_eq_none_iff.mp none member
  refine ⟨fun key member => ?_, fun key _ other member same => ?_, ?_⟩
  · obtain ⟨slot, owned⟩ := owns member
    exact ⟨slot, inStep.lt_length owned, owned.symm⟩
  · obtain ⟨slot, owned⟩ := owns member
    have here := inStep.slot?_eq_some_iff.mp (same.trans owned)
    exact Option.some.inj (here.symm.trans (inStep.slot?_eq_some_iff.mp owned))
  · rintro _ ⟨slot, within, rfl⟩
    have listed : slot < table.keys.length := by rwa [inStep.length_keys]
    refine ⟨table.keys[slot], List.getElem_mem listed, ?_⟩
    exact inStep.slot?_eq_some_iff.mpr (List.getElem?_eq_getElem listed)

/-- Each value is the one that is found under the key of its slot. -/
theorem map_some_storage (inStep : table.InStep) :
    table.storage.map some = table.keys.map table.get? := by
  rw [← inStep.values_entries, ← inStep.keys_entries, List.map_map, List.map_map]
  refine List.map_congr_left fun entry member => ?_
  have distinct : (table.entries.map (·.1)).Nodup := inStep.keys_entries ▸ inStep.distinct
  exact (valueOf?_of_mem distinct member).symm.trans (inStep.get?_eq entry.1).symm

end InStep

theorem remembers_putAll (inserts : List (κ × α)) :
    Remembers (putAll {} inserts).1 (putAll {} inserts).2 inserts := by
  have inStep : (putAll {} inserts).2.InStep := InStep.empty.putAll inserts
  have simulates : (putAll {} inserts).2.entries = storeAll [] inserts :=
    InStep.empty.entries_putAll inserts
  have found (key : κ) : (putAll {} inserts).2.get? key = lastInserted? key inserts := by
    rw [inStep.get?_eq, simulates, valueOf?_storeAll]
  have keys : (putAll {} inserts).2.keys = (inserts.map (·.1)).eraseDups := by
    rw [← inStep.keys_entries, simulates, keys_storeAll]
  refine ⟨inStep, simulates, found, ?_, ?_, fun key other => ?_, told_putAll _ _,
    fun _ _ => slot?_putAll⟩
  · rw [inStep.map_some_storage, keys]
    exact List.map_congr_left fun key _ => found key
  · have listed :
        { key | key ∈ inserts.map (·.1) } = { key | key ∈ (putAll {} inserts).2.keys } := by
      simp only [keys, List.mem_eraseDups]
    rw [listed]
    exact inStep.bijOn_slot?
  · rwa [inStep.slot?_eq_none_iff, keys, List.mem_eraseDups]

example : putAll {} [("a", 1), ("b", 2), ("a", 3)] =
    ([0, 1, 0], { storage := [3, 2], slotOf := [("a", 0), ("b", 1)] }) := by decide

end SlotTable

namespace SlotMap

variable {κ α : Type}

/-- A map is known by its entries. -/
theorem entries_injective : Function.Injective (entries : SlotMap κ α → List (κ × α)) := by
  intro map other same
  have storage : map.table.storage = other.table.storage := by
    rw [← map.inStep.values_entries, ← other.inStep.values_entries]
    exact congrArg (List.map (·.2)) same
  have keys : map.table.keys = other.table.keys := by
    rw [← map.inStep.keys_entries, ← other.inStep.keys_entries]
    exact congrArg (List.map (·.1)) same
  have slotOf : map.table.slotOf = other.table.slotOf := by
    rw [map.inStep.slotOf_eq, other.inStep.slotOf_eq, keys, storage]
  obtain ⟨⟨_, _⟩, _⟩ := map
  obtain ⟨⟨_, _⟩, _⟩ := other
  cases storage
  cases slotOf
  rfl

variable [DecidableEq κ]

/-- A map after some insertions more. -/
def insertAll (map : SlotMap κ α) (inserts : List (κ × α)) : SlotMap κ α where
  table := (map.table.putAll inserts).2
  inStep := map.inStep.putAll inserts

theorem entries_insertAll (map : SlotMap κ α) (inserts : List (κ × α)) :
    (map.insertAll inserts).entries = storeAll map.entries inserts :=
  map.inStep.entries_putAll inserts

end SlotMap

end NativeBindings
