import Mathlib.Data.List.Nodup
import Mathlib.Data.List.Perm.Basic
import NativeBindings.Data.SortedMap

namespace NativeBindings

/-! # Sorted maps as wholes

A sorted map is known by its look-ups.  Keys may be renamed if their order stays: what
is put into a map before they are renamed can as well be put in afterwards.
-/

theorem valueOf?_append {κ α : Type} [DecidableEq κ] (wanted : κ) (entries more : List (κ × α)) :
    valueOf? wanted (entries ++ more) = (valueOf? wanted entries).or (valueOf? wanted more) := by
  induction entries with
  | nil => rfl
  | cons entry rest ih =>
      rw [List.cons_append, valueOf?, valueOf?, ih]
      split <;> rfl

namespace SortedMap

theorem entries_injective {κ α : Type} [SortKey κ] :
    Function.Injective (entries : SortedMap κ α → List (κ × α)) := by
  rintro ⟨_, _⟩ ⟨_, _⟩ rfl
  rfl

section InsertAll

variable {κ α : Type} [SortKey κ]

/-- The entries of a list, put into a map one after the other. -/
def insertAll (map : SortedMap κ α) (entries : List (κ × α)) : SortedMap κ α :=
  entries.foldl (fun result entry => result.insert entry.1 entry.2) map

theorem insertAll_append (map : SortedMap κ α) (entries more : List (κ × α)) :
    map.insertAll (entries ++ more) = (map.insertAll entries).insertAll more :=
  List.foldl_append

end InsertAll

section Lookup

variable {κ α : Type} [SortKey κ] [DecidableEq κ] {map other : SortedMap κ α}

/-- A key has an entry if something is found under it. -/
theorem mem_keys_iff_exists {map : SortedMap κ α} {key : κ} :
    key ∈ map.keys ↔ ∃ value, map.get? key = some value :=
  mem_keys_iff.trans Option.ne_none_iff_exists'

theorem mem_entries_iff {entry : κ × α} :
    entry ∈ map.entries ↔ map.get? entry.1 = some entry.2 :=
  ⟨valueOf?_of_mem map.nodup_keys, mem_of_valueOf?⟩

/-- Maps that answer every look-up alike are equal. -/
theorem ext_get? (same : ∀ key, map.get? key = other.get? key) : map = other := by
  have members (entry : κ × α) : entry ∈ map.entries ↔ entry ∈ other.entries := by
    rw [mem_entries_iff, mem_entries_iff, same]
  have nodup (map : SortedMap κ α) : map.entries.Nodup := List.Nodup.of_map _ map.nodup_keys
  have perm : map.entries.Perm other.entries :=
    (List.perm_ext_iff_of_nodup (nodup map) (nodup other)).mpr members
  refine entries_injective (perm.eq_of_pairwise (fun first second _ _ before after => ?_)
    map.ascending other.ascending)
  have loop := SortKey.trans before after
  rw [SortKey.irrefl] at loop
  cases loop

theorem get?_insertAll_of_notMem {entries : List (κ × α)} {key : κ}
    (missing : key ∉ entries.map (·.1)) : (map.insertAll entries).get? key = map.get? key := by
  induction entries generalizing map with
  | nil => rfl
  | cons entry rest ih =>
      rw [List.map_cons, List.mem_cons, not_or] at missing
      have step : (map.insertAll (entry :: rest)).get? key = _ := ih missing.2
      rw [step, get?_insert, if_neg (Ne.symm missing.1)]

/-- A key of the list is found with its last value there. -/
theorem get?_insertAll_of_mem {entries : List (κ × α)} {key : κ}
    (member : key ∈ entries.map (·.1)) :
    (map.insertAll entries).get? key = (other.insertAll entries).get? key := by
  induction entries generalizing map other with
  | nil => cases member
  | cons entry rest ih =>
      change ((map.insert _ _).insertAll rest).get? key =
        ((other.insert _ _).insertAll rest).get? key
      by_cases later : key ∈ rest.map (·.1)
      · exact ih later
      · have here : entry.1 = key := by simpa [later, eq_comm] using member
        rw [get?_insertAll_of_notMem later, get?_insertAll_of_notMem later, get?_insert,
          get?_insert, if_pos here, if_pos here]

/-- A key of the list whose entries all have one value is found with that value. -/
theorem get?_insertAll_of_forall {entries : List (κ × α)} {key : κ} {value : α}
    (member : key ∈ entries.map (·.1)) (one : ∀ other, (key, other) ∈ entries → other = value) :
    (map.insertAll entries).get? key = some value := by
  have same : (map.insertAll entries).get? key =
      ((∅ : SortedMap κ α).insertAll entries).get? key := get?_insertAll_of_mem member
  have known : key ∈ ((∅ : SortedMap κ α).insertAll entries).keys :=
    mem_keys_foldl_insert.mpr (.inr member)
  obtain ⟨other, found⟩ := mem_keys_iff_exists.mp known
  rw [same, ← one other ((get?_foldl_insert found).resolve_right nofun)]
  exact found

/-- Entries that agree where they share a key are found as they were put in. -/
theorem get?_insertAll_iff {entries : List (κ × α)} {key : κ} {value : α}
    (agree : ∀ first ∈ entries, ∀ second ∈ entries, first.1 = second.1 → first = second) :
    ((∅ : SortedMap κ α).insertAll entries).get? key = some value ↔ (key, value) ∈ entries := by
  refine ⟨fun found => (get?_foldl_insert found).resolve_right nofun, fun member => ?_⟩
  refine get?_insertAll_of_forall (List.mem_map_of_mem member) fun other there => ?_
  exact congrArg Prod.snd (agree _ there _ member rfl)

/-- Putting the same entries in again changes nothing. -/
theorem insertAll_insertAll (map : SortedMap κ α) (entries : List (κ × α)) :
    (map.insertAll entries).insertAll entries = map.insertAll entries := by
  refine ext_get? fun key => ?_
  by_cases member : key ∈ entries.map (·.1)
  · exact get?_insertAll_of_mem member
  · exact get?_insertAll_of_notMem member

@[simp] theorem get?_empty (key : κ) : (∅ : SortedMap κ α).get? key = none := rfl

/-- Of all entries that were put in under a key, the last is found. -/
theorem get?_insertAll (map : SortedMap κ α) (entries : List (κ × α)) (key : κ) :
    (map.insertAll entries).get? key = (valueOf? key entries.reverse).or (map.get? key) := by
  induction entries generalizing map with
  | nil => rfl
  | cons entry rest ih =>
      have step : map.insertAll (entry :: rest) = (map.insert entry.1 entry.2).insertAll rest := rfl
      rw [step, ih, get?_insert, List.reverse_cons, valueOf?_append, Option.or_assoc, valueOf?]
      split <;> rfl

theorem get?_empty_insertAll (entries : List (κ × α)) (key : κ) :
    ((∅ : SortedMap κ α).insertAll entries).get? key = valueOf? key entries.reverse :=
  (get?_insertAll ∅ entries key).trans Option.or_none

/-- In a union the entries of the second map are found first. -/
theorem get?_union_eq (map other : SortedMap κ α) (key : κ) :
    (map.union other).get? key = (other.get? key).or (map.get? key) := by
  cases found : other.get? key with
  | none =>
      have missing : key ∉ other.keys := fun member => mem_keys_iff.mp member found
      exact get?_insertAll_of_notMem missing
  | some value =>
      have member : key ∈ other.keys := mem_keys_iff_exists.mpr ⟨value, found⟩
      refine get?_insertAll_of_forall member fun content there => ?_
      exact Option.some.inj ((mem_entries_iff.mp there).symm.trans found)

theorem empty_union (map : SortedMap κ α) : (∅ : SortedMap κ α).union map = map :=
  ext_get? fun key => by simp [get?_union_eq]

theorem union_assoc (first second third : SortedMap κ α) :
    (first.union second).union third = first.union (second.union third) :=
  ext_get? fun key => by simp [get?_union_eq, Option.or_assoc]

/-- Entries can be collected in a map of their own before they are put in. -/
theorem union_insertAll (map : SortedMap κ α) (entries : List (κ × α)) :
    map.union ((∅ : SortedMap κ α).insertAll entries) = map.insertAll entries :=
  ext_get? fun key => by simp [get?_union_eq, get?_insertAll]

end Lookup

section Erase

variable {κ α : Type} [SortKey κ] [DecidableEq κ]

def erase (map : SortedMap κ α) (key : κ) : SortedMap κ α :=
  ⟨map.entries.filter (·.1 ≠ key), map.ascending.filter _⟩

theorem mem_keys_erase {map : SortedMap κ α} {key wanted : κ} :
    wanted ∈ (map.erase key).keys ↔ wanted ≠ key ∧ wanted ∈ map.keys := by
  simp only [keys, erase, List.mem_map, List.mem_filter, decide_eq_true_eq]
  constructor
  · rintro ⟨entry, ⟨member, other⟩, rfl⟩
    exact ⟨other, entry, member, rfl⟩
  · rintro ⟨other, entry, member, rfl⟩
    exact ⟨entry, ⟨member, other⟩, rfl⟩

/-- Sets with the same members are equal. -/
theorem ext_keys {set other : SortedSet κ} (same : ∀ key, key ∈ set.keys ↔ key ∈ other.keys) :
    set = other := by
  refine ext_get? fun key => ?_
  have known := same key
  rw [mem_keys_iff, mem_keys_iff, ne_eq, ne_eq, not_iff_not] at known
  cases here : set.get? key with
  | none => exact (known.mp here).symm
  | some =>
      cases there : other.get? key with
      | none => cases here.symm.trans (known.mpr there)
      | some => rfl

end Erase

section Relabel

variable {κ ν α β : Type} [SortKey κ] [SortKey ν] {key : κ → ν}
  (ascends : ∀ {a b}, SortKey.lt a b = true → SortKey.lt (key a) (key b) = true)

include ascends in
theorem lt_key (a b : κ) : SortKey.lt (key a) (key b) = SortKey.lt a b := by
  cases before : SortKey.lt a b with
  | true => exact ascends before
  | false =>
      cases after : SortKey.lt b a with
      | true =>
          refine Bool.eq_false_iff.mpr fun wrong => ?_
          have loop := SortKey.trans wrong (ascends after)
          rw [SortKey.irrefl] at loop
          cases loop
      | false => rw [SortKey.total before after, SortKey.irrefl]

/-- The same entries under other keys, in the same order. -/
def relabel (value : α → β) (map : SortedMap κ α) : SortedMap ν β where
  entries := map.entries.map fun entry => (key entry.1, value entry.2)
  ascending := List.pairwise_map.mpr (map.ascending.imp ascends)

variable (value : α → β)

theorem toList_relabel (map : SortedMap κ α) :
    (relabel ascends value map).toList =
      map.toList.map fun entry => (key entry.1, value entry.2) := rfl

theorem relabel_of_same {key : κ → κ} {value : α → α}
    (ascends : ∀ {a b}, SortKey.lt a b = true → SortKey.lt (key a) (key b) = true)
    (keys : ∀ place, key place = place) (values : ∀ content, value content = content)
    (map : SortedMap κ α) : relabel ascends value map = map := by
  refine entries_injective ((List.map_congr_left fun entry _ => ?_).trans (List.map_id _))
  exact Prod.ext (keys entry.1) (values entry.2)

/-- Renaming twice is renaming once. -/
theorem relabel_relabel {μ γ : Type} [SortKey μ] {later : ν → μ} {both : κ → μ} {next : β → γ}
    {whole : α → γ}
    (second : ∀ {a b}, SortKey.lt a b = true → SortKey.lt (later a) (later b) = true)
    (third : ∀ {a b}, SortKey.lt a b = true → SortKey.lt (both a) (both b) = true)
    (keys : ∀ place, both place = later (key place))
    (values : ∀ content, whole content = next (value content)) (map : SortedMap κ α) :
    relabel third whole map = relabel second next (relabel ascends value map) := by
  refine entries_injective (Eq.trans (List.map_congr_left fun entry _ => ?_) List.map_map.symm)
  exact Prod.ext (keys entry.1) (values entry.2)

theorem relabel_insert (map : SortedMap κ α) (place : κ) (content : α) :
    relabel ascends value (map.insert place content) =
      (relabel ascends value map).insert (key place) (value content) := by
  have inserted (entries : List (κ × α)) :
      (insertEntry place content entries).map (fun entry => (key entry.1, value entry.2)) =
        insertEntry (key place) (value content)
          (entries.map fun entry => (key entry.1, value entry.2)) := by
    induction entries with
    | nil => rfl
    | cons entry rest ih =>
        simp only [insertEntry, List.map_cons, lt_key ascends]
        split
        · rfl
        · split
          · rw [List.map_cons, ih]
          · rfl
  exact entries_injective (inserted map.entries)

theorem relabel_union (map other : SortedMap κ α) :
    relabel ascends value (map.union other) =
      (relabel ascends value map).union (relabel ascends value other) := by
  have folded (entries : List (κ × α)) (map : SortedMap κ α) :
      relabel ascends value
          (entries.foldl (fun result entry => result.insert entry.1 entry.2) map) =
        (entries.map fun entry => (key entry.1, value entry.2)).foldl
          (fun result entry => result.insert entry.1 entry.2) (relabel ascends value map) := by
    induction entries generalizing map with
    | nil => rfl
    | cons entry rest ih => rw [List.foldl_cons, ih, relabel_insert, List.map_cons, List.foldl_cons]
  exact folded other.entries map

end Relabel

end SortedMap

end NativeBindings
