import NativeBindings.Data.Entries

namespace NativeBindings

/-! # Maps in the order of their keys

A map is the list of its entries, strictly ascending by key.  The order is part
of the type, so a map has one form only: two maps that answer every look-up
alike are equal, and `toList` is what a reader of the map sees.
-/

/-- A strict total order, given as a test. -/
class SortKey (κ : Type) where
  lt : κ → κ → Bool
  irrefl : ∀ key, lt key key = false
  trans : ∀ {a b c}, lt a b = true → lt b c = true → lt a c = true
  total : ∀ {a b}, lt a b = false → lt b a = false → a = b

instance : SortKey Nat where
  lt a b := decide (a < b)
  irrefl := by simp
  trans := by simp; omega
  total := by simp; omega

instance : SortKey String where
  lt a b := decide (a < b)
  irrefl key := by simp
  trans first second := by
    simp only [decide_eq_true_eq] at first second ⊢
    exact String.lt_trans first second
  total first second := by
    simp only [decide_eq_false_iff_not, String.not_lt] at first second
    exact String.le_antisymm second first

/-- Pairs go by their first part, then by their second. -/
instance {κ ν : Type} [SortKey κ] [SortKey ν] [DecidableEq κ] : SortKey (κ × ν) where
  lt a b := SortKey.lt a.1 b.1 || (a.1 == b.1 && SortKey.lt a.2 b.2)
  irrefl := by simp [SortKey.irrefl]
  trans := by
    intro a b c first second
    simp only [Bool.or_eq_true, Bool.and_eq_true, beq_iff_eq] at first second ⊢
    rcases first with first | ⟨same, first⟩
    · rcases second with second | ⟨same, second⟩
      · exact .inl (SortKey.trans first second)
      · exact .inl (same ▸ first)
    · rcases second with second | ⟨other, second⟩
      · exact .inl (same ▸ second)
      · exact .inr ⟨same.trans other, SortKey.trans first second⟩
  total := by
    intro a b first second
    simp only [Bool.or_eq_false_iff, Bool.and_eq_false_imp, beq_iff_eq] at first second
    have same : a.1 = b.1 := SortKey.total first.1 second.1
    exact Prod.ext same (SortKey.total (first.2 same) (second.2 same.symm))

variable {κ α β : Type} [SortKey κ]

def Ascending (entries : List (κ × α)) : Prop :=
  entries.Pairwise fun a b => SortKey.lt a.1 b.1 = true

/-- Puts an entry in its place; an entry with the same key is replaced. -/
def insertEntry (key : κ) (value : α) : List (κ × α) → List (κ × α)
  | [] => [(key, value)]
  | entry :: rest =>
      if SortKey.lt key entry.1 then (key, value) :: entry :: rest
      else if SortKey.lt entry.1 key then entry :: insertEntry key value rest
      else (key, value) :: rest

theorem key_mem_insertEntry {key : κ} {value : α} {entries : List (κ × α)} {entry : κ × α}
    (member : entry ∈ insertEntry key value entries) :
    entry.1 = key ∨ entry ∈ entries := by
  induction entries with
  | nil => simp [insertEntry] at member; simp [member]
  | cons head rest ih =>
      simp only [insertEntry] at member
      split at member
      · rcases List.mem_cons.mp member with rfl | old
        · exact .inl rfl
        · exact .inr old
      · split at member
        · rcases List.mem_cons.mp member with rfl | old
          · exact .inr List.mem_cons_self
          · rcases ih old with same | old
            · exact .inl same
            · exact .inr (List.mem_cons_of_mem _ old)
        · rcases List.mem_cons.mp member with rfl | old
          · exact .inl rfl
          · exact .inr (List.mem_cons_of_mem _ old)

theorem ascending_insertEntry {key : κ} {value : α} {entries : List (κ × α)}
    (sorted : Ascending entries) : Ascending (insertEntry key value entries) := by
  induction entries with
  | nil => simp [insertEntry, Ascending]
  | cons head rest ih =>
      obtain ⟨before, restSorted⟩ := List.pairwise_cons.mp sorted
      simp only [insertEntry]
      split
      case isTrue first =>
        refine List.pairwise_cons.mpr ⟨fun entry member => ?_, sorted⟩
        rcases List.mem_cons.mp member with rfl | old
        · exact first
        · exact SortKey.trans first (before entry old)
      case isFalse notFirst =>
        split
        case isTrue later =>
          refine List.pairwise_cons.mpr ⟨fun entry member => ?_, ih restSorted⟩
          rcases key_mem_insertEntry member with same | old
          · exact same ▸ later
          · exact before entry old
        case isFalse notLater =>
          have same : head.1 = key :=
            SortKey.total (Bool.eq_false_iff.mpr notLater) (Bool.eq_false_iff.mpr notFirst)
          refine List.pairwise_cons.mpr ⟨fun entry member => ?_, restSorted⟩
          exact same ▸ before entry member

/-- A finite map whose entries are kept in the order of their keys. -/
structure SortedMap (κ α : Type) [SortKey κ] where
  entries : List (κ × α)
  ascending : Ascending entries

namespace SortedMap

instance : EmptyCollection (SortedMap κ α) := ⟨⟨[], List.Pairwise.nil⟩⟩

instance : Inhabited (SortedMap κ α) := ⟨∅⟩

def toList (map : SortedMap κ α) : List (κ × α) := map.entries

def keys (map : SortedMap κ α) : List κ := map.entries.map (·.1)

def size (map : SortedMap κ α) : Nat := map.entries.length

def isEmpty (map : SortedMap κ α) : Bool := map.entries.isEmpty

def get? [DecidableEq κ] (map : SortedMap κ α) (key : κ) : Option α :=
  valueOf? key map.entries

def contains [DecidableEq κ] (map : SortedMap κ α) (key : κ) : Bool :=
  (map.get? key).isSome

def insert (map : SortedMap κ α) (key : κ) (value : α) : SortedMap κ α :=
  ⟨insertEntry key value map.entries, ascending_insertEntry map.ascending⟩

/-- All entries of both; where both have one, that of `other`. -/
def union (map other : SortedMap κ α) : SortedMap κ α :=
  other.entries.foldl (fun result entry => result.insert entry.1 entry.2) map

def ofList (entries : List (κ × α)) : SortedMap κ α :=
  entries.foldl (fun result entry => result.insert entry.1 entry.2) ∅

@[simp] theorem toList_empty : (∅ : SortedMap κ α).toList = [] := rfl

@[simp] theorem union_empty (map : SortedMap κ α) : map.union ∅ = map := rfl

theorem valueOf?_insertEntry [DecidableEq κ] (key wanted : κ) (value : α)
    (entries : List (κ × α)) (sorted : Ascending entries) :
    valueOf? wanted (insertEntry key value entries) =
      if key = wanted then some value else valueOf? wanted entries := by
  induction entries with
  | nil => simp [insertEntry, valueOf?]
  | cons head rest ih =>
      obtain ⟨before, restSorted⟩ := List.pairwise_cons.mp sorted
      simp only [insertEntry]
      split
      · simp [valueOf?]
      · split
        case isTrue later =>
          by_cases headSame : head.1 = wanted
          · have other : key ≠ wanted := by
              rintro rfl
              rw [headSame, SortKey.irrefl] at later
              exact Bool.false_ne_true later
            simp [valueOf?, headSame, other]
          · simpa [valueOf?, headSame] using ih restSorted
        case isFalse notFirst notLater =>
          have same : head.1 = key :=
            SortKey.total (Bool.eq_false_iff.mpr notLater) (Bool.eq_false_iff.mpr notFirst)
          by_cases wantedSame : key = wanted <;> simp [valueOf?, same, wantedSame]

theorem get?_insert [DecidableEq κ] (map : SortedMap κ α) (key wanted : κ) (value : α) :
    (map.insert key value).get? wanted = if key = wanted then some value else map.get? wanted :=
  valueOf?_insertEntry key wanted value map.entries map.ascending

theorem mem_keys_iff [DecidableEq κ] {map : SortedMap κ α} {key : κ} :
    key ∈ map.keys ↔ map.get? key ≠ none := by
  rw [ne_eq, get?, valueOf?_eq_none_iff, Decidable.not_not]
  rfl

theorem mem_keys_insert [DecidableEq κ] {map : SortedMap κ α} {key wanted : κ} {value : α} :
    wanted ∈ (map.insert key value).keys ↔ wanted = key ∨ wanted ∈ map.keys := by
  rw [mem_keys_iff, mem_keys_iff, get?_insert]
  by_cases same : key = wanted
  · simp [same]
  · simp [same, Ne.symm same]

theorem mem_keys_foldl_insert [DecidableEq κ] {entries : List (κ × α)} {map : SortedMap κ α}
    {wanted : κ} :
    wanted ∈ (entries.foldl (fun result entry => result.insert entry.1 entry.2) map).keys ↔
      wanted ∈ map.keys ∨ wanted ∈ entries.map (·.1) := by
  induction entries generalizing map with
  | nil => simp
  | cons entry rest ih =>
      rw [List.foldl_cons, ih, mem_keys_insert, List.map_cons, List.mem_cons]
      exact ⟨fun h => by rcases h with (h | h) | h <;> simp [h],
        fun h => by rcases h with h | h | h <;> simp [h]⟩

theorem mem_keys_union [DecidableEq κ] {map other : SortedMap κ α} {wanted : κ} :
    wanted ∈ (map.union other).keys ↔ wanted ∈ map.keys ∨ wanted ∈ other.keys :=
  mem_keys_foldl_insert

theorem nodup_keys (map : SortedMap κ α) : map.keys.Nodup := by
  refine List.pairwise_map.mpr (map.ascending.imp fun {a b} before same => ?_)
  rw [same, SortKey.irrefl] at before
  exact Bool.false_ne_true before

/-- What is found after a list of entries was put in is one of them, or was there
before. -/
theorem get?_foldl_insert [DecidableEq κ] {entries : List (κ × α)} {map : SortedMap κ α}
    {wanted : κ} {value : α}
    (found : (entries.foldl (fun result entry => result.insert entry.1 entry.2) map).get? wanted =
      some value) :
    (wanted, value) ∈ entries ∨ map.get? wanted = some value := by
  induction entries generalizing map with
  | nil => exact .inr found
  | cons entry rest ih =>
      rcases ih found with later | before
      · exact .inl (List.mem_cons_of_mem _ later)
      · rw [get?_insert] at before
        split at before
        case isTrue same =>
          cases before
          exact .inl (same ▸ List.mem_cons_self)
        case isFalse => exact .inr before

theorem get?_union [DecidableEq κ] {map other : SortedMap κ α} {wanted : κ} {value : α}
    (found : (map.union other).get? wanted = some value) :
    other.get? wanted = some value ∨ map.get? wanted = some value :=
  (get?_foldl_insert found).imp_left (valueOf?_of_mem other.nodup_keys)

end SortedMap

/-- A finite set, listed in the order of its members. -/
abbrev SortedSet (κ : Type) [SortKey κ] := SortedMap κ Unit

namespace SortedSet

def add (set : SortedSet κ) (member : κ) : SortedSet κ := SortedMap.insert set member ()

def ofMembers (members : List κ) : SortedSet κ := members.foldl add ∅

theorem mem_ofMembers [DecidableEq κ] {members : List κ} {wanted : κ} :
    wanted ∈ (ofMembers members).keys ↔ wanted ∈ members := by
  have folded (set : SortedSet κ) :
      wanted ∈ (members.foldl add set).keys ↔ wanted ∈ set.keys ∨ wanted ∈ members := by
    induction members generalizing set with
    | nil => simp
    | cons member rest ih =>
        rw [List.foldl_cons, ih, add, SortedMap.mem_keys_insert, List.mem_cons]
        exact ⟨fun h => by rcases h with (h | h) | h <;> simp [h],
          fun h => by rcases h with h | h | h <;> simp [h]⟩
  refine (folded ∅).trans ⟨fun h => h.resolve_left ?_, .inr⟩
  exact List.not_mem_nil

end SortedSet

end NativeBindings
