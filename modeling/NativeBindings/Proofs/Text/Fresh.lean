import Mathlib.Data.List.Perm.Subperm
import Mathlib.Data.List.Nodup
import NativeBindings.Text.Fresh

namespace NativeBindings

/-! # Names that stay apart

The forms of a name are all different, so they cannot all be used: the search for a free
one ends after as many as there are used names.  A name that was handed out is used from
then on, and the names of one list are all different.
-/

theorem toDigits_inj {first second : Nat}
    (same : Nat.toDigits 10 first = Nat.toDigits 10 second) : first = second := by
  have read := congrArg (Nat.ofDigitChars 10 · 0) same
  simpa only [Nat.ofDigitChars_ten_toDigits] using read

theorem candidate_injective (name : String) : Function.Injective (candidate name) := by
  have numbered (number : Nat) :
      (candidate name (number + 1)).toList = name.toList ++ Nat.toDigits 10 number := by
    simp [candidate]
  -- A number has a digit, so no numbered form is the name itself.
  have own (number : Nat) : candidate name (number + 1) ≠ name := by
    intro same
    have lists := congrArg String.toList same
    rw [numbered, List.append_right_eq_self] at lists
    exact Nat.toDigits_ne_nil lists
  intro first second same
  cases first with
  | zero =>
      cases second with
      | zero => rfl
      | succ number => exact absurd same.symm (own number)
  | succ number =>
      cases second with
      | zero => exact absurd same (own number)
      | succ other =>
          have lists := congrArg String.toList same
          rw [numbered, numbered] at lists
          rw [toDigits_inj (List.append_cancel_left lists)]

/-- The forms of a name are tried one after the other, and nothing bounds how many: from
the given one on, the search ends with the first that is not used. -/
inductive Searches (used : List String) (name : String) : (place : Nat) → String → Prop
  | free {place} : candidate name place ∉ used → Searches used name place (candidate name place)
  | taken {place found} : candidate name place ∈ used → Searches used name (place + 1) found →
      Searches used name place found

/-- The first form of a name that is not used. -/
def FirstUnused (used : List String) (name found : String) : Prop :=
  ∃ place, found = candidate name place ∧ candidate name place ∉ used ∧
    ∀ earlier < place, candidate name earlier ∈ used

section Search

variable {used others : List String} {name found other : String}

/-- Among one more form than there are used names one is free. -/
theorem exists_unused (used : List String) (name : String) :
    ∃ place ≤ used.length, candidate name place ∉ used := by
  by_contra taken
  push Not at taken
  have distinct : ((List.range (used.length + 1)).map (candidate name)).Nodup :=
    List.nodup_range.map (candidate_injective name)
  have inside : (List.range (used.length + 1)).map (candidate name) ⊆ used := by
    intro form member
    obtain ⟨place, listed, rfl⟩ := List.mem_map.mp member
    exact taken place (Nat.le_of_lt_succ (List.mem_range.mp listed))
  have bound := (List.subperm_of_subset distinct inside).length_le
  rw [List.length_map, List.length_range] at bound
  omega

theorem firstUnused_freshName (used : List String) (name : String) :
    FirstUnused used name (freshName used name) := by
  have search : freshName used name = (((List.range (used.length + 1)).find?
      (fun place => candidate name place ∉ used)).map (candidate name)).getD name := by
    rw [freshName, List.find?_map]
    rfl
  rw [search]
  cases ends : (List.range (used.length + 1)).find? (fun place => candidate name place ∉ used) with
  | none =>
      obtain ⟨place, within, free⟩ := exists_unused used name
      have taken := List.find?_eq_none.mp ends place (List.mem_range.mpr (Nat.lt_succ_of_le within))
      exact absurd free (by simpa using taken)
  | some place =>
      obtain ⟨free, -, before⟩ := List.find?_range_eq_some.mp ends
      refine ⟨place, rfl, by simpa using free, ?_⟩
      intro earlier less
      simpa using before earlier less

theorem FirstUnused.unique (first : FirstUnused used name found)
    (again : FirstUnused used name other) : found = other := by
  obtain ⟨place, rfl, free, before⟩ := first
  obtain ⟨later, rfl, alsoFree, alsoBefore⟩ := again
  rcases Nat.lt_trichotomy place later with less | rfl | more
  · exact absurd (alsoBefore place less) free
  · rfl
  · exact absurd (before later more) alsoFree

theorem firstUnused_iff : FirstUnused used name found ↔ found = freshName used name := by
  constructor
  · exact fun first => first.unique (firstUnused_freshName used name)
  · rintro rfl
    exact firstUnused_freshName used name

theorem FirstUnused.not_mem (first : FirstUnused used name found) : found ∉ used := by
  obtain ⟨place, rfl, free, -⟩ := first
  exact free

theorem freshName_not_mem (used : List String) (name : String) : freshName used name ∉ used :=
  (firstUnused_freshName used name).not_mem

theorem freshName_congr (same : ∀ form, form ∈ used ↔ form ∈ others) :
    freshName used name = freshName others name := by
  have first := firstUnused_freshName used name
  simp only [FirstUnused, same] at first
  exact firstUnused_iff.mp first

theorem Searches.unique {place : Nat} (searches : Searches used name place found)
    (again : Searches used name place other) : found = other := by
  induction searches with
  | free free =>
      cases again with
      | free => rfl
      | taken member => exact absurd member free
  | taken member _ ih =>
      cases again with
      | free free => exact absurd member free
      | taken _ rest => exact ih rest

/-- From any form in front of it the search goes on to the first that is free. -/
theorem FirstUnused.searches (first : FirstUnused used name found) :
    Searches used name 0 found := by
  obtain ⟨place, rfl, free, before⟩ := first
  have onward (left : Nat) (le : left ≤ place) :
      Searches used name (place - left) (candidate name place) := by
    induction left with
    | zero => exact .free free
    | succ left ih =>
        have next : place - (left + 1) + 1 = place - left := by omega
        exact .taken (before _ (by omega)) (next ▸ ih (by omega))
  simpa using onward place (Nat.le_refl _)

/-- The search ends, and with the first form that is not used. -/
theorem searches_iff : Searches used name 0 found ↔ found = freshName used name := by
  have ends := (firstUnused_freshName used name).searches
  constructor
  · exact fun searches => searches.unique ends
  · rintro rfl
    exact ends

end Search

theorem length_freshNames (used names : List String) :
    (freshNames used names).length = names.length := by
  induction names generalizing used with
  | nil => rfl
  | cons name rest ih => exact congrArg (· + 1) (ih _)

theorem not_mem_of_mem_freshNames {used names : List String} {found : String}
    (member : found ∈ freshNames used names) : found ∉ used := by
  induction names generalizing used with
  | nil => cases member
  | cons name rest ih =>
      rcases List.mem_cons.mp member with rfl | later
      · exact freshName_not_mem used name
      · exact fun old => ih later (List.mem_cons_of_mem _ old)

theorem nodup_freshNames (used names : List String) : (freshNames used names).Nodup := by
  induction names generalizing used with
  | nil => exact List.nodup_nil
  | cons name rest ih =>
      refine List.nodup_cons.mpr ⟨fun later => ?_, ih _⟩
      exact not_mem_of_mem_freshNames later List.mem_cons_self

/-- Each name is the first form not used before, where what was handed out in front of it
counts as used, and nothing else is added. -/
theorem firstUnused_getElem_freshNames {used names : List String} {place : Nat}
    {name found : String} (wanted : names[place]? = some name)
    (handed : (freshNames used names)[place]? = some found) :
    FirstUnused (used ++ (freshNames used names).take place) name found := by
  rw [firstUnused_iff]
  induction names generalizing used place with
  | nil => cases wanted
  | cons head rest ih =>
      cases place with
      | zero =>
          cases wanted
          cases handed
          rw [List.take_zero, List.append_nil]
      | succ place =>
          rw [ih wanted handed, freshNames, List.take_succ_cons]
          apply freshName_congr
          intro form
          simp only [List.cons_append, List.mem_cons, List.mem_append]
          tauto

end NativeBindings
