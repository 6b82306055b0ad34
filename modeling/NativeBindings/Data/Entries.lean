namespace NativeBindings

/-! # Lists of entries -/

variable {κ α : Type} [DecidableEq κ]

def valueOf? (wanted : κ) : List (κ × α) → Option α
  | [] => none
  | entry :: rest => if entry.1 = wanted then some entry.2 else valueOf? wanted rest

theorem valueOf?_eq_none_iff {wanted : κ} {entries : List (κ × α)} :
    valueOf? wanted entries = none ↔ wanted ∉ entries.map (·.1) := by
  induction entries with
  | nil => simp [valueOf?]
  | cons head rest ih =>
      by_cases same : head.1 = wanted
      · simp [valueOf?, same]
      · have other : ¬wanted = head.1 := fun h => same h.symm
        simp only [valueOf?, if_neg same, ih, List.map_cons, List.mem_cons, other, false_or]

theorem mem_of_valueOf? {wanted : κ} {value : α} {entries : List (κ × α)}
    (found : valueOf? wanted entries = some value) : (wanted, value) ∈ entries := by
  induction entries with
  | nil => simp [valueOf?] at found
  | cons head rest ih =>
      simp only [valueOf?] at found
      split at found
      · rename_i same
        cases found
        exact List.mem_cons.mpr (.inl (Prod.ext same.symm rfl))
      · exact List.mem_cons_of_mem _ (ih found)

/-- Among entries with different keys, each is found under its own. -/
theorem valueOf?_of_mem {entries : List (κ × α)} {entry : κ × α}
    (distinct : (entries.map (·.1)).Nodup) (member : entry ∈ entries) :
    valueOf? entry.1 entries = some entry.2 := by
  induction entries with
  | nil => cases member
  | cons head rest ih =>
      rw [List.map_cons, List.nodup_cons] at distinct
      rcases List.mem_cons.mp member with rfl | later
      · simp [valueOf?]
      · have other : ¬head.1 = entry.1 := fun same =>
          distinct.1 (same ▸ List.mem_map_of_mem later)
        rw [valueOf?, if_neg other]
        exact ih distinct.2 later

/-- Replaces what is stored under `key`, or appends a new entry. -/
def storeEntry (key : κ) (value : α) : List (κ × α) → List (κ × α)
  | [] => [(key, value)]
  | entry :: rest =>
      if entry.1 = key then (key, value) :: rest else entry :: storeEntry key value rest

theorem keys_storeEntry (key : κ) (value : α) (entries : List (κ × α)) :
    (storeEntry key value entries).map (·.1) =
      if key ∈ entries.map (·.1) then entries.map (·.1) else entries.map (·.1) ++ [key] := by
  induction entries with
  | nil => simp [storeEntry]
  | cons head rest ih =>
      by_cases same : head.1 = key
      · simp [storeEntry, same]
      · have other : key ≠ head.1 := fun h => same h.symm
        by_cases known : key ∈ rest.map (·.1) <;>
          simp_all [storeEntry]

theorem mem_storeEntry {key : κ} {value : α} {entries : List (κ × α)} {entry : κ × α}
    (member : entry ∈ storeEntry key value entries) :
    entry = (key, value) ∨ entry ∈ entries := by
  induction entries with
  | nil => exact .inl (List.mem_singleton.mp member)
  | cons head rest ih =>
      simp only [storeEntry] at member
      split at member
      · rcases List.mem_cons.mp member with same | old
        · exact .inl same
        · exact .inr (List.mem_cons_of_mem _ old)
      · rcases List.mem_cons.mp member with rfl | old
        · exact .inr List.mem_cons_self
        · rcases ih old with same | older
          · exact .inl same
          · exact .inr (List.mem_cons_of_mem _ older)

theorem valueOf?_storeEntry (key wanted : κ) (value : α) (entries : List (κ × α)) :
    valueOf? wanted (storeEntry key value entries) =
      if key = wanted then some value else valueOf? wanted entries := by
  induction entries with
  | nil => simp [storeEntry, valueOf?]
  | cons head rest ih =>
      by_cases headSame : head.1 = key
      · by_cases same : key = wanted <;> simp [storeEntry, valueOf?, headSame, same]
      · by_cases wantedHead : head.1 = wanted
        · subst wantedHead
          simp [storeEntry, valueOf?, headSame, Ne.symm headSame]
        · simp [storeEntry, valueOf?, headSame, wantedHead, ih]

theorem storeEntry_of_notMem {key : κ} {value : α} {entries : List (κ × α)}
    (fresh : key ∉ entries.map (·.1)) :
    storeEntry key value entries = entries ++ [(key, value)] := by
  induction entries with
  | nil => rfl
  | cons entry rest ih =>
      rw [List.map_cons, List.mem_cons, not_or] at fresh
      rw [storeEntry, if_neg (Ne.symm fresh.1), ih fresh.2, List.cons_append]

/-- Keys and values that stand side by side are entries.  A key's value is the one in
its own place. -/
theorem valueOf?_zip (key : κ) (keys : List κ) (values : List α) :
    valueOf? key (keys.zip values) = (keys.idxOf? key).bind (values[·]?) := by
  induction keys generalizing values with
  | nil => rfl
  | cons first others ih =>
      cases values with
      | nil =>
          cases (first :: others).idxOf? key <;> rfl
      | cons value rest =>
          rw [List.zip_cons_cons, valueOf?, List.idxOf?_cons]
          by_cases same : first = key
          · simp [same]
          · rw [if_neg same, if_neg (by simpa using same), ih, Option.bind_map]
            rfl

theorem storeEntry_zip {key : κ} {value : α} {keys : List κ} {values : List α} {slot : Nat}
    (found : keys.idxOf? key = some slot) (within : slot < values.length) :
    storeEntry key value (keys.zip values) = keys.zip (values.set slot value) := by
  induction keys generalizing values slot with
  | nil => cases found
  | cons first others ih =>
      cases values with
      | nil => cases within
      | cons old rest =>
          rw [List.idxOf?_cons] at found
          by_cases same : first = key
          · cases same
            simp only [beq_self_eq_true, if_true, Option.some.injEq] at found
            cases found
            simp [storeEntry]
          · simp only [beq_iff_eq, same, if_false, Option.map_eq_some_iff] at found
            obtain ⟨place, later, rfl⟩ := found
            rw [List.zip_cons_cons, storeEntry, if_neg same, List.set_cons_succ,
              List.zip_cons_cons, ih later (Nat.lt_of_succ_lt_succ within)]

end NativeBindings
