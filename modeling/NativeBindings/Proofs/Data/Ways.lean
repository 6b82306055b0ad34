import Mathlib.Data.List.Perm.Subperm
import Mathlib.Data.List.Nodup

namespace NativeBindings

/-! # Walks that remember their way

From a place with a name at most one way leads on.  A walk remembers the names of the
places that it has left, and stops in front of a name that it has met.  With finitely many
names every walk stops: where no way leads on, or on a circle.
-/

/-- The names of places, and where they lead. -/
structure Ways (σ κ : Type) where
  name? : σ → Option κ
  next? : σ → Option σ

namespace Ways

variable {σ κ : Type} {ways : Ways σ κ}

/-- The walk from a place, with the names it has met, round after round for as long as it
goes on: in each round it looks at one place, and at the last it stops. -/
inductive Walks (ways : Ways σ κ) : (seen : List κ) → σ → (rounds : Nat) → (last : σ) → Prop
  | plain {seen place} : ways.name? place = none → Walks ways seen place 1 place
  | again {seen place name} : ways.name? place = some name → name ∈ seen →
      Walks ways seen place 1 place
  | missing {seen place name} : ways.name? place = some name → name ∉ seen →
      ways.next? place = none → Walks ways seen place 1 place
  | onward {seen place name next rounds last} : ways.name? place = some name → name ∉ seen →
      ways.next? place = some next → Walks ways (name :: seen) next rounds last →
      Walks ways seen place (rounds + 1) last

/-- From one place to another, by way of places with these names. -/
inductive Trail (ways : Ways σ κ) : σ → List κ → σ → Prop
  | here {place} : Trail ways place [] place
  | on {place next last name names} : ways.name? place = some name →
      ways.next? place = some next → Trail ways next names last →
      Trail ways place (name :: names) last

/-- No way leads on but from a name among these. -/
def Ends (ways : Ways σ κ) (taken : List κ) (place : σ) : Prop :=
  ∀ name next, ways.name? place = some name → ways.next? place = some next → name ∈ taken

/-- The places from which a way leads on have names of a list. -/
def Listed (ways : Ways σ κ) (listed : List κ) : Prop := ∀ place, ways.Ends listed place

section Walks

variable {seen : List κ} {place last other : σ} {rounds others : Nat}

theorem Walks.unique (walks : ways.Walks seen place rounds last)
    (again : ways.Walks seen place others other) : rounds = others ∧ last = other := by
  induction walks generalizing others other with
  | plain isPlain =>
      cases again with
      | plain => exact ⟨rfl, rfl⟩
      | again isNamed | missing isNamed | onward isNamed => cases isPlain.symm.trans isNamed
  | again isNamed known =>
      cases again with
      | plain isPlain => cases isPlain.symm.trans isNamed
      | again => exact ⟨rfl, rfl⟩
      | missing otherNamed unknown | onward otherNamed unknown =>
          cases isNamed.symm.trans otherNamed
          exact absurd known unknown
  | missing isNamed unknown missing =>
      cases again with
      | plain isPlain => cases isPlain.symm.trans isNamed
      | again otherNamed known =>
          cases isNamed.symm.trans otherNamed
          exact absurd known unknown
      | missing => exact ⟨rfl, rfl⟩
      | onward _ _ leads => cases missing.symm.trans leads
  | onward isNamed unknown leads _ ih =>
      cases again with
      | plain isPlain => cases isPlain.symm.trans isNamed
      | again otherNamed known =>
          cases isNamed.symm.trans otherNamed
          exact absurd known unknown
      | missing _ _ missing => cases missing.symm.trans leads
      | onward otherNamed _ otherLeads rest =>
          cases isNamed.symm.trans otherNamed
          cases leads.symm.trans otherLeads
          obtain ⟨rfl, rfl⟩ := ih rest
          exact ⟨rfl, rfl⟩

end Walks

namespace Trail

variable {place mid next last : σ} {name : κ} {names before after seen : List κ}

theorem append (first : ways.Trail place before mid) (second : ways.Trail mid after last) :
    ways.Trail place (before ++ after) last := by
  induction first with
  | here => exact second
  | on isNamed leads _ ih => exact .on isNamed leads (ih second)

/-- A trail may be cut at any of its names. -/
theorem split (trail : ways.Trail place (before ++ name :: after) last) :
    ∃ mid next, ways.Trail place before mid ∧ ways.name? mid = some name ∧
      ways.next? mid = some next ∧ ways.Trail next after last := by
  induction before generalizing place with
  | nil =>
      cases trail with
      | on isNamed leads later => exact ⟨place, _, .here, isNamed, leads, later⟩
  | cons head rest ih =>
      cases trail with
      | on isNamed leads later =>
          obtain ⟨mid, next, first, others⟩ := ih later
          exact ⟨mid, next, .on isNamed leads first, others⟩

/-- A trail that meets no name twice is no longer than the list of all names. -/
theorem length_le {listed : List κ} (known : ways.Listed listed)
    (trail : ways.Trail place names last) (distinct : names.Nodup) :
    names.length ≤ listed.length := by
  refine (List.subperm_of_subset distinct fun name member => ?_).length_le
  obtain ⟨before, after, rfl⟩ := List.append_of_mem member
  obtain ⟨mid, next, -, isNamed, leads, -⟩ := trail.split
  exact known mid name next isNamed leads

/-- The way on from a name that was met before leads around a circle. -/
theorem circle (leadsTo : ∀ {first second name}, ways.name? first = some name →
      ways.name? second = some name → ways.next? first = ways.next? second)
    (trail : ways.Trail place names last) (isNamed : ways.name? last = some name)
    (leads : ways.next? last = some next) (taken : name ∈ names) :
    ∃ after, (name :: after).Sublist names ∧ ways.Trail next after last := by
  obtain ⟨before, after, rfl⟩ := List.append_of_mem taken
  obtain ⟨mid, _, -, earlier, earlierLeads, later⟩ := trail.split
  cases leads.symm.trans ((leadsTo isNamed earlier).trans earlierLeads)
  exact ⟨after, List.sublist_append_right before _, later⟩

/-- A walk follows a trail of new names, and looks for a way once more at its end. -/
theorem walks (trail : ways.Trail place names last) (distinct : names.Nodup)
    (unseen : ∀ name ∈ names, name ∉ seen) (ends : ways.Ends (names ++ seen) last) :
    ways.Walks seen place (names.length + 1) last := by
  induction trail generalizing seen with
  | @here place =>
      cases isNamed : ways.name? place with
      | none => exact .plain isNamed
      | some name =>
          by_cases known : name ∈ seen
          · exact .again isNamed known
          · refine .missing isNamed known ?_
            exact Option.eq_none_iff_forall_ne_some.mpr fun next leads =>
              known (ends name next isNamed leads)
  | @on place next last name rest isNamed leads _ ih =>
      obtain ⟨first, others⟩ := List.nodup_cons.mp distinct
      have fresh : ∀ other ∈ rest, other ∉ name :: seen := by
        intro other member
        rw [List.mem_cons, not_or]
        exact ⟨fun same => first (same ▸ member), unseen other (List.mem_cons_of_mem _ member)⟩
      have stays : ways.Ends (rest ++ name :: seen) last := by
        intro other onward otherNamed otherLeads
        have taken := ends other onward otherNamed otherLeads
        simp only [List.cons_append, List.mem_cons, List.mem_append] at taken ⊢
        tauto
      exact .onward isNamed (unseen name List.mem_cons_self) leads (ih others fresh stays)

/-- A trail that meets no name twice, and cannot go on without, is a whole walk. -/
theorem walks_nil {listed : List κ} (known : ways.Listed listed)
    (trail : ways.Trail place names last) (distinct : names.Nodup)
    (ends : ways.Ends names last) :
    ∃ rounds ≤ listed.length + 1, ways.Walks [] place rounds last := by
  have walks := trail.walks distinct (fun _ _ => List.not_mem_nil)
    ((List.append_nil names).symm ▸ ends)
  exact ⟨names.length + 1, Nat.succ_le_succ (trail.length_le known distinct), walks⟩

end Trail

/-- Where all names are listed, every walk stops. -/
theorem exists_trail {listed : List κ} (known : ways.Listed listed) (place : σ) :
    ∃ names last, ways.Trail place names last ∧ names.Nodup ∧ ways.Ends names last := by
  -- A trail that has not ended goes on by one more way, and cannot do so for ever.
  have grows (steps : Nat) : ∃ names last, ways.Trail place names last ∧ names.Nodup ∧
      (ways.Ends names last ∨ names.length = steps) := by
    induction steps with
    | zero => exact ⟨[], place, .here, List.nodup_nil, .inr rfl⟩
    | succ steps ih =>
        obtain ⟨names, last, trail, distinct, ended | size⟩ := ih
        · exact ⟨names, last, trail, distinct, .inl ended⟩
        by_cases ended : ways.Ends names last
        · exact ⟨names, last, trail, distinct, .inl ended⟩
        unfold Ends at ended
        push Not at ended
        obtain ⟨name, next, isNamed, leads, fresh⟩ := ended
        refine ⟨names ++ [name], next, trail.append (.on isNamed leads .here), ?_,
          .inr (by simp [size])⟩
        rw [List.nodup_append]
        refine ⟨distinct, List.nodup_singleton name, fun taken member other last => ?_⟩
        rw [List.mem_singleton] at last
        exact fun same => fresh (last ▸ same ▸ member)
  obtain ⟨names, last, trail, distinct, ended | size⟩ := grows (listed.length + 1)
  · exact ⟨names, last, trail, distinct, ended⟩
  · have few := trail.length_le known distinct
    omega

end Ways

end NativeBindings
