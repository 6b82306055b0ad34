import NativeBindings.Proofs.Data.Ways
import NativeBindings.Proofs.Mapping.Acyclic

namespace NativeBindings

/-! # Names stripped off a type

Below typedefs and enumerations stands a type that is neither, unless a declaration is
missing or a name leads back to itself.  The walk that strips the names off remembers them
by their identities, and so it ends on every index.
-/

/-- The name that a type consists of. -/
def TypeShape.name? : TypeShape → Option TypeName
  | .named id => some (.typedef id)
  | .enumeration id => some (.enumeration id)
  | _ => none

def TypeName.id : TypeName → DeclId
  | .typedef id | .enumeration id => id

theorem TypeShape.names_of_name? {shape : TypeShape} {name : TypeName}
    (isName : shape.name? = some name) : shape.names = [name] := by
  cases shape <;> cases isName <;> rfl

namespace Index

variable {index : Index} {shape last : TypeShape} {seen : List DeclId}

theorem stripNames_plain (seen : List DeclId) (fuel : Nat) (isPlain : shape.name? = none) :
    index.stripNames seen (fuel + 1) shape = some shape := by
  cases shape <;> first | rfl | cases isPlain

theorem stripNames_name {name : TypeName} (seen : List DeclId) (fuel : Nat)
    (isName : shape.name? = some name) :
    index.stripNames seen (fuel + 1) shape =
      if name.id ∈ seen then none
      else (index.behind? name).bind fun type =>
        index.stripNames (name.id :: seen) fuel type.shape := by
  cases shape with
  | named id =>
      cases isName
      rw [stripNames, behind?, TypeName.id]
      cases index.typedefs.get? id <;> rfl
  | enumeration id =>
      cases isName
      rw [stripNames, behind?, TypeName.id]
      cases index.enums.get? id <;> rfl
  | _ => cases isName

/-- From a typedef or an enumeration the way leads on to the type behind it. -/
def nameWays (index : Index) : Ways TypeShape DeclId where
  name? shape := shape.name?.map (·.id)
  next? shape := (shape.name?.bind index.behind?).map (·.shape)

theorem id_mem_of_behind? {name : TypeName} {type : QualType}
    (stands : index.behind? name = some type) :
    name.id ∈ index.typedefs.values.map (·.id) ++ index.enums.values.map (·.id) := by
  rw [List.mem_append, List.mem_map, List.mem_map]
  rcases behind?_cases stands with ⟨decl, member, rfl, -⟩ | ⟨decl, member, rfl, -⟩
  · exact .inl ⟨decl, member, rfl⟩
  · exact .inr ⟨decl, member, rfl⟩

theorem listed_nameWays (index : Index) : index.nameWays.Listed
    (index.typedefs.values.map (·.id) ++ index.enums.values.map (·.id)) := by
  intro shape id next isNamed leads
  obtain ⟨name, isName, rfl⟩ := Option.map_eq_some_iff.mp isNamed
  obtain ⟨type, stands, -⟩ := Option.map_eq_some_iff.mp leads
  rw [isName] at stands
  exact id_mem_of_behind? stands

/-- What is below the names when a walk has come to its end: nothing, if it ends at a name. -/
theorem stripNames_of_walks {rounds fuel : Nat}
    (walks : index.nameWays.Walks seen shape rounds last) (enough : rounds ≤ fuel) :
    index.stripNames seen fuel shape = if last.name?.isNone then some last else none := by
  induction walks generalizing fuel with
  | plain isPlain =>
      obtain ⟨fuel, rfl⟩ := Nat.exists_eq_succ_of_ne_zero (Nat.ne_zero_of_lt enough)
      have isPlain := Option.map_eq_none_iff.mp isPlain
      rw [stripNames_plain _ fuel isPlain, isPlain]
      rfl
  | again isNamed known =>
      obtain ⟨fuel, rfl⟩ := Nat.exists_eq_succ_of_ne_zero (Nat.ne_zero_of_lt enough)
      obtain ⟨name, isName, rfl⟩ := Option.map_eq_some_iff.mp isNamed
      rw [stripNames_name _ fuel isName, if_pos known, isName]
      rfl
  | missing isNamed unknown missing =>
      obtain ⟨fuel, rfl⟩ := Nat.exists_eq_succ_of_ne_zero (Nat.ne_zero_of_lt enough)
      obtain ⟨name, isName, rfl⟩ := Option.map_eq_some_iff.mp isNamed
      have missing := Option.map_eq_none_iff.mp missing
      rw [isName, Option.bind_some] at missing
      rw [stripNames_name _ fuel isName, if_neg unknown, missing, isName]
      rfl
  | onward isNamed unknown leads _ ih =>
      obtain ⟨fuel, rfl⟩ := Nat.exists_eq_succ_of_ne_zero (Nat.ne_zero_of_lt enough)
      obtain ⟨name, isName, rfl⟩ := Option.map_eq_some_iff.mp isNamed
      obtain ⟨type, stands, rfl⟩ := Option.map_eq_some_iff.mp leads
      rw [isName, Option.bind_some] at stands
      rw [stripNames_name _ fuel isName, if_neg unknown, stands]
      exact ih (Nat.le_of_succ_le_succ enough)

/-- The walk that strips names off ends on every index: it looks behind each typedef and
each enumeration once at most, and once more.  Below a name at its end there is nothing. -/
theorem underlying?_ends (index : Index) (type : QualType) :
    ∃ rounds ≤ index.typedefs.size + index.enums.size + 1, ∃ last,
      (∀ others other, index.nameWays.Walks [] type.shape others other ↔
        others = rounds ∧ other = last) ∧
      index.underlying? type = if last.name?.isNone then some last else none := by
  obtain ⟨names, last, trail, distinct, ends⟩ :=
    Ways.exists_trail index.listed_nameWays type.shape
  obtain ⟨rounds, few, walks⟩ := trail.walks_nil index.listed_nameWays distinct ends
  rw [List.length_append, List.length_map, List.length_map, DeclMap.length_values,
    DeclMap.length_values] at few
  refine ⟨rounds, few, last, fun others other => ⟨fun again => again.unique walks, ?_⟩,
    stripNames_of_walks walks few⟩
  rintro ⟨rfl, rfl⟩
  exact walks

end Index

end NativeBindings
