import Mathlib.Logic.Relation
import NativeBindings.Native.Index
import NativeBindings.Proofs.Data.Ways

namespace NativeBindings

/-! # Chains of typedefs

A typedef may alias another, and in a broken index one may lead back to itself.  The walk
along a chain ends all the same: it looks behind each typedef of the index once at most.
On a circle it ends in front of the first typedef that it meets again; begun anew from
there, it goes around once and ends at the same place.
-/

/-- The typedef that a type is. -/
def TypeShape.typedef? : TypeShape → Option DeclId
  | .named id => some id
  | _ => none

theorem TypeShape.typedef?_eq_some_iff {shape : TypeShape} {id : DeclId} :
    shape.typedef? = some id ↔ shape = .named id := by
  cases shape <;> simp [typedef?]

namespace Index

/-- From a typedef the way leads on to what it aliases, if it is in the index. -/
def typedefWays (index : Index) : Ways QualType DeclId where
  name? type := type.shape.typedef?
  next? type := (type.shape.typedef?.bind index.typedefs.get?).map (·.aliased)

/-- A typedef of the index aliases another name and nothing more. -/
def Aliases (index : Index) (id next : DeclId) : Prop :=
  ∃ decl, index.typedefs.get? id = some decl ∧ decl.aliased.shape = .named next

/-- A type is this typedef, or leads to it through others. -/
def Reaches (index : Index) (type : QualType) (id : DeclId) : Prop :=
  ∃ first, type.shape = .named first ∧ Relation.ReflTransGen index.Aliases first id

/-- A typedef that aliases itself, be it through others. -/
def Circular (index : Index) (id : DeclId) : Prop := Relation.TransGen index.Aliases id id

/-- A type is a typedef that is not in the index. -/
def NamesMissing (index : Index) (type : QualType) : Prop :=
  ∃ id, type.shape = .named id ∧ index.typedefs.get? id = none

def NamesCircular (index : Index) (type : QualType) : Prop :=
  ∃ id, type.shape = .named id ∧ index.Circular id

variable {index : Index} {type next last : QualType} {names seen : List DeclId} {id : DeclId}

theorem name?_typedefWays : index.typedefWays.name? type = some id ↔ type.shape = .named id :=
  TypeShape.typedef?_eq_some_iff

theorem next?_typedefWays (isNamed : type.shape = .named id) :
    index.typedefWays.next? type = (index.typedefs.get? id).map (·.aliased) := by
  simp [typedefWays, TypeShape.typedef?, isNamed]

theorem next?_typedefWays_eq_some (isNamed : type.shape = .named id) :
    index.typedefWays.next? type = some next ↔
      ∃ decl, index.typedefs.get? id = some decl ∧ decl.aliased = next := by
  rw [next?_typedefWays isNamed, Option.map_eq_some_iff]

theorem next?_typedefWays_eq_none (isNamed : type.shape = .named id) :
    index.typedefWays.next? type = none ↔ index.typedefs.get? id = none := by
  rw [next?_typedefWays isNamed, Option.map_eq_none_iff]

/-- Where a way leads on there is a typedef of the index. -/
theorem typedef_of_leads (atName : index.typedefWays.name? type = some id)
    (leads : index.typedefWays.next? type = some next) :
    ∃ decl, type.shape = .named id ∧ index.typedefs.get? id = some decl ∧ decl.aliased = next := by
  rw [name?_typedefWays] at atName
  obtain ⟨decl, found, aliased⟩ := (next?_typedefWays_eq_some atName).mp leads
  exact ⟨decl, atName, found, aliased⟩

theorem listed_typedefWays (index : Index) :
    index.typedefWays.Listed (index.typedefs.values.map (·.id)) := by
  intro type id next atName leads
  obtain ⟨decl, -, found, -⟩ := typedef_of_leads atName leads
  exact List.mem_map.mpr ⟨decl, DeclMap.mem_values_of_get? found, DeclMap.id_of_get? found⟩

/-- The walk is at its end once there is a step for each of its rounds. -/
theorem followTypedefs_of_walks {rounds fuel : Nat}
    (walks : index.typedefWays.Walks seen type rounds last) (enough : rounds ≤ fuel) :
    index.followTypedefs seen fuel type = last := by
  induction walks generalizing fuel with
  | plain isPlain =>
      obtain ⟨fuel, rfl⟩ := Nat.exists_eq_succ_of_ne_zero (Nat.ne_zero_of_lt enough)
      unfold followTypedefs
      split
      · rename_i id isNamed
        cases isPlain.symm.trans (name?_typedefWays.mpr isNamed)
      · rfl
  | again isNamed known =>
      obtain ⟨fuel, rfl⟩ := Nat.exists_eq_succ_of_ne_zero (Nat.ne_zero_of_lt enough)
      rw [followTypedefs, name?_typedefWays.mp isNamed]
      dsimp only
      rw [if_pos known]
  | missing isNamed unknown missing =>
      obtain ⟨fuel, rfl⟩ := Nat.exists_eq_succ_of_ne_zero (Nat.ne_zero_of_lt enough)
      rw [name?_typedefWays] at isNamed
      rw [next?_typedefWays_eq_none isNamed] at missing
      rw [followTypedefs, isNamed]
      dsimp only
      rw [if_neg unknown, missing]
  | onward atName unknown leads _ ih =>
      obtain ⟨fuel, rfl⟩ := Nat.exists_eq_succ_of_ne_zero (Nat.ne_zero_of_lt enough)
      obtain ⟨decl, isNamed, found, rfl⟩ := typedef_of_leads atName leads
      rw [followTypedefs, isNamed]
      dsimp only
      rw [if_neg unknown, found]
      exact ih (Nat.le_of_succ_le_succ enough)

/-- The walk from a type has a round for each typedef at most, and one more. -/
theorem walks_canonicalType (trail : index.typedefWays.Trail type names last)
    (distinct : names.Nodup) (ends : index.typedefWays.Ends names last) :
    index.canonicalType type = last ∧
      ∃ rounds ≤ index.typedefs.size + 1, index.typedefWays.Walks [] type rounds last := by
  obtain ⟨rounds, few, walks⟩ := trail.walks_nil index.listed_typedefWays distinct ends
  rw [List.length_map, DeclMap.length_values] at few
  exact ⟨followTypedefs_of_walks walks few, rounds, few, walks⟩

theorem Reaches.of_trail (trail : index.typedefWays.Trail type names last)
    (isNamed : last.shape = .named id) : index.Reaches type id := by
  induction trail with
  | here => exact ⟨id, isNamed, .refl⟩
  | on atName leads _ ih =>
      obtain ⟨decl, named, found, rfl⟩ := typedef_of_leads atName leads
      obtain ⟨first, aliased, path⟩ := ih isNamed
      exact ⟨_, named, path.head ⟨decl, found, aliased⟩⟩

/-- Whatever a type reaches is met on the way, or reached from its end. -/
theorem Reaches.mem_trail (reaches : index.Reaches type id)
    (trail : index.typedefWays.Trail type names last) : id ∈ names ∨ index.Reaches last id := by
  induction trail with
  | here => exact .inr reaches
  | on atName leads _ ih =>
      obtain ⟨decl, named, found, rfl⟩ := typedef_of_leads atName leads
      obtain ⟨first, isNamed, path⟩ := reaches
      cases named.symm.trans isNamed
      rcases Relation.ReflTransGen.cases_head path with rfl | ⟨next, ⟨other, otherFound, aliased⟩, rest⟩
      · exact .inl List.mem_cons_self
      · cases found.symm.trans otherFound
        exact (ih ⟨next, aliased, rest⟩).imp_left (List.mem_cons_of_mem _)

/-- A typedef is circular if what it aliases reaches it. -/
theorem circular_iff : index.Circular id ↔
    ∃ decl, index.typedefs.get? id = some decl ∧ index.Reaches decl.aliased id := by
  rw [Circular, Relation.TransGen.head'_iff]
  constructor
  · rintro ⟨next, ⟨decl, found, aliased⟩, path⟩
    exact ⟨decl, found, next, aliased, path⟩
  · rintro ⟨decl, found, next, aliased, path⟩
    exact ⟨next, ⟨decl, found, aliased⟩, path⟩

/-- A type from which no way leads on reaches no typedef of the index. -/
theorem Reaches.missing (reaches : index.Reaches last id)
    (ended : index.typedefWays.next? last = none) : index.typedefs.get? id = none := by
  obtain ⟨first, isNamed, path⟩ := reaches
  rw [next?_typedefWays_eq_none isNamed] at ended
  rcases Relation.ReflTransGen.cases_head path with rfl | ⟨next, ⟨decl, found, -⟩, -⟩
  · exact ended
  · cases ended.symm.trans found

/-- On the way to a type from which none leads on, no typedef is circular. -/
theorem not_circular_of_trail (trail : index.typedefWays.Trail type names last)
    (distinct : names.Nodup) (ended : index.typedefWays.next? last = none)
    (reaches : index.Reaches type id) : ¬index.Circular id := by
  rw [circular_iff]
  rintro ⟨decl, found, back⟩
  have beyond (reached : index.Reaches last id) : False := by
    cases (reached.missing ended).symm.trans found
  rcases reaches.mem_trail trail with member | reached
  · obtain ⟨before, after, rfl⟩ := List.append_of_mem member
    obtain ⟨mid, next, -, atName, leads, later⟩ := trail.split
    obtain ⟨other, -, otherFound, rfl⟩ := typedef_of_leads atName leads
    cases found.symm.trans otherFound
    -- Behind a typedef of the trail its own name is not met again.
    rcases back.mem_trail later with twice | reached
    · exact (List.nodup_cons.mp (List.nodup_append.mp distinct).2.1).1 twice
    · exact beyond reached
  · exact beyond reached

/-- A trail ends where it began, or at what a typedef on the way aliases. -/
theorem eq_or_aliased_of_trail (trail : index.typedefWays.Trail type names last) :
    last = type ∨ ∃ id decl, index.Reaches type id ∧ index.typedefs.get? id = some decl ∧
      last = decl.aliased := by
  rcases List.eq_nil_or_concat names with rfl | ⟨before, id, rfl⟩
  · cases trail
    exact .inl rfl
  · rw [List.concat_eq_append] at trail
    obtain ⟨mid, next, first, atName, leads, rest⟩ := trail.split
    obtain ⟨decl, isNamed, found, rfl⟩ := typedef_of_leads atName leads
    cases rest
    exact .inr ⟨id, decl, .of_trail first isNamed, found, rfl⟩

/-- A type from which no way leads on is no typedef, or one that is missing. -/
theorem plain_or_missing_iff :
    (∀ id, last.shape ≠ .named id) ∨ index.NamesMissing last ↔
      index.typedefWays.next? last = none := by
  cases isNamed : last.shape.typedef? with
  | none =>
      refine iff_of_true (.inl fun id same => ?_) (by simp [typedefWays, isNamed])
      cases isNamed.symm.trans (TypeShape.typedef?_eq_some_iff.mpr same)
  | some id =>
      rw [TypeShape.typedef?_eq_some_iff] at isNamed
      rw [next?_typedefWays_eq_none isNamed]
      constructor
      · rintro (isPlain | ⟨other, otherNamed, missing⟩)
        · exact absurd isNamed (isPlain id)
        · cases isNamed.symm.trans otherNamed
          exact missing
      · exact fun missing => .inr ⟨id, isNamed, missing⟩

/-- A type from which no way leads on is what its typedefs stand for. -/
theorem canonicalType_of_ended (ended : index.typedefWays.next? last = none) :
    index.canonicalType last = last := by
  refine (walks_canonicalType .here List.nodup_nil fun name next _ leads => ?_).1
  cases ended.symm.trans leads

/-- Where a way leads on from the end of a walk, the end lies on a circle; begun anew from
there, the walk goes around once. -/
theorem circular_of_trail (trail : index.typedefWays.Trail type names last)
    (distinct : names.Nodup) (ends : index.typedefWays.Ends names last)
    (leads : index.typedefWays.next? last = some next) :
    ∃ id, last.shape = .named id ∧ index.Circular id ∧ index.canonicalType last = last := by
  have inside := mt plain_or_missing_iff.mp (leads ▸ Option.some_ne_none next)
  obtain ⟨id, isNamed⟩ : ∃ id, last.shape = .named id := by
    by_contra none
    exact inside (.inl (not_exists.mp none))
  have atName : index.typedefWays.name? last = some id := name?_typedefWays.mpr isNamed
  have leadsTo {first second : QualType} {name : DeclId}
      (atFirst : index.typedefWays.name? first = some name)
      (atSecond : index.typedefWays.name? second = some name) :
      index.typedefWays.next? first = index.typedefWays.next? second := by
    rw [next?_typedefWays (name?_typedefWays.mp atFirst),
      next?_typedefWays (name?_typedefWays.mp atSecond)]
  obtain ⟨after, part, around⟩ := trail.circle leadsTo atName leads (ends id next atName leads)
  refine ⟨id, isNamed, ?_, ?_⟩
  · obtain ⟨decl, -, found, rfl⟩ := typedef_of_leads atName leads
    exact circular_iff.mpr ⟨decl, found, .of_trail around isNamed⟩
  · refine (walks_canonicalType (.on atName leads around) (part.nodup distinct) ?_).1
    intro other onward otherNamed _
    cases atName.symm.trans otherNamed
    exact List.mem_cons_self

/-- Looking through typedefs comes to an end on any index, and looking again changes
nothing.  The way ends at what is no typedef of the index exactly if it meets no circle,
and on the circle otherwise. -/
theorem canonicalType_ends (index : Index) (type : QualType) :
    (∃ rounds ≤ index.typedefs.size + 1, ∀ others last,
      index.typedefWays.Walks [] type others last ↔
        others = rounds ∧ last = index.canonicalType type) ∧
    (index.canonicalType type = type ∨ ∃ id decl, index.Reaches type id ∧
      index.typedefs.get? id = some decl ∧ index.canonicalType type = decl.aliased) ∧
    ((∀ id, (index.canonicalType type).shape ≠ .named id) ∨
      index.NamesMissing (index.canonicalType type) ∨
      index.NamesCircular (index.canonicalType type)) ∧
    ((∀ id, (index.canonicalType type).shape ≠ .named id) ∨
        index.NamesMissing (index.canonicalType type) ↔
      ∀ id, index.Reaches type id → ¬index.Circular id) ∧
    index.canonicalType (index.canonicalType type) = index.canonicalType type := by
  obtain ⟨names, last, trail, distinct, ends⟩ := Ways.exists_trail index.listed_typedefWays type
  obtain ⟨rfl, rounds, few, walks⟩ := walks_canonicalType trail distinct ends
  refine ⟨⟨rounds, few, fun others last => ⟨fun again => again.unique walks, ?_⟩⟩,
    eq_or_aliased_of_trail trail, ?_⟩
  · rintro ⟨rfl, rfl⟩
    exact walks
  cases leads : index.typedefWays.next? (index.canonicalType type) with
  | none =>
      have outside := plain_or_missing_iff.mpr leads
      refine ⟨outside.imp_right .inl, iff_of_true outside fun id reaches => ?_,
        canonicalType_of_ended leads⟩
      exact not_circular_of_trail trail distinct leads reaches
  | some next =>
      have inside := mt plain_or_missing_iff.mp (leads ▸ Option.some_ne_none next)
      obtain ⟨id, isNamed, circular, same⟩ := circular_of_trail trail distinct ends leads
      refine ⟨.inr (.inr ⟨id, isNamed, circular⟩), iff_of_false inside fun none => ?_, same⟩
      exact none id (.of_trail trail isNamed) circular

end Index

end NativeBindings
