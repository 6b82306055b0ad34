import Mathlib.Data.Finset.Card
import Mathlib.Data.Finset.Filter
import Mathlib.Logic.Relation
import NativeBindings.Proofs.Mapping.Represented

namespace NativeBindings

/-! # Names that do not lead back to themselves

The mapper looks behind typedefs and enumerations, one after the other, and stops after
as many as the index has.  Where no name leads back to itself that is no bound at all:
every name has a rank, at most the number of names, and what stands behind a name has
names of lower rank only.
-/

/-- A name that stands for another type: of a typedef, or of an enumeration. -/
inductive TypeName where
  | typedef (id : DeclId)
  | enumeration (id : DeclId)
  deriving DecidableEq

mutual

/-- The names in a type, at any depth. -/
def TypeShape.names : TypeShape → List TypeName
  | .named id => [.typedef id]
  | .enumeration id => [.enumeration id]
  | .pointer ⟨_, _, shape⟩ | .leftReference ⟨_, _, shape⟩ | .rightReference ⟨_, _, shape⟩ =>
      shape.names
  | .array ⟨_, _, shape⟩ _ | .openArray ⟨_, _, shape⟩ => shape.names
  | .function ⟨_, _, result⟩ arguments _ => result.names ++ namesOf arguments
  | .void | .bool | .char .. | .integer .. | .float _ | .record _ | .objcPointer _ | .objcAny
  | .other _ => []

def namesOf : List QualType → List TypeName
  | [] => []
  | ⟨_, _, shape⟩ :: rest => shape.names ++ namesOf rest

end

namespace Index

variable (index : Index)

/-- The type that a name of the index stands for. -/
def behind? : TypeName → Option QualType
  | .typedef id => (index.typedefs.get? id).map (·.aliased)
  | .enumeration id => (index.enums.get? id).map (·.base)

/-- Behind the first name stands a type that uses the second. -/
def LeadsTo (name next : TypeName) : Prop :=
  ∃ type, index.behind? name = some type ∧ next ∈ type.shape.names

/-- No typedef and no enumeration leads back to itself. -/
def Acyclic : Prop := ∀ name, ¬Relation.TransGen index.LeadsTo name name

variable {index} in
/-- What stands behind a name is in its declaration. -/
theorem behind?_cases {name : TypeName} {type : QualType}
    (stands : index.behind? name = some type) :
    (∃ decl ∈ index.typedefs.values, name = .typedef decl.id ∧ type = decl.aliased) ∨
      ∃ decl ∈ index.enums.values, name = .enumeration decl.id ∧ type = decl.base := by
  cases name with
  | typedef id =>
      obtain ⟨decl, found, rfl⟩ := Option.map_eq_some_iff.mp stands
      have same : decl.id = id := DeclMap.id_of_get? found
      exact .inl ⟨decl, DeclMap.mem_values_of_get? found, congrArg _ same.symm, rfl⟩
  | enumeration id =>
      obtain ⟨decl, found, rfl⟩ := Option.map_eq_some_iff.mp stands
      have same : decl.id = id := DeclMap.id_of_get? found
      exact .inr ⟨decl, DeclMap.mem_values_of_get? found, congrArg _ same.symm, rfl⟩

/-- Numbers that go down from each name to the next exclude cycles. -/
theorem acyclic_of_decreasing (number : TypeName → Nat)
    (typedefs : ∀ decl ∈ index.typedefs.values, ∀ next ∈ decl.aliased.shape.names,
      number next < number (.typedef decl.id))
    (enums : ∀ decl ∈ index.enums.values, ∀ next ∈ decl.base.shape.names,
      number next < number (.enumeration decl.id)) : index.Acyclic := by
  have decreasing (name next : TypeName) (leads : index.LeadsTo name next) :
      number next < number name := by
    obtain ⟨type, stands, inside⟩ := leads
    rcases behind?_cases stands with ⟨decl, member, rfl, rfl⟩ | ⟨decl, member, rfl, rfl⟩
    · exact typedefs decl member next inside
    · exact enums decl member next inside
  have below {name last : TypeName} (path : Relation.TransGen index.LeadsTo name last) :
      number last < number name := by
    induction path with
    | single step => exact decreasing _ _ step
    | tail _ step ih => exact Nat.lt_trans (decreasing _ _ step) ih
  exact fun name cycle => Nat.lt_irrefl _ (below cycle)

def typeNames : List TypeName :=
  index.typedefs.values.map (.typedef ·.id) ++ index.enums.values.map (.enumeration ·.id)

theorem length_typeNames :
    index.typeNames.length = index.typedefs.size + index.enums.size := by
  simp [typeNames, DeclMap.length_values]

open Classical in
/-- How many names of the index a name leads to, itself among them. -/
noncomputable def rank (name : TypeName) : Nat :=
  (index.typeNames.toFinset.filter (Relation.ReflTransGen index.LeadsTo name ·)).card

/-- The highest rank of a name in a type. -/
noncomputable def depth (shape : TypeShape) : Nat := (shape.names.map index.rank).foldr max 0

variable {index}

theorem mem_typeNames_of_behind? {name : TypeName} {type : QualType}
    (stands : index.behind? name = some type) : name ∈ index.typeNames := by
  simp only [typeNames, List.mem_append, List.mem_map]
  rcases behind?_cases stands with ⟨decl, member, rfl, -⟩ | ⟨decl, member, rfl, -⟩
  · exact .inl ⟨decl, member, rfl⟩
  · exact .inr ⟨decl, member, rfl⟩

theorem rank_le (index : Index) (name : TypeName) :
    index.rank name ≤ index.typedefs.size + index.enums.size := by
  classical
  have all := Finset.card_filter_le index.typeNames.toFinset
    (Relation.ReflTransGen index.LeadsTo name ·)
  have listed := List.toFinset_card_le index.typeNames
  rw [length_typeNames] at listed
  unfold rank
  convert all.trans listed

theorem rank_lt (acyclic : index.Acyclic) {name next : TypeName}
    (leads : index.LeadsTo name next) : index.rank next < index.rank name := by
  classical
  unfold rank
  apply Finset.card_lt_card
  refine ⟨fun other member => ?_, fun contains => ?_⟩
  · rw [Finset.mem_filter] at member ⊢
    exact ⟨member.1, member.2.head leads⟩
  · obtain ⟨type, stands, -⟩ := id leads
    have own : name ∈ index.typeNames.toFinset.filter
        (Relation.ReflTransGen index.LeadsTo name ·) :=
      Finset.mem_filter.mpr ⟨List.mem_toFinset.mpr (mem_typeNames_of_behind? stands), .refl⟩
    have back := (Finset.mem_filter.mp (contains own)).2
    exact acyclic name (.head' leads back)

theorem rank_pos {name : TypeName} {type : QualType} (stands : index.behind? name = some type) :
    0 < index.rank name := by
  classical
  unfold rank
  apply Finset.card_pos.mpr
  exact ⟨name, Finset.mem_filter.mpr
    ⟨List.mem_toFinset.mpr (mem_typeNames_of_behind? stands), .refl⟩⟩

theorem rank_le_depth {shape : TypeShape} {name : TypeName} (member : name ∈ shape.names) :
    index.rank name ≤ index.depth shape := by
  unfold depth
  generalize shape.names = names at member
  induction names with
  | nil => cases member
  | cons head rest ih =>
      rw [List.map_cons, List.foldr_cons]
      rcases List.mem_cons.mp member with rfl | later
      · exact Nat.le_max_left _ _
      · exact Nat.le_trans (ih later) (Nat.le_max_right _ _)

theorem depth_le {shape : TypeShape} {bound : Nat}
    (each : ∀ name ∈ shape.names, index.rank name ≤ bound) : index.depth shape ≤ bound := by
  unfold depth
  generalize shape.names = names at each
  induction names with
  | nil => exact Nat.zero_le _
  | cons head rest ih =>
      rw [List.map_cons, List.foldr_cons]
      have first := each head List.mem_cons_self
      have others := ih fun name member => each name (List.mem_cons_of_mem _ member)
      omega

/-- What stands behind a name is less deep than the name ranks. -/
theorem depth_lt_rank (acyclic : index.Acyclic) {name : TypeName} {type : QualType}
    (stands : index.behind? name = some type) : index.depth type.shape < index.rank name := by
  have lower : index.depth type.shape ≤ index.rank name - 1 := by
    apply depth_le
    intro next inside
    have less := rank_lt acyclic ⟨type, stands, inside⟩
    omega
  have positive := rank_pos stands
  omega

/-- What stands behind a name in a type is less deep than the type. -/
theorem depth_behind (acyclic : index.Acyclic) {shape : TypeShape} {name : TypeName}
    {type : QualType} (member : name ∈ shape.names) (stands : index.behind? name = some type) :
    index.depth type.shape < index.depth shape :=
  Nat.lt_of_lt_of_le (depth_lt_rank acyclic stands) (rank_le_depth member)

/-- A computation on types that looks behind names, round after round.  It is at its end
once there are as many rounds as the type is deep. -/
theorem rounds_stable {β : Type} {step : (QualType → β) → TypeShape → β}
    {within : Nat → QualType → β}
    (sees : ∀ first second shape, (∀ name ∈ shape.names, ∀ type,
      index.behind? name = some type → first type = second type) →
        step first shape = step second shape)
    (start : ∃ bottom, ∀ type, within 0 type = step bottom type.shape)
    (next : ∀ rounds type, within (rounds + 1) type = step (within rounds) type.shape)
    (acyclic : index.Acyclic) {type : QualType} {rounds more : Nat}
    (enough : index.depth type.shape ≤ rounds) (le : rounds ≤ more) :
    within more type = within rounds type := by
  obtain ⟨bottom, atStart⟩ := start
  induction rounds generalizing type more with
  | zero =>
      have nothing (first second : QualType → β) : step first type.shape = step second type.shape := by
        apply sees
        intro name member other stands
        have positive := rank_pos stands
        have below : index.rank name ≤ index.depth type.shape := rank_le_depth member
        omega
      cases more with
      | zero => rfl
      | succ more => rw [next, atStart, nothing]
  | succ rounds ih =>
      obtain ⟨more, rfl⟩ : ∃ fewer, more = fewer + 1 := ⟨more - 1, by omega⟩
      rw [next, next]
      apply sees
      intro name member other stands
      have less := depth_behind acyclic member stands
      exact ih (by omega) (by omega)

section Found

variable (index) (follow : QualType → Represents Representation) {id : DeclId}

theorem representEnumeration_found {decl : EnumDecl} (found : index.enums.get? id = some decl) :
    index.representEnumeration follow id =
      if decl.name.isNone then follow decl.base
      else (do
        let classifier ← index.named (.enumeration decl)
        if (← getThe Run).config.isStrict decl then
          pure {
            target := .ofClassifier classifier
            pointed := .ofClassifier (classifier.nested "Var")
            marshalling := .byValue
            info := .enumeration classifier true }
        else
          let base ← follow decl.base
          pure {
            target := .ofClassifier classifier
            pointed := .ofClassifier classifier.variableOf
            marshalling := .byValue
            info := base.info }) := by
  rw [representEnumeration, found]
  rfl

theorem representTypedef_found {decl : TypedefDecl} (found : index.typedefs.get? id = some decl) :
    index.representTypedef follow id = (do
      let aliased ← follow decl.aliased
      if index.keepsName decl aliased then
        let classifier ← index.named (.typedef decl)
        pure {
          target := (TargetType.ofClassifier classifier).withNullable aliased.target.isNullable
          pointed := .ofClassifier classifier.variableOf
          marshalling := aliased.marshalling
          info := aliased.info }
      else pure aliased) := by
  rw [representTypedef, found]
  rfl

end Found

/-- The mapper follows only what stands behind the names in a type. -/
theorem representShapes_congr (first second : QualType → Represents Representation) :
    (∀ shape : TypeShape, (∀ name ∈ shape.names, ∀ type,
        index.behind? name = some type → first type = second type) →
          index.representShape first shape = index.representShape second shape) ∧
      ∀ arguments, (∀ name ∈ namesOf arguments, ∀ type,
        index.behind? name = some type → first type = second type) →
          index.targetsOf first arguments = index.targetsOf second arguments := by
  apply Index.representShape.mutual_induct index first
    (fun shape => (∀ name ∈ shape.names, ∀ type,
      index.behind? name = some type → first type = second type) →
        index.representShape first shape = index.representShape second shape)
    (fun arguments => (∀ name ∈ namesOf arguments, ∀ type,
      index.behind? name = some type → first type = second type) →
        index.targetsOf first arguments = index.targetsOf second arguments)
  case case9 => exact fun _ _ _ _ _ _ _ _ _ => rfl
  case case10 =>
    intro spelling isConst otherSpelling otherConst result arguments variadic fixed values value
      behind
    have parameters := values fun name member => behind name (by simp [TypeShape.names, member])
    have output := value fun name member => behind name (by simp [TypeShape.names, member])
    rw [Bool.not_eq_true] at fixed
    rw [fixed, representShape_callback, representShape_callback, parameters, output]
  case case11 =>
    intro spelling isConst shape notVoid notFunction decl forward behind
    rw [representShape_pointer index first notVoid notFunction,
      representShape_pointer index second notVoid notFunction, forward]
  case case12 =>
    intro spelling isConst shape notVoid notFunction plain ih behind
    rw [representShape_pointer index first notVoid notFunction,
      representShape_pointer index second notVoid notFunction, plain, ih behind]
  case case13 | case14 | case19 =>
    intro _ _ _ ih behind
    rw [representShape, representShape, ih behind]
  case case18 =>
    intro _ _ _ _ ih behind
    rw [representShape, representShape, ih behind]
  case case16 =>
    intro id behind
    rw [representShape, representShape]
    cases found : index.enums.get? id with
    | none => simp only [representEnumeration, found]; rfl
    | some decl =>
        have base := behind (.enumeration id) (List.mem_singleton_self _) decl.base
          (by simp [behind?, found])
        rw [representEnumeration_found index first found,
          representEnumeration_found index second found, base]
  case case17 =>
    intro id behind
    rw [representShape, representShape]
    cases found : index.typedefs.get? id with
    | none => simp only [representTypedef, found]; rfl
    | some decl =>
        have aliased := behind (.typedef id) (List.mem_singleton_self _) decl.aliased
          (by simp [behind?, found])
        rw [representTypedef_found index first found, representTypedef_found index second found,
          aliased]
  case case23 =>
    intro _ _ _ _ ih others behind
    have head := ih fun name member => behind name (by simp [namesOf, member])
    have tail := others fun name member => behind name (by simp [namesOf, member])
    rw [targetsOf, targetsOf, head, tail]
  case case1 | case4 | case21 | case22 => exact fun _ => rfl
  case case2 => exact fun _ _ _ _ => rfl
  case case3 | case7 | case15 | case20 => exact fun _ _ => rfl
  case case5 | case6 | case8 => exact fun _ _ _ => rfl

/-- Without cycles the mapper looks behind names wherever it meets one. -/
theorem represent_eq (acyclic : index.Acyclic) (type : QualType) :
    index.represent type = index.representShape index.represent type.shape := by
  have enough : index.depth type.shape ≤ index.typedefs.size + index.enums.size :=
    depth_le fun name _ => index.rank_le name
  have stable := @rounds_stable index _ index.representShape index.representWithin
    (fun first second shape => (representShapes_congr first second).1 shape)
    ⟨fun _ => failure, fun _ => rfl⟩ (fun _ _ => rfl) acyclic _ _ _ enough (Nat.le_succ _)
  exact stable.symm

end Index

end NativeBindings
