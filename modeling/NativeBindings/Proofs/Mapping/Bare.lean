import NativeBindings.Proofs.Mapping.Acyclic
import NativeBindings.Proofs.Mapping.Canonical

namespace NativeBindings

/-! # Types without typedefs

A bare type has every typedef in it, at any depth, replaced by what it aliases.  Without
cycles this comes to an end, and the mapper's own walk along typedefs leads from a type to
the outermost part of its bare form.
-/

theorem TypeShape.isVoid_iff {shape : TypeShape} : shape.isVoid ↔ shape = .void := by
  cases shape <;> simp [TypeShape.isVoid]

mutual

/-- A type with its typedefs replaced, one after the other, at any depth. -/
def TypeShape.replaceNamed (replace : DeclId → TypeShape) : TypeShape → TypeShape
  | .named id => replace id
  | .pointer ⟨spelling, isConst, shape⟩ =>
      .pointer ⟨spelling, isConst, shape.replaceNamed replace⟩
  | .leftReference ⟨spelling, isConst, shape⟩ =>
      .leftReference ⟨spelling, isConst, shape.replaceNamed replace⟩
  | .rightReference ⟨spelling, isConst, shape⟩ =>
      .rightReference ⟨spelling, isConst, shape.replaceNamed replace⟩
  | .array ⟨spelling, isConst, shape⟩ length =>
      .array ⟨spelling, isConst, shape.replaceNamed replace⟩ length
  | .openArray ⟨spelling, isConst, shape⟩ =>
      .openArray ⟨spelling, isConst, shape.replaceNamed replace⟩
  | .function ⟨spelling, isConst, result⟩ arguments variadic =>
      .function ⟨spelling, isConst, result.replaceNamed replace⟩
        (replaceNamedIn replace arguments) variadic
  | .void => .void
  | .bool => .bool
  | .char size signed => .char size signed
  | .integer size signed => .integer size signed
  | .float size => .float size
  | .record id => .record id
  | .enumeration id => .enumeration id
  | .objcPointer id => .objcPointer id
  | .objcAny => .objcAny
  | .other description => .other description

def replaceNamedIn (replace : DeclId → TypeShape) : List QualType → List QualType
  | [] => []
  | ⟨spelling, isConst, shape⟩ :: rest =>
      ⟨spelling, isConst, shape.replaceNamed replace⟩ :: replaceNamedIn replace rest

end

mutual

/-- Only the typedefs in a type matter to what it becomes. -/
theorem TypeShape.replaceNamed_congr {first second : DeclId → TypeShape} : (shape : TypeShape) →
    (∀ id, .typedef id ∈ shape.names → first id = second id) →
      shape.replaceNamed first = shape.replaceNamed second
  | .named id, agree => agree id (List.mem_singleton_self _)
  | .pointer ⟨_, _, shape⟩, agree | .leftReference ⟨_, _, shape⟩, agree
  | .rightReference ⟨_, _, shape⟩, agree | .array ⟨_, _, shape⟩ _, agree
  | .openArray ⟨_, _, shape⟩, agree => by
      rw [TypeShape.replaceNamed, TypeShape.replaceNamed, TypeShape.replaceNamed_congr shape agree]
  | .function ⟨_, _, result⟩ arguments _, agree => by
      have output := TypeShape.replaceNamed_congr result fun id member =>
        agree id (List.mem_append_left _ member)
      have inputs := replaceNamedIn_congr arguments fun id member =>
        agree id (List.mem_append_right _ member)
      rw [TypeShape.replaceNamed, TypeShape.replaceNamed, output, inputs]
  | .void, _ | .bool, _ | .char .., _ | .integer .., _ | .float _, _ | .record _, _
  | .enumeration _, _ | .objcPointer _, _ | .objcAny, _ | .other _, _ => rfl

theorem replaceNamedIn_congr {first second : DeclId → TypeShape} : (types : List QualType) →
    (∀ id, .typedef id ∈ namesOf types → first id = second id) →
      replaceNamedIn first types = replaceNamedIn second types
  | [], _ => rfl
  | ⟨_, _, shape⟩ :: rest, agree => by
      have head := TypeShape.replaceNamed_congr shape fun id member =>
        agree id (List.mem_append_left _ member)
      have tail := replaceNamedIn_congr rest fun id member =>
        agree id (List.mem_append_right _ member)
      rw [replaceNamedIn, replaceNamedIn, head, tail]

end

theorem replaceNamedIn_eq (replace : DeclId → TypeShape) (types : List QualType) :
    replaceNamedIn replace types = types.map fun type =>
      ⟨type.spelling, type.isConst, type.shape.replaceNamed replace⟩ := by
  induction types with
  | nil => rfl
  | cons type rest ih =>
      obtain ⟨spelling, isConst, shape⟩ := type
      rw [replaceNamedIn, ih, List.map_cons]

namespace Index

variable (index : Index)

/-- A type with the typedefs of the index replaced by what `follow` says of their types. -/
def replaceTypedefs (follow : QualType → TypeShape) (shape : TypeShape) : TypeShape :=
  shape.replaceNamed fun id =>
    match index.typedefs.get? id with
    | some decl => follow decl.aliased
    | none => .named id

def bareWithin : (rounds : Nat) → QualType → TypeShape
  | 0, type => index.replaceTypedefs (·.shape) type.shape
  | rounds + 1, type => index.replaceTypedefs (bareWithin rounds) type.shape

/-- A type with every typedef in it replaced by what it aliases, as long as there are
any.  No more typedefs stand behind each other than the index has. -/
def bareShape (shape : TypeShape) : TypeShape :=
  index.bareWithin (index.typedefs.size + index.enums.size) ⟨"", false, shape⟩

def bare (type : QualType) : QualType := ⟨type.spelling, type.isConst, index.bareShape type.shape⟩

/-- What a type is made of: the types in it, and what its typedefs alias. -/
inductive PartOf : TypeShape → TypeShape → Prop
  | pointee {type : QualType} : PartOf type.shape (.pointer type)
  | leftReferent {type : QualType} : PartOf type.shape (.leftReference type)
  | rightReferent {type : QualType} : PartOf type.shape (.rightReference type)
  | element {type : QualType} {length} : PartOf type.shape (.array type length)
  | openElement {type : QualType} : PartOf type.shape (.openArray type)
  | result {type : QualType} {arguments variadic} :
      PartOf type.shape (.function type arguments variadic)
  | argument {type argument : QualType} {arguments variadic} : argument ∈ arguments →
      PartOf argument.shape (.function type arguments variadic)
  | aliased {id} {decl : TypedefDecl} : index.typedefs.get? id = some decl →
      PartOf decl.aliased.shape (.named id)

variable {index}

theorem names_argument {argument : QualType} {arguments : List QualType}
    (member : argument ∈ arguments) : argument.shape.names ⊆ namesOf arguments := by
  induction arguments with
  | nil => cases member
  | cons head rest ih =>
      obtain ⟨_, _, shape⟩ := head
      rw [namesOf]
      rcases List.mem_cons.mp member with rfl | later
      · exact List.subset_append_left _ _
      · exact List.Subset.trans (ih later) (List.subset_append_right _ _)

/-- A part is less deep than the whole, or as deep and smaller. -/
theorem PartOf.decreases (acyclic : index.Acyclic) {part whole : TypeShape}
    (inside : index.PartOf part whole) :
    index.depth part < index.depth whole ∨
      index.depth part ≤ index.depth whole ∧ sizeOf part < sizeOf whole := by
  cases inside with
  | @pointee type | @leftReferent type | @rightReferent type | @element type | @openElement type =>
      obtain ⟨spelling, isConst, shape⟩ := type
      refine .inr ⟨Nat.le_refl _, ?_⟩
      simp
      omega
  | @result type arguments variadic =>
      obtain ⟨spelling, isConst, shape⟩ := type
      refine .inr ⟨depth_le fun name member => rank_le_depth ?_, ?_⟩
      · exact List.mem_append_left _ member
      · simp
        omega
  | @argument type argument arguments variadic member =>
      have smaller := List.sizeOf_lt_of_mem member
      obtain ⟨_, _, result⟩ := type
      refine .inr ⟨depth_le fun name inside => rank_le_depth ?_, ?_⟩
      · exact List.mem_append_right _ (names_argument member inside)
      · obtain ⟨spelling, isConst, shape⟩ := argument
        simp at smaller ⊢
        omega
  | @aliased id decl found =>
      have stands : index.behind? (.typedef id) = some decl.aliased := by simp [behind?, found]
      exact .inl (depth_behind acyclic (List.mem_singleton_self _) stands)

theorem Acyclic.wellFounded (acyclic : index.Acyclic) : WellFounded index.PartOf := by
  have byMeasure : WellFounded (InvImage (Prod.Lex (· < ·) (· < ·))
      fun shape : TypeShape => (index.depth shape, sizeOf shape)) :=
    InvImage.wf _ (Prod.lex Nat.lt_wfRel Nat.lt_wfRel).wf
  refine Subrelation.wf (fun {part whole} inside => ?_) byMeasure
  rcases inside.decreases acyclic with less | ⟨le, smaller⟩
  · exact .left _ _ less
  · rcases Nat.lt_or_eq_of_le le with less | same
    · exact .left _ _ less
    · change Prod.Lex _ _ (index.depth part, sizeOf part) (index.depth whole, sizeOf whole)
      rw [same]
      exact .right _ smaller

section Bare

theorem exists_replaceTypedefs (index : Index) :
    ∃ follow, index.bareShape = index.replaceTypedefs follow := by
  have rounds (number : Nat) : ∃ follow, (fun shape => index.bareWithin number ⟨"", false, shape⟩) =
      index.replaceTypedefs follow := by
    cases number with
    | zero => exact ⟨(·.shape), rfl⟩
    | succ number => exact ⟨index.bareWithin number, rfl⟩
  exact rounds _

variable (index) (type : QualType)

theorem bareShape_pointer : index.bareShape (.pointer type) = .pointer (index.bare type) := by
  obtain ⟨_, _, shape⟩ := type
  obtain ⟨follow, same⟩ := index.exists_replaceTypedefs
  rw [bare, same]
  rfl

theorem bareShape_leftReference :
    index.bareShape (.leftReference type) = .leftReference (index.bare type) := by
  obtain ⟨_, _, shape⟩ := type
  obtain ⟨follow, same⟩ := index.exists_replaceTypedefs
  rw [bare, same]
  rfl

theorem bareShape_rightReference :
    index.bareShape (.rightReference type) = .rightReference (index.bare type) := by
  obtain ⟨_, _, shape⟩ := type
  obtain ⟨follow, same⟩ := index.exists_replaceTypedefs
  rw [bare, same]
  rfl

theorem bareShape_array (length : UInt64) :
    index.bareShape (.array type length) = .array (index.bare type) length := by
  obtain ⟨_, _, shape⟩ := type
  obtain ⟨follow, same⟩ := index.exists_replaceTypedefs
  rw [bare, same]
  rfl

theorem bareShape_openArray :
    index.bareShape (.openArray type) = .openArray (index.bare type) := by
  obtain ⟨_, _, shape⟩ := type
  obtain ⟨follow, same⟩ := index.exists_replaceTypedefs
  rw [bare, same]
  rfl

theorem bareShape_function (arguments : List QualType) (variadic : Bool) :
    index.bareShape (.function type arguments variadic) =
      .function (index.bare type) (arguments.map index.bare) variadic := by
  obtain ⟨_, _, shape⟩ := type
  obtain ⟨follow, same⟩ := index.exists_replaceTypedefs
  have each : index.bare = fun type =>
      ⟨type.spelling, type.isConst, index.replaceTypedefs follow type.shape⟩ := by
    funext type
    rw [bare, same]
  rw [same, each, replaceTypedefs, TypeShape.replaceNamed, replaceNamedIn_eq]
  rfl

variable {index}

/-- A typedef stands for what it aliases. -/
theorem bareShape_named (acyclic : index.Acyclic) {id : DeclId} {decl : TypedefDecl}
    (found : index.typedefs.get? id = some decl) :
    index.bareShape (.named id) = index.bareShape decl.aliased.shape := by
  have stands : index.behind? (.typedef id) = some decl.aliased := by simp [behind?, found]
  have deep : index.depth decl.aliased.shape < index.depth (.named id) :=
    depth_behind acyclic (List.mem_singleton_self _) stands
  have bound : index.depth (.named id) ≤ index.typedefs.size + index.enums.size :=
    depth_le fun name _ => index.rank_le name
  have agree (first second : QualType → TypeShape) (shape : TypeShape)
      (same : ∀ name ∈ shape.names, ∀ type, index.behind? name = some type →
        first type = second type) :
      index.replaceTypedefs first shape = index.replaceTypedefs second shape := by
    apply TypeShape.replaceNamed_congr
    intro id member
    cases found : index.typedefs.get? id with
    | none => rfl
    | some decl => exact same _ member decl.aliased (by simp [behind?, found])
  unfold bareShape
  obtain ⟨rounds, all⟩ : ∃ rounds, index.typedefs.size + index.enums.size = rounds + 1 :=
    ⟨index.typedefs.size + index.enums.size - 1, by omega⟩
  have enough : index.depth decl.aliased.shape ≤ rounds := by omega
  have stable := @rounds_stable index _ index.replaceTypedefs index.bareWithin agree
    ⟨(·.shape), fun _ => rfl⟩ (fun _ _ => rfl) acyclic ⟨"", false, decl.aliased.shape⟩ rounds
    (rounds + 1) enough (Nat.le_succ _)
  rw [all, stable, bareWithin, replaceTypedefs, TypeShape.replaceNamed, found]
  cases rounds <;> rfl

/-- Where there is nothing to look into, there is nothing to replace. -/
theorem bareShape_of_no_parts {shape : TypeShape} (none : ∀ part, ¬index.PartOf part shape) :
    index.bareShape shape = shape := by
  obtain ⟨follow, same⟩ := index.exists_replaceTypedefs
  rw [same, replaceTypedefs]
  cases shape with
  | pointer => exact absurd .pointee (none _)
  | leftReference => exact absurd .leftReferent (none _)
  | rightReference => exact absurd .rightReferent (none _)
  | array => exact absurd .element (none _)
  | openArray => exact absurd .openElement (none _)
  | function => exact absurd .result (none _)
  | named id =>
      cases found : index.typedefs.get? id with
      | none => rw [TypeShape.replaceNamed, found]
      | some decl => exact absurd (.aliased found) (none _)
  | _ => rfl

end Bare

theorem exists_unfolds (acyclic : index.Acyclic) (type : QualType) :
    ∃ names last, index.Unfolds type names last := by
  generalize same : type.shape = shape
  induction shape using acyclic.wellFounded.induction generalizing type with
  | h shape ih =>
      by_cases found : ∃ id decl, shape = .named id ∧ index.typedefs.get? id = some decl
      · obtain ⟨id, decl, rfl, found⟩ := found
        obtain ⟨names, last, unfolds⟩ := ih _ (.aliased found) decl.aliased rfl
        exact ⟨id :: names, last, .step same found unfolds⟩
      · refine ⟨[], type, .done fun id isNamed => ?_⟩
        by_contra known
        obtain ⟨decl, known⟩ := Option.ne_none_iff_exists'.mp known
        exact found ⟨id, decl, same.symm.trans isNamed, known⟩

theorem Unfolds.last_missing {type last : QualType} {names : List DeclId}
    (unfolds : index.Unfolds type names last) {id : DeclId} (isNamed : last.shape = .named id) :
    index.typedefs.get? id = none := by
  induction unfolds with
  | done plain => exact plain id isNamed
  | step _ _ _ ih => exact ih isNamed

theorem Unfolds.bareShape (acyclic : index.Acyclic) {type last : QualType} {names : List DeclId}
    (unfolds : index.Unfolds type names last) :
    index.bareShape type.shape = index.bareShape last.shape := by
  induction unfolds with
  | done => rfl
  | step isNamed found _ ih => rw [isNamed, bareShape_named acyclic found, ih]

/-- The walk along typedefs stops at a type that is none, and with the same bare form. -/
theorem canonicalType_spec (acyclic : index.Acyclic) (type : QualType) :
    index.bareShape type.shape = index.bareShape (index.canonicalType type).shape ∧
      ∀ id, (index.canonicalType type).shape = .named id → index.typedefs.get? id = none := by
  obtain ⟨names, last, unfolds⟩ := exists_unfolds acyclic type
  rw [unfolds.canonicalType]
  exact ⟨unfolds.bareShape acyclic, fun _ => unfolds.last_missing⟩

theorem noParts_of_missing {id : DeclId} (missing : index.typedefs.get? id = none)
    (part : TypeShape) : ¬index.PartOf part (.named id) := by
  intro inside
  cases inside with
  | aliased found => cases missing.symm.trans found

/-- What is no typedef is bare already, or is made of parts in its bare form too. -/
theorem bareShape_of_missing {shape : TypeShape}
    (missing : ∀ id, shape = .named id → index.typedefs.get? id = none) :
    index.bareShape shape = shape ∨
      (∃ part, index.PartOf part (index.bareShape shape)) ∧
        ∀ id, index.bareShape shape ≠ .named id := by
  cases shape with
  | pointer type =>
      rw [bareShape_pointer]
      exact .inr ⟨⟨_, .pointee⟩, nofun⟩
  | leftReference type =>
      rw [bareShape_leftReference]
      exact .inr ⟨⟨_, .leftReferent⟩, nofun⟩
  | rightReference type =>
      rw [bareShape_rightReference]
      exact .inr ⟨⟨_, .rightReferent⟩, nofun⟩
  | array type length =>
      rw [bareShape_array]
      exact .inr ⟨⟨_, .element⟩, nofun⟩
  | openArray type =>
      rw [bareShape_openArray]
      exact .inr ⟨⟨_, .openElement⟩, nofun⟩
  | function result arguments variadic =>
      rw [bareShape_function]
      exact .inr ⟨⟨_, .result⟩, nofun⟩
  | named id => exact .inl (bareShape_of_no_parts (noParts_of_missing (missing id rfl)))
  | _ => exact .inl (bareShape_of_no_parts fun _ inside => by cases inside)

/-- The walk ends at a type without parts if that is the whole of the bare form. -/
theorem bareShape_eq_iff (acyclic : index.Acyclic) {type : QualType} {shape : TypeShape}
    (none : ∀ part, ¬index.PartOf part shape) :
    index.bareShape type.shape = shape ↔ (index.canonicalType type).shape = shape := by
  obtain ⟨same, missing⟩ := canonicalType_spec acyclic type
  rw [same]
  constructor
  · rintro rfl
    rcases bareShape_of_missing missing with bare | ⟨⟨part, inside⟩, -⟩
    · exact bare.symm
    · exact absurd inside (none part)
  · rintro rfl
    exact bareShape_of_no_parts none

/-- A bare type names no typedef of the index. -/
theorem bareShape_ne_named (acyclic : index.Acyclic) {type : QualType} {id : DeclId}
    (isNamed : index.bareShape type.shape = .named id) : index.typedefs.get? id = none := by
  obtain ⟨same, missing⟩ := canonicalType_spec acyclic type
  rw [same] at isNamed
  rcases bareShape_of_missing missing with bare | ⟨-, other⟩
  · exact missing id (bare.symm.trans isNamed)
  · exact absurd isNamed (other id)

theorem canonicalType_bare (acyclic : index.Acyclic) (type : QualType) :
    index.canonicalType (index.bare type) = index.bare type :=
  (Unfolds.done fun _ => bareShape_ne_named acyclic).canonicalType

theorem forwardStruct?_bare (acyclic : index.Acyclic) (type : QualType) :
    index.forwardStruct? (index.bare type) = index.forwardStruct? type := by
  have records (id : DeclId) : index.bareShape type.shape = .record id ↔
      (index.canonicalType type).shape = .record id :=
    bareShape_eq_iff acyclic fun _ inside => by cases inside
  have sameShape : (index.bare type).shape = index.bareShape type.shape := rfl
  unfold forwardStruct?
  rw [canonicalType_bare acyclic, sameShape]
  split
  · rename_i id isRecord
    rw [(records id).mp isRecord]
  · rename_i other
    split
    · rename_i id isRecord
      exact absurd ((records id).mpr isRecord) (other id)
    · rfl

end Index

end NativeBindings
