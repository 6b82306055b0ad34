import NativeBindings.Proofs.Build.Attempt
import NativeBindings.Proofs.Mapping.Bare
import NativeBindings.Proofs.Mapping.Settled

namespace NativeBindings

/-! # What typedefs hide

A typedef is represented whenever what it aliases is.  So typedefs would not matter to
whether a type is represented, but for three places where the mapper looks at the
outermost part of a type alone: behind a pointer for `void` and for a function, and at a
result for `void`.  There a typedef hides what it aliases.
-/

namespace TypeShape

def isFunction : TypeShape → Bool
  | .function .. => true
  | _ => false

/-- The type of the memory that a reference or an array stands for. -/
def memory? : TypeShape → Option QualType
  | .leftReference type | .rightReference type | .array type _ | .openArray type => some type
  | _ => none

theorem exists_of_isFunction {shape : TypeShape} (isFunction : shape.isFunction) :
    ∃ result arguments variadic, shape = .function result arguments variadic := by
  cases shape <;> simp_all [TypeShape.isFunction]

end TypeShape

namespace Index

/-- A type that is not `void`, but is so once its typedefs are replaced. -/
def HidesVoid (index : Index) (shape : TypeShape) : Prop :=
  shape.isVoid = false ∧ (index.bareShape shape).isVoid

def HidesFunction (index : Index) (shape : TypeShape) : Prop :=
  shape.isFunction = false ∧ (index.bareShape shape).isFunction

instance (index : Index) (shape : TypeShape) : Decidable (index.HidesVoid shape) :=
  inferInstanceAs (Decidable (_ ∧ _))

instance (index : Index) (shape : TypeShape) : Decidable (index.HidesFunction shape) :=
  inferInstanceAs (Decidable (_ ∧ _))

/-- Somewhere in a type a typedef hides what the mapper looks for. -/
inductive Hides (index : Index) : TypeShape → Prop
  | pointee {type : QualType} :
      index.HidesVoid type.shape ∨ index.HidesFunction type.shape → Hides index (.pointer type)
  | result {type : QualType} {arguments variadic} :
      index.HidesVoid type.shape → Hides index (.function type arguments variadic)
  | within {part whole : TypeShape} : index.PartOf part whole → Hides index part →
      Hides index whole

variable {index : Index} {run : Run}

theorem not_hides_of_no_parts {shape : TypeShape} (none : ∀ part, ¬index.PartOf part shape) :
    ¬index.Hides shape := by
  intro hides
  cases hides with
  | pointee => exact none _ .pointee
  | result => exact none _ .result
  | within inside => exact none _ inside

theorem hides_named {id : DeclId} {decl : TypedefDecl}
    (found : index.typedefs.get? id = some decl) :
    index.Hides (.named id) ↔ index.Hides decl.aliased.shape := by
  refine ⟨fun hides => ?_, .within (.aliased found)⟩
  cases hides with
  | within inside hidden =>
      cases inside with
      | aliased again =>
          cases found.symm.trans again
          exact hidden

theorem hides_pointer {type : QualType} :
    index.Hides (.pointer type) ↔
      (index.HidesVoid type.shape ∨ index.HidesFunction type.shape) ∨
        index.Hides type.shape := by
  refine ⟨fun hides => ?_, fun hides => hides.elim .pointee (.within .pointee)⟩
  cases hides with
  | pointee here => exact .inl here
  | within inside hidden =>
      cases inside
      exact .inr hidden

/-- The memory's type is the one part of a reference or an array. -/
theorem partOf_memory {shape part : TypeShape} {type : QualType}
    (memory : shape.memory? = some type) : index.PartOf part shape ↔ part = type.shape := by
  constructor
  · intro inside
    cases inside <;> cases memory <;> rfl
  · rintro rfl
    cases shape with
    | leftReference => cases memory; exact .leftReferent
    | rightReference => cases memory; exact .rightReferent
    | array => cases memory; exact .element
    | openArray => cases memory; exact .openElement
    | _ => cases memory

theorem hides_memory {shape : TypeShape} {type : QualType} (memory : shape.memory? = some type) :
    index.Hides shape ↔ index.Hides type.shape := by
  refine ⟨fun hides => ?_, .within ((partOf_memory memory).mpr rfl)⟩
  cases hides with
  | pointee | result => cases memory
  | within inside hidden =>
      rw [partOf_memory memory] at inside
      exact inside ▸ hidden

theorem memory?_bareShape {shape : TypeShape} {type : QualType}
    (memory : shape.memory? = some type) :
    (index.bareShape shape).memory? = some (index.bare type) := by
  cases shape <;> cases memory
  · rw [bareShape_leftReference, TypeShape.memory?]
  · rw [bareShape_rightReference, TypeShape.memory?]
  · rw [bareShape_array, TypeShape.memory?]
  · rw [bareShape_openArray, TypeShape.memory?]

theorem hides_function {type : QualType} {arguments : List QualType} {variadic : Bool} :
    index.Hides (.function type arguments variadic) ↔
      (index.HidesVoid type.shape ∨ index.Hides type.shape) ∨
        ∃ argument ∈ arguments, index.Hides argument.shape := by
  constructor
  · intro hides
    cases hides with
    | result here => exact .inl (.inl here)
    | within inside hidden =>
        cases inside with
        | result => exact .inl (.inr hidden)
        | argument member => exact .inr ⟨_, member, hidden⟩
  · rintro ((here | hidden) | ⟨argument, member, hidden⟩)
    · exact .result here
    · exact .within .result hidden
    · exact .within (.argument member) hidden

theorem hides_callback {spelling : String} {isConst variadic : Bool} {result : QualType}
    {arguments : List QualType} :
    index.Hides (.pointer ⟨spelling, isConst, .function result arguments variadic⟩) ↔
      (index.HidesVoid result.shape ∨ index.Hides result.shape) ∨
        ∃ argument ∈ arguments, index.Hides argument.shape := by
  rw [hides_pointer, ← hides_function]
  apply or_iff_right
  simp [HidesVoid, HidesFunction, bareShape_function, TypeShape.isVoid, TypeShape.isFunction]

/-- Nothing is hidden in a typedef of a record. -/
theorem not_hides_of_record (acyclic : index.Acyclic) {type : QualType} {id : DeclId}
    (isRecord : index.bareShape type.shape = .record id) : ¬index.Hides type.shape := by
  obtain ⟨names, last, unfolds⟩ := exists_unfolds acyclic type
  induction unfolds with
  | done missing =>
      rcases bareShape_of_missing missing with same | ⟨⟨part, inside⟩, -⟩
      · rw [← same, isRecord]
        exact not_hides_of_no_parts fun _ inside => by cases inside
      · rw [isRecord] at inside
        cases inside
  | step isNamed found _ ih =>
      rw [isNamed, bareShape_named acyclic found] at isRecord
      rw [isNamed, hides_named found]
      exact ih isRecord

theorem bareShape_of_forward (acyclic : index.Acyclic) {type : QualType} {decl : StructDecl}
    (forward : index.forwardStruct? type = some decl) :
    ∃ id, index.bareShape type.shape = .record id := by
  unfold forwardStruct? at forward
  split at forward
  · rename_i id isRecord
    exact ⟨id, (bareShape_eq_iff acyclic fun _ inside => by cases inside).mpr isRecord⟩
  · cases forward

/-- A type is represented if its bare form is and nothing is hidden. -/
def Transparent (index : Index) (run : Run) (shape : TypeShape) : Prop :=
  index.Representable run shape ↔
    index.Representable run (index.bareShape shape) ∧ ¬index.Hides shape

section Represented

variable (names : index.NamesTypedefs run) (acyclic : index.Acyclic)

include acyclic

theorem not_representable_void : ¬index.Representable run .void :=
  (@representable_iff index run acyclic .void False .failure).mp

theorem not_representable_function {result : QualType} {arguments : List QualType}
    {variadic : Bool} : ¬index.Representable run (.function result arguments variadic) :=
  (@representable_iff index run acyclic (.function result arguments variadic) False .failure).mp

/-- A result may be `void`, unless a typedef hides it. -/
theorem representable_result {shape : TypeShape} (transparent : index.Transparent run shape) :
    shape.isVoid ∨ index.Representable run shape ↔
      ((index.bareShape shape).isVoid ∨ index.Representable run (index.bareShape shape)) ∧
        ¬(index.HidesVoid shape ∨ index.Hides shape) := by
  have bareVoid (isVoid : (index.bareShape shape).isVoid) :
      ¬index.Representable run (index.bareShape shape) := by
    rw [TypeShape.isVoid_iff.mp isVoid]
    exact not_representable_void acyclic
  by_cases isVoid : shape.isVoid
  · cases TypeShape.isVoid_iff.mp isVoid
    have visible : ¬index.Hides .void :=
      not_hides_of_no_parts fun _ inside => by cases inside
    have same : index.bareShape .void = .void :=
      bareShape_of_no_parts fun _ inside => by cases inside
    simp [HidesVoid, same, visible, isVoid]
  · rw [Transparent] at transparent
    rw [transparent]
    simp only [HidesVoid]
    grind

include names

theorem transparent_callback {spelling : String} {isConst variadic : Bool} {result : QualType}
    {arguments : List QualType} (output : index.Transparent run result.shape)
    (inputs : ∀ argument ∈ arguments, index.Transparent run argument.shape) :
    index.Transparent run (.pointer ⟨spelling, isConst, .function result arguments variadic⟩) := by
  have values : (∀ argument ∈ arguments, index.Representable run argument.shape) ↔
      (∀ argument ∈ arguments.map index.bare, index.Representable run argument.shape) ∧
        ¬∃ argument ∈ arguments, index.Hides argument.shape := by
    rw [List.forall_mem_map]
    push Not
    rw [← forall₂_and]
    exact forall₂_congr inputs
  have value := representable_result acyclic output
  rw [Transparent, bareShape_pointer, bare, bareShape_function,
    representable_callback names acyclic, representable_callback names acyclic, hides_callback,
    values, value]
  constructor
  · rintro ⟨fixed, ⟨inputs, noInput⟩, output, noOutput⟩
    exact ⟨⟨fixed, inputs, output⟩, fun hides => hides.elim noOutput noInput⟩
  · rintro ⟨⟨fixed, inputs, output⟩, nothing⟩
    exact ⟨fixed, ⟨inputs, fun hides => nothing (.inr hides)⟩, output,
      fun hides => nothing (.inl hides)⟩

omit names acyclic in
theorem transparent_pointerToVoid {type : QualType} (isVoid : type.shape = .void) :
    index.Transparent run (.pointer type) := by
  have none (part : TypeShape) : ¬index.PartOf part type.shape := by
    rw [isVoid]
    exact fun inside => by cases inside
  have same : index.bare type = type := by
    rw [bare, bareShape_of_no_parts none]
    cases type
    rfl
  have visible : ¬index.Hides (.pointer type) := by
    rw [hides_pointer, HidesVoid, HidesFunction, bareShape_of_no_parts none]
    simp [not_hides_of_no_parts none]
  rw [Transparent, bareShape_pointer, same]
  exact (and_iff_left visible).symm

omit names in
theorem transparent_forward {type : QualType} {decl : StructDecl}
    (forward : index.forwardStruct? type = some decl) :
    index.Transparent run (.pointer type) := by
  obtain ⟨id, isRecord⟩ := bareShape_of_forward acyclic forward
  have visible : ¬index.Hides (.pointer type) := by
    rw [hides_pointer, HidesVoid, HidesFunction, isRecord]
    simp [not_hides_of_record acyclic isRecord, TypeShape.isVoid, TypeShape.isFunction]
  have bareForward := (forwardStruct?_bare acyclic type).trans forward
  rw [Transparent, bareShape_pointer, representable_forward acyclic forward,
    representable_forward acyclic bareForward]
  exact (and_iff_left visible).symm

omit names in
/-- What is hidden behind a pointer is not represented as what it is. -/
theorem not_representable_hidden {shape : TypeShape}
    (hidden : index.HidesVoid shape ∨ index.HidesFunction shape) :
    ¬index.Representable run (index.bareShape shape) := by
  rcases hidden with ⟨-, void⟩ | ⟨-, function⟩
  · rw [TypeShape.isVoid_iff.mp void]
    exact not_representable_void acyclic
  · obtain ⟨result, arguments, variadic, same⟩ := TypeShape.exists_of_isFunction function
    rw [same]
    exact not_representable_function acyclic

/-- A pointer to memory of which values can be asked. -/
theorem transparent_memoryPointer {type : QualType} (notVoid : type.shape ≠ .void)
    (notFunction : ∀ result arguments variadic, type.shape ≠ .function result arguments variadic)
    (plain : index.forwardStruct? type = none) (behind : index.Transparent run type.shape) :
    index.Transparent run (.pointer type) := by
  rw [Transparent, bareShape_pointer, representable_pointer names acyclic notVoid notFunction plain,
    hides_pointer]
  rw [Transparent] at behind
  by_cases isHidden : index.HidesVoid type.shape ∨ index.HidesFunction type.shape
  · exact iff_of_false
      (fun found => not_representable_hidden acyclic isHidden (behind.mp found).1)
      fun found => found.2 (.inl isHidden)
  · have bareNotVoid : (index.bare type).shape ≠ .void := by
      intro same
      refine isHidden (.inl ⟨?_, congrArg TypeShape.isVoid same⟩)
      rw [← Bool.not_eq_true]
      exact fun here => notVoid (TypeShape.isVoid_iff.mp here)
    have bareNotFunction : ∀ result arguments variadic,
        (index.bare type).shape ≠ .function result arguments variadic := by
      intro result arguments variadic same
      refine isHidden (.inr ⟨?_, congrArg TypeShape.isFunction same⟩)
      rw [← Bool.not_eq_true]
      intro here
      obtain ⟨output, inputs, more, isFunction⟩ := TypeShape.exists_of_isFunction here
      exact notFunction output inputs more isFunction
    have barePlain := (forwardStruct?_bare acyclic type).trans plain
    rw [or_iff_right isHidden,
      representable_pointer names acyclic bareNotVoid bareNotFunction barePlain]
    exact behind

theorem transparent_pointer {type : QualType}
    (parts : ∀ part, Relation.TransGen index.PartOf part (.pointer type) →
      index.Transparent run part) :
    index.Transparent run (.pointer type) := by
  by_cases isVoid : type.shape = .void
  · exact transparent_pointerToVoid isVoid
  by_cases isFunction : ∃ result arguments variadic,
      type.shape = .function result arguments variadic
  · obtain ⟨spelling, isConst, shape⟩ := type
    obtain ⟨result, arguments, variadic, rfl⟩ := isFunction
    have inside := Relation.TransGen.single (@PartOf.pointee index
      ⟨spelling, isConst, .function result arguments variadic⟩)
    refine transparent_callback names acyclic (parts _ (.head .result inside)) ?_
    exact fun argument member => parts _ (.head (.argument member) inside)
  cases forward : index.forwardStruct? type with
  | some decl => exact transparent_forward acyclic forward
  | none =>
      exact transparent_memoryPointer names acyclic isVoid
        (fun result arguments variadic same => isFunction ⟨result, arguments, variadic, same⟩)
        forward (parts _ (.single .pointee))

theorem representable_memory {shape : TypeShape} {type : QualType}
    (memory : shape.memory? = some type) :
    index.Representable run shape ↔ index.Representable run type.shape := by
  apply representable_iff acyclic
  obtain ⟨_, _, inner⟩ := type
  have settles := settles_shape names acyclic inner
  cases shape <;> cases memory
  all_goals exact settles.map

theorem transparent_memory {shape : TypeShape} {type : QualType}
    (memory : shape.memory? = some type) (part : index.Transparent run type.shape) :
    index.Transparent run shape := by
  rw [Transparent, representable_memory names acyclic memory,
    representable_memory names acyclic (memory?_bareShape memory), hides_memory memory]
  exact part

omit names acyclic in
theorem transparent_of_no_parts {shape : TypeShape} (none : ∀ part, ¬index.PartOf part shape) :
    index.Transparent run shape := by
  rw [Transparent, bareShape_of_no_parts none]
  exact (and_iff_left (not_hides_of_no_parts none)).symm

/-- Whether a type is represented depends on its bare form and on what it hides. -/
theorem transparent (shape : TypeShape) : index.Transparent run shape := by
  induction shape using acyclic.wellFounded.transGen.induction with
  | h shape parts =>
      cases shape with
      | pointer type => exact transparent_pointer names acyclic parts
      | leftReference type =>
          exact transparent_memory names acyclic rfl (parts _ (.single .leftReferent))
      | rightReference type =>
          exact transparent_memory names acyclic rfl (parts _ (.single .rightReferent))
      | array type length =>
          exact transparent_memory names acyclic rfl (parts _ (.single .element))
      | openArray type =>
          exact transparent_memory names acyclic rfl (parts _ (.single .openElement))
      | function result arguments variadic =>
          rw [Transparent, bareShape_function]
          exact iff_of_false (not_representable_function acyclic)
            fun found => not_representable_function acyclic found.1
      | named id =>
          cases found : index.typedefs.get? id with
          | none => exact transparent_of_no_parts (noParts_of_missing found)
          | some decl =>
              rw [Transparent, bareShape_named acyclic found, hides_named found,
                representable_named names acyclic found]
              exact parts _ (.single (.aliased found))
      | _ => exact transparent_of_no_parts fun _ inside => by cases inside

end Represented

theorem represented_iff (type : QualType) :
    ((index.represent type).run run).1.isSome ↔ index.Representable run type.shape := by
  rw [represent_shape, Representable]

theorem resultType_run (type : QualType) :
    ((index.resultType type).run run).1 =
      if type.shape.isVoid then .ok .unit
      else ((index.required type).run run).1.map (·.target) := by
  rw [resultType]
  split
  · rfl
  · rw [bind_pure_comp, ExceptT.run_map]
    rfl

theorem resultType_isOk (type : QualType) :
    ((index.resultType type).run run).1.isOk ↔
      type.shape.isVoid ∨ index.Representable run type.shape := by
  rw [← represented_iff, resultType_run, required_run]
  cases type.shape.isVoid <;> cases ((index.represent type).run run).1 <;>
    simp [Except.map, Except.isOk, Except.toBool]

/-- Without cycles, a type is represented exactly if its bare form is and it hides nothing,
and so is a result. -/
theorem represented_iff_bare (acyclic : index.Acyclic) (names : index.NamesTypedefs run)
    (type : QualType) :
    (((index.represent type).run run).1.isSome ↔
        ((index.represent (index.bare type)).run run).1.isSome ∧ ¬index.Hides type.shape) ∧
      (((index.resultType type).run run).1.isOk ↔
        ((index.resultType (index.bare type)).run run).1.isOk ∧
          ¬(index.HidesVoid type.shape ∨ index.Hides type.shape)) := by
  have same := transparent names acyclic type.shape
  rw [represented_iff, represented_iff, resultType_isOk, resultType_isOk]
  exact ⟨same, representable_result acyclic same⟩

/-- A typedef of `void` behind another, and one of a function. -/
def disguises : Index where
  typedefs := .ofList [
    ⟨⟨"nothing"⟩, "Nothing", .void⟩,
    ⟨⟨"empty"⟩, "Empty", ⟨"Nothing", false, .named ⟨"nothing"⟩⟩⟩,
    ⟨⟨"handler"⟩, "Handler", ⟨"int (int)", false, .function .int [.int] false⟩⟩]

theorem acyclic_disguises : disguises.Acyclic := by
  apply acyclic_of_decreasing disguises fun name =>
    if name = TypeName.typedef ⟨"empty"⟩ then 1 else 0
  · decide
  · decide

theorem represented_iff_bare_disguises :
    let empty : QualType := ⟨"Empty", false, .named ⟨"empty"⟩⟩
    let handler : QualType := ⟨"Handler", false, .named ⟨"handler"⟩⟩
    let run := Run.start {}
    (disguises.Acyclic ∧ disguises.NamesTypedefs run) ∧
      (∀ type ∈ [QualType.pointerTo empty, .pointerTo handler],
        ((disguises.represent (disguises.bare type)).run run).1.isSome ∧
          ¬((disguises.represent type).run run).1.isSome) ∧
      ((disguises.resultType (disguises.bare empty)).run run).1.isOk ∧
        ¬((disguises.resultType empty).run run).1.isOk := by
  intro empty handler run
  have names : disguises.NamesTypedefs run := disguises.namesTypedefs_start {}
  have ofPointer := (represented_iff_bare acyclic_disguises names (.pointerTo empty)).1
  have ofHandler := (represented_iff_bare acyclic_disguises names (.pointerTo handler)).1
  have ofResult := (represented_iff_bare acyclic_disguises names empty).2
  have hidesVoid : disguises.HidesVoid empty.shape := by decide
  have hidesFunction : disguises.HidesFunction handler.shape := by decide
  refine ⟨⟨acyclic_disguises, names⟩, ?_, by decide +kernel, ?_⟩
  · simp only [List.forall_mem_cons]
    refine ⟨⟨by decide +kernel, ?_⟩, ⟨by decide +kernel, ?_⟩, nofun⟩
    · exact fun found => (ofPointer.mp found).2 (.pointee (.inl hidesVoid))
    · exact fun found => (ofHandler.mp found).2 (.pointee (.inr hidesFunction))
  · exact fun found => (ofResult.mp found).2 (.inl hidesVoid)

end Index

end NativeBindings
