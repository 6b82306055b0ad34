import NativeBindings.Proofs.Closure.References
import NativeBindings.Proofs.Mapping.Answered
import NativeBindings.Proofs.Mapping.Bare
import NativeBindings.Proofs.Target.Expansion

namespace NativeBindings

/-! # What typedefs mean

The mapper uses the name of a typedef where it is kept, and what the typedef aliases
where it is not.  With every such name replaced by the representation behind it, a type
is represented as its bare form is.  The base of an enumeration without a name is the one
place in a bare type where a typedef may be met again.
-/

/-- The names of the target that the mapper itself uses. -/
def mapperNames : List Classifier :=
  ["Boolean", "Byte", "Short", "Int", "Long", "UByte", "UShort", "UInt", "ULong", "Float",
    "Double", "Any", "Unit"].map .primitive ++
  ["BooleanVar", "ByteVar", "ShortVar", "IntVar", "LongVar", "UByteVar", "UShortVar", "UIntVar",
    "ULongVar", "FloatVar", "DoubleVar", "CFunction", "CPointer", "CPointerVar",
    "COpaquePointer", "COpaquePointerVar", "CArrayPointer", "CArrayPointerVar", "CValue",
    "ObjCObjectVar"].map .interop

namespace Representation

/-- Does a representation use no alias? -/
def Plain (aliasee? : Classifier → Option TargetType) (representation : Representation) : Prop :=
  representation.target.Plain aliasee? ∧ representation.pointed.Plain aliasee?

/-- Two representations that differ in nothing but aliases. -/
structure SameMeaning (aliasee? : Classifier → Option TargetType)
    (first second : Representation) : Prop where
  target : first.target.SameMeaning aliasee? second.target
  pointed : first.pointed.SameMeaning aliasee? second.pointed
  marshalling : second.marshalling = first.marshalling
  info : second.info = first.info

variable {aliasee? : Classifier → Option TargetType} {first second : Representation}

theorem Plain.sameMeaning (plain : first.Plain aliasee?) : first.SameMeaning aliasee? first :=
  ⟨.refl plain.1, .refl plain.2, rfl, rfl⟩

theorem SameMeaning.left (same : first.SameMeaning aliasee? second) :
    first.SameMeaning aliasee? first :=
  ⟨same.target.left, same.pointed.left, rfl, rfl⟩

end Representation

theorem mem_mapperNames_of_integerName? {size : UInt32} {signed : Bool} {name : String}
    (named : integerName? size signed = some name) :
    .primitive name ∈ mapperNames ∧ .interop (name ++ "Var") ∈ mapperNames := by
  unfold integerName? at named
  cases signed <;> split at named <;> cases named <;> decide

namespace Index

/-- The aliases that stand for typedefs in the names of a run, and for nothing else. -/
structure Unaliases (index : Index) (run : Run) (aliasee? : Classifier → Option TargetType) :
    Prop where
  value : ∀ {id decl aliased own}, index.typedefs.get? id = some decl →
    index.Represented run decl.aliased.shape aliased → index.keepsName decl aliased →
    run.Names (.typedef decl) own → aliasee? own = some aliased.target.nonNull
  memory : ∀ {id decl aliased own}, index.typedefs.get? id = some decl →
    index.Represented run decl.aliased.shape aliased → index.keepsName decl aliased →
    run.Names (.typedef decl) own → aliasee? own.variableOf = some aliased.pointed
  builtIn : ∀ classifier ∈ mapperNames, aliasee? classifier = none
  others : ∀ decl ∈ index.declarations, decl.kind ≠ .typedef →
    ∀ classifier, index.Reference run decl classifier → aliasee? classifier = none

/-- A typedef of the index stands in a type, or behind an enumeration without a name in
it. -/
inductive Mentions (index : Index) : TypeShape → Prop
  | typedef {id decl} : index.typedefs.get? id = some decl → Mentions index (.named id)
  | within {part whole : TypeShape} : index.PartOf part whole → Mentions index part →
      Mentions index whole
  | base {id} {decl : EnumDecl} : index.enums.get? id = some decl → decl.name.isNone →
      Mentions index decl.base.shape → Mentions index (.enumeration id)

variable {index : Index} {run : Run} {aliasee? : Classifier → Option TargetType}

theorem not_mentions_of_no_parts {shape : TypeShape} (none : ∀ part, ¬index.PartOf part shape)
    (notEnum : ∀ id, shape ≠ .enumeration id) : ¬index.Mentions shape := by
  intro mentions
  cases mentions with
  | typedef found => exact none _ (.aliased found)
  | within inside => exact none _ inside
  | base => exact notEnum _ rfl

section Plain

variable (unaliases : index.Unaliases run aliasee?)

include unaliases

theorem plain_primitive {name : String} (member : .primitive name ∈ mapperNames) :
    (TargetType.primitive name).Plain aliasee? :=
  .ofClassifier (unaliases.builtIn _ member)

theorem plain_interop {name : String} (member : .interop name ∈ mapperNames) :
    (TargetType.interop name).Plain aliasee? :=
  .ofClassifier (unaliases.builtIn _ member)

theorem plain_interopOf {name : String} {argument : TargetType}
    (member : .interop name ∈ mapperNames) (plain : argument.Plain aliasee?) :
    (TargetType.interopOf name argument).Plain aliasee? :=
  .generic (unaliases.builtIn _ member) plain

theorem plain_reference {decl : Declaration} {classifier : Classifier}
    (member : decl ∈ index.declarations) (notTypedef : decl.kind ≠ .typedef)
    (reference : index.Reference run decl classifier) :
    (TargetType.ofClassifier classifier).Plain aliasee? :=
  .ofClassifier (unaliases.others decl member notTypedef classifier reference)

theorem plain_pointer {memory : TargetType} (plain : memory.Plain aliasee?) :
    (Representation.pointer (some memory)).Plain aliasee? :=
  ⟨(plain_interopOf unaliases (by decide) plain).withNullable,
    plain_interopOf unaliases (by decide) plain⟩

theorem plain_referent {memory : TargetType} (plain : memory.Plain aliasee?) :
    (Representation.reference memory).Plain aliasee? :=
  ⟨plain_interopOf unaliases (by decide) plain, plain_interopOf unaliases (by decide) plain⟩

theorem plain_array {element : TargetType} (length : Option UInt64)
    (plain : element.Plain aliasee?) : (Representation.array element length).Plain aliasee? :=
  ⟨(plain_interopOf unaliases (by decide) plain).withNullable,
    plain_interopOf unaliases (by decide) plain⟩

theorem plain_record {own : Classifier} {info : TypeInfo}
    (plain : (TargetType.ofClassifier own).Plain aliasee?) :
    (Representation.record own info).Plain aliasee? :=
  ⟨plain_interopOf unaliases (by decide) plain, plain⟩

theorem plain_object {type : TargetType} (plain : type.Plain aliasee?) :
    (Representation.object type.nullable).Plain aliasee? :=
  ⟨plain.withNullable, plain_interopOf unaliases (by decide) plain.withNullable⟩

/-- An enumeration is used by one of its own names, and its memory by another. -/
theorem plain_enumeration {decl : EnumDecl} {own memory : Classifier} {marshalling info}
    (member : .enumeration decl ∈ index.declarations)
    (value : index.Reference run (.enumeration decl) own)
    (ofMemory : index.Reference run (.enumeration decl) memory) :
    Representation.Plain aliasee?
      { target := .ofClassifier own, pointed := .ofClassifier memory, marshalling, info } :=
  ⟨plain_reference unaliases member nofun value, plain_reference unaliases member nofun ofMemory⟩

theorem plain_integer {platform : Platform} {size : UInt32} {signed : Bool}
    {representation : Representation}
    (found : integerRepresentation? platform size signed = some representation) :
    representation.Plain aliasee? := by
  obtain ⟨name, named, rfl⟩ := Option.map_eq_some_iff.mp found
  have listed := mem_mapperNames_of_integerName? named
  exact ⟨plain_primitive unaliases listed.1, plain_interop unaliases listed.2⟩

theorem plain_float {size : UInt32} {representation : Representation}
    (found : floatRepresentation? size = some representation) :
    representation.Plain aliasee? := by
  unfold floatRepresentation? at found
  split at found <;> cases found
  · exact ⟨plain_primitive unaliases (by decide), plain_interop unaliases (by decide)⟩
  · exact ⟨plain_primitive unaliases (by decide), plain_interop unaliases (by decide)⟩

/-- The representation of a type that mentions no typedef uses no alias. -/
theorem Represented.plain {shape : TypeShape} {representation : Representation}
    (represented : index.Represented run shape representation)
    (free : ¬index.Mentions shape) : representation.Plain aliasee? := by
  induction represented with
  | bool =>
      exact ⟨plain_primitive unaliases (by decide), plain_interop unaliases (by decide)⟩
  | char found | integer found => exact plain_integer unaliases found
  | float found => exact plain_float unaliases found
  | pointerToVoid =>
      exact ⟨(plain_interop unaliases (by decide)).withNullable,
        plain_interop unaliases (by decide)⟩
  | @pointerToFunction _ _ result arguments values value same _ _ argumentsIH resultIH =>
      have free : ¬index.Mentions (.function result arguments false) :=
        fun inside => free (.within .pointee inside)
      have parameters : ∀ type ∈ values.map (·.target), type.Plain aliasee? := by
        intro type member
        obtain ⟨found, listed, rfl⟩ := List.mem_map.mp member
        obtain ⟨place, inside, rfl⟩ := List.mem_iff_getElem.mp listed
        have atPlace : place < arguments.length := same ▸ inside
        exact (argumentsIH place _ _ (List.getElem?_eq_getElem atPlace)
          (List.getElem?_eq_getElem inside) fun mentioned =>
            free (.within (.argument (List.getElem_mem atPlace)) mentioned)).1
      have output : (if result.shape.isVoid then .unit else value.target).Plain aliasee? := by
        split
        · exact plain_primitive unaliases (by decide)
        · rename_i notVoid
          exact (resultIH (Bool.eq_false_iff.mpr notVoid) fun mentioned =>
            free (.within .result mentioned)).1
      have memory : (functionMemory (values.map (·.target))
          (if result.shape.isVoid then .unit else value.target)).Plain aliasee? :=
        plain_interopOf unaliases (by decide) (.function parameters output)
      exact plain_pointer unaliases memory
  | pointerToForward forward named =>
      have member := mem_declarations_forwardStruct forward
      exact plain_pointer unaliases (plain_reference unaliases member nofun (.struct named))
  | pointer _ _ ih =>
      exact plain_pointer unaliases (ih fun inside => free (.within .pointee inside)).2
  | leftReference _ ih =>
      exact plain_referent unaliases (ih fun inside => free (.within .leftReferent inside)).2
  | rightReference _ ih =>
      exact plain_referent unaliases (ih fun inside => free (.within .rightReferent inside)).2
  | struct found _ named =>
      have member := mem_declarations_struct found
      exact plain_record unaliases (plain_reference unaliases member nofun (.struct named))
  | nativeClass _ found named =>
      have member := mem_declarations_nativeClass found
      exact plain_record unaliases (plain_reference unaliases member nofun (.nativeClass named))
  | anonymousEnum found unnamed _ ih => exact ih fun inside => free (.base found unnamed inside)
  | strictEnum found _ named strict =>
      exact plain_enumeration unaliases (mem_declarations_enumeration found)
        (.enumeration named) (.strictVariable named strict)
  | openEnum found _ named isOpen =>
      exact plain_enumeration unaliases (mem_declarations_enumeration found)
        (.enumeration named) (.openVariable named isOpen)
  | seenThrough found | kept found => exact absurd (.typedef found) free
  | array _ ih =>
      exact plain_array unaliases _ (ih fun inside => free (.within .element inside)).2
  | openArray _ ih =>
      exact plain_array unaliases _ (ih fun inside => free (.within .openElement inside)).2
  | objcClass found named =>
      have member := mem_declarations_objcClass found
      exact plain_object unaliases (plain_reference unaliases member nofun (.objcClass named))
  | objcProtocol _ found named =>
      have member := mem_declarations_objcProtocol found
      exact plain_object unaliases (plain_reference unaliases member nofun (.objcProtocol named))
  | objcAny => exact plain_object unaliases (plain_primitive unaliases (by decide))

end Plain

theorem Represented.pointed_nonNull {shape : TypeShape} {representation : Representation}
    (represented : index.Represented run shape representation) :
    representation.pointed.nonNull = representation.pointed := by
  induction represented with
  | char found | integer found =>
      obtain ⟨name, -, rfl⟩ := Option.map_eq_some_iff.mp found
      rfl
  | float found =>
      unfold floatRepresentation? at found
      split at found <;> cases found <;> rfl
  | anonymousEnum _ _ _ ih | seenThrough _ _ _ ih => exact ih
  | _ => rfl

/-- A typedef that keeps its name means what it aliases. -/
theorem Unaliases.kept (unaliases : index.Unaliases run aliasee?) {id : DeclId}
    {decl : TypedefDecl} {aliased other : Representation} {own : Classifier}
    (found : index.typedefs.get? id = some decl)
    (represented : index.Represented run decl.aliased.shape aliased)
    (keeps : index.keepsName decl aliased) (named : run.Names (.typedef decl) own)
    (same : aliased.SameMeaning aliasee? other) :
    Representation.SameMeaning aliasee? {
      target := (TargetType.ofClassifier own).withNullable aliased.target.isNullable
      pointed := .ofClassifier own.variableOf
      marshalling := aliased.marshalling
      info := aliased.info } other where
  target := by
    have replaced : ((TargetType.ofClassifier own).withNullable
        aliased.target.isNullable).replaceAliases aliasee? = aliased.target := by
      simp only [TargetType.ofClassifier, TargetType.withNullable, TargetType.replaceAliases,
        unaliases.value found represented keeps named]
      cases aliased.target <;> rfl
    have meaning := same.target
    rw [← replaced] at meaning
    exact .of_replaced meaning
  pointed := by
    have replaced : (TargetType.ofClassifier own.variableOf).replaceAliases aliasee? =
        aliased.pointed := by
      simp only [TargetType.ofClassifier, TargetType.replaceAliases,
        unaliases.memory found represented keeps named]
      exact represented.pointed_nonNull
    have meaning := same.pointed
    rw [← replaced] at meaning
    exact .of_replaced meaning
  marshalling := same.marshalling
  info := same.info

section Bare

variable (unaliases : index.Unaliases run aliasee?)

include unaliases

theorem sameMeaning_interopOf {name : String} {first second : TargetType}
    (member : .interop name ∈ mapperNames) (same : first.SameMeaning aliasee? second) :
    (TargetType.interopOf name first).SameMeaning aliasee? (.interopOf name second) :=
  .generic (unaliases.builtIn _ member) same

theorem sameMeaning_pointer {first second : TargetType}
    (same : first.SameMeaning aliasee? second) :
    (Representation.pointer (some first)).SameMeaning aliasee? (.pointer (some second)) where
  target := (sameMeaning_interopOf unaliases (by decide) same).withNullable true
  pointed := sameMeaning_interopOf unaliases (by decide) same
  marshalling := rfl
  info := rfl

theorem sameMeaning_reference {first second : TargetType}
    (same : first.SameMeaning aliasee? second) :
    (Representation.reference first).SameMeaning aliasee? (.reference second) where
  target := sameMeaning_interopOf unaliases (by decide) same
  pointed := sameMeaning_interopOf unaliases (by decide) same
  marshalling := rfl
  info := rfl

theorem sameMeaning_array {first second : TargetType} (length : Option UInt64)
    (same : first.SameMeaning aliasee? second) :
    (Representation.array first length).SameMeaning aliasee? (.array second length) where
  target := (sameMeaning_interopOf unaliases (by decide) same).withNullable true
  pointed := sameMeaning_interopOf unaliases (by decide) same
  marshalling := rfl
  info := rfl

/-- What is represented is represented in its bare form too, and means the same. -/
def Means (index : Index) (run : Run) (aliasee? : Classifier → Option TargetType)
    (shape : TypeShape) (representation : Representation) : Prop :=
  ∃ other, index.Represented run (index.bareShape shape) other ∧
    representation.SameMeaning aliasee? other

omit unaliases in
/-- A type without parts is bare, so it means what it is represented as. -/
theorem means_of_no_parts {shape : TypeShape} {representation : Representation}
    (represented : index.Represented run shape representation)
    (none : ∀ part, ¬index.PartOf part shape)
    (same : representation.SameMeaning aliasee? representation) :
    index.Means run aliasee? shape representation := by
  refine ⟨representation, ?_, same⟩
  rw [bareShape_of_no_parts none]
  exact represented

theorem means_of_leaf {shape : TypeShape} {representation : Representation}
    (represented : index.Represented run shape representation)
    (none : ∀ part, ¬index.PartOf part shape) (notEnum : ∀ id, shape ≠ .enumeration id) :
    index.Means run aliasee? shape representation := by
  have free := not_mentions_of_no_parts none notEnum
  exact means_of_no_parts represented none (represented.plain unaliases free).sameMeaning

omit unaliases in
theorem means_arguments {arguments : List QualType} {values : List Representation}
    (same : values.length = arguments.length)
    (each : ∀ (place : Nat) (argument : QualType) (value : Representation),
      arguments[place]? = some argument → values[place]? = some value →
        index.Means run aliasee? argument.shape value) :
    ∃ others, index.RepresentedAll run (arguments.map index.bare) others ∧
      List.Forall₂ (TargetType.SameMeaning aliasee?) (values.map (·.target))
        (others.map (·.target)) := by
  induction arguments generalizing values with
  | nil =>
      cases List.length_eq_zero_iff.mp same
      exact ⟨[], ⟨rfl, nofun⟩, .nil⟩
  | cons argument rest ih =>
      obtain ⟨value, more, rfl⟩ := List.exists_cons_of_length_eq_add_one same
      obtain ⟨first, represented, meaning⟩ := each 0 argument value rfl rfl
      obtain ⟨others, ⟨length, tail⟩, meanings⟩ :=
        ih (Nat.succ.inj same) fun place => each (place + 1)
      refine ⟨first :: others, ⟨congrArg (· + 1) length, ?_⟩, .cons meaning.target meanings⟩
      intro place type found atType atFound
      cases place with
      | zero =>
          cases atType
          cases atFound
          exact represented
      | succ place => exact tail place type found atType atFound

theorem means_callback {spelling : String} {isConst : Bool} {result : QualType}
    {arguments : List QualType} {values : List Representation} {value : Representation}
    (same : values.length = arguments.length)
    (inputs : ∀ (place : Nat) (argument : QualType) (value : Representation),
      arguments[place]? = some argument → values[place]? = some value →
        index.Means run aliasee? argument.shape value)
    (output : result.shape.isVoid = false → index.Means run aliasee? result.shape value) :
    index.Means run aliasee?
      (.pointer ⟨spelling, isConst, .function result arguments false⟩)
      (.pointer (some (functionMemory (values.map (·.target))
        (if result.shape.isVoid then .unit else value.target)))) := by
  obtain ⟨others, ⟨length, each⟩, meanings⟩ := means_arguments same inputs
  have memory {first second : TargetType} (result : first.SameMeaning aliasee? second) :
      (Representation.pointer (some (functionMemory (values.map (·.target)) first))).SameMeaning
        aliasee? (.pointer (some (functionMemory (others.map (·.target)) second))) :=
    sameMeaning_pointer unaliases
      (sameMeaning_interopOf unaliases (by decide) (.function meanings result))
  rw [Means, bareShape_pointer, bare, bareShape_function]
  cases isVoid : result.shape.isVoid with
  | true =>
      have bareVoid : (index.bare result).shape.isVoid := by
        rw [bare, TypeShape.isVoid_iff.mp isVoid,
          bareShape_of_no_parts fun _ inside => by cases inside]
        rfl
      refine ⟨_, @Represented.pointerToFunction _ _ _ _ _ _ others value length each
        fun notVoid => ?_, ?_⟩
      · rw [bareVoid] at notVoid
        cases notVoid
      · rw [if_pos bareVoid]
        exact memory (.refl (plain_primitive unaliases (by decide)))
  | false =>
      obtain ⟨other, represented, meaning⟩ := output isVoid
      have notVoid : (index.bare result).shape.isVoid = false := by
        rw [← Bool.not_eq_true, TypeShape.isVoid_iff]
        intro bareVoid
        change index.bareShape result.shape = .void at bareVoid
        rw [bareVoid] at represented
        cases represented
      refine ⟨_, .pointerToFunction length each fun _ => represented, ?_⟩
      rw [notVoid]
      exact memory meaning.target

theorem Represented.means (acyclic : index.Acyclic) {shape : TypeShape}
    {representation : Representation}
    (represented : index.Represented run shape representation) :
    index.Means run aliasee? shape representation := by
  have whole := represented
  induction represented with
  | bool | char | integer | float | struct | nativeClass | objcClass | objcProtocol | objcAny =>
      exact means_of_leaf unaliases whole (fun _ inside => by cases inside)
        (fun _ same => by cases same)
  | pointerToVoid =>
      refine ⟨_, ?_, Representation.Plain.sameMeaning
        ⟨(plain_interop unaliases (by decide)).withNullable, plain_interop unaliases (by decide)⟩⟩
      rw [bareShape_pointer, bare, bareShape_of_no_parts fun _ inside => by cases inside]
      exact .pointerToVoid
  | pointerToFunction same each output argumentsIH resultIH =>
      exact means_callback unaliases same
        (fun place argument value atArgument atValue =>
          argumentsIH place argument value atArgument atValue
            (each place argument value atArgument atValue))
        fun notVoid => resultIH notVoid (output notVoid)
  | pointerToForward forward named =>
      have member := mem_declarations_forwardStruct forward
      have plain := plain_reference unaliases member (fun same => by cases same) (.struct named)
      refine ⟨_, ?_, (plain_pointer unaliases plain).sameMeaning⟩
      rw [bareShape_pointer]
      exact .pointerToForward ((forwardStruct?_bare acyclic _).trans forward) named
  | pointer plain inside ih =>
      obtain ⟨other, represented, same⟩ := ih inside
      refine ⟨_, ?_, sameMeaning_pointer unaliases same.pointed⟩
      rw [bareShape_pointer]
      exact .pointer ((forwardStruct?_bare acyclic _).trans plain) represented
  | leftReference inside ih =>
      obtain ⟨other, represented, same⟩ := ih inside
      refine ⟨_, ?_, sameMeaning_reference unaliases same.pointed⟩
      rw [bareShape_leftReference]
      exact .leftReference represented
  | rightReference inside ih =>
      obtain ⟨other, represented, same⟩ := ih inside
      refine ⟨_, ?_, sameMeaning_reference unaliases same.pointed⟩
      rw [bareShape_rightReference]
      exact .rightReference represented
  | array inside ih =>
      obtain ⟨other, represented, same⟩ := ih inside
      refine ⟨_, ?_, sameMeaning_array unaliases _ same.pointed⟩
      rw [bareShape_array]
      exact .array represented
  | openArray inside ih =>
      obtain ⟨other, represented, same⟩ := ih inside
      refine ⟨_, ?_, sameMeaning_array unaliases _ same.pointed⟩
      rw [bareShape_openArray]
      exact .openArray represented
  | anonymousEnum found unnamed inside ih =>
      obtain ⟨other, -, same⟩ := ih inside
      exact means_of_no_parts whole (fun _ inside => by cases inside) same.left
  | strictEnum found _ named strict =>
      refine means_of_no_parts whole (fun _ inside => by cases inside)
        (Representation.Plain.sameMeaning ?_)
      exact plain_enumeration unaliases (mem_declarations_enumeration found)
        (.enumeration named) (.strictVariable named strict)
  | openEnum found _ named isOpen =>
      refine means_of_no_parts whole (fun _ inside => by cases inside)
        (Representation.Plain.sameMeaning ?_)
      exact plain_enumeration unaliases (mem_declarations_enumeration found)
        (.enumeration named) (.openVariable named isOpen)
  | seenThrough found inside _ ih =>
      rw [Means, bareShape_named acyclic found]
      exact ih inside
  | kept found inside keeps named ih =>
      obtain ⟨other, represented, same⟩ := ih inside
      refine ⟨other, ?_, unaliases.kept found inside keeps named same⟩
      rw [bareShape_named acyclic found]
      exact represented

end Bare

end Index

end NativeBindings
