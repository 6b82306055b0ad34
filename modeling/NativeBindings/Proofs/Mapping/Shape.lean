import NativeBindings.Proofs.Mapping.Canonical

namespace NativeBindings

/-! # The shape of a representation

The info of a representation settles much of the rest: how a value is marshalled, whether
it can be null, and for records and arrays the two types themselves.  Typedefs and
enumerations take parts of one representation and replace others, so the shape has to
survive every name; a name stands in front of no record and no array, and an open
enumeration only in front of a scalar.
-/

/-- Is a value of this kind one number? -/
def TypeInfo.isScalar : TypeInfo → Bool
  | .primitive .. | .boolean | .enumeration .. => true
  | _ => false

namespace Representation

/-- The info of a representation agrees with its types and its marshalling. -/
structure WellShaped (representation : Representation) : Prop where
  target : ∃ classifier arguments nullable,
    representation.target = .named classifier arguments nullable
  pointed : ∃ classifier arguments, representation.pointed = .named classifier arguments false
  nullable : representation.target.isNullable ↔
    representation.info.isArray ∨ representation.info = .objcPointer ∨
      representation.info = .pointer ∧ representation.marshalling = .byPointer
  record : representation.info.isRecord →
    representation.marshalling = .byReference ∧
      representation.target = .interopOf "CValue" representation.pointed
  array : representation.info.isArray →
    representation.marshalling = .byPointer ∧
      ∃ memory, representation.target = (TargetType.interopOf "CArrayPointer" memory).nullable ∧
        representation.pointed = .interopOf "CArrayPointerVar" memory
  copied : representation.info.isScalar ∨ representation.info = .objcPointer →
    representation.marshalling = .byValue
  notString : ∀ wide, representation.info ≠ .string wide
  strict : ∀ classifier strict, representation.info = .enumeration classifier strict →
    strict = true

theorem wellShaped_number (name : String) {info : TypeInfo}
    (isNumber : info = .boolean ∨ ∃ size signed floating, info = .primitive size signed floating) :
    (primitive name info).WellShaped := by
  rcases isNumber with rfl | ⟨size, signed, floating, rfl⟩
  all_goals exact {
    target := ⟨_, _, _, rfl⟩
    pointed := ⟨_, _, rfl⟩
    nullable := by simp [primitive, TargetType.primitive, TargetType.ofClassifier,
      TargetType.isNullable, TypeInfo.isArray]
    record := nofun
    array := nofun
    copied := fun _ => rfl
    notString := nofun
    strict := nofun }

theorem wellShaped_record (classifier : Classifier) {info : TypeInfo} (isRecord : info.isRecord) :
    (record classifier info).WellShaped := by
  cases info with
  | struct | nativeClass =>
      exact {
        target := ⟨_, _, _, rfl⟩
        pointed := ⟨_, _, rfl⟩
        nullable := by simp [record, TargetType.interopOf, TargetType.generic,
          TargetType.isNullable, TypeInfo.isArray]
        record := fun _ => ⟨rfl, rfl⟩
        array := nofun
        copied := nofun
        notString := nofun
        strict := nofun }
  | _ => cases isRecord

theorem wellShaped_reference (memory : TargetType) : (reference memory).WellShaped where
  target := ⟨_, _, _, rfl⟩
  pointed := ⟨_, _, rfl⟩
  nullable := by simp [reference, TargetType.interopOf, TargetType.generic,
    TargetType.isNullable, TypeInfo.isArray]
  record := nofun
  array := nofun
  copied := nofun
  notString := nofun
  strict := nofun

theorem wellShaped_pointer (memory : Option TargetType) : (pointer memory).WellShaped where
  target := by cases memory <;> exact ⟨_, _, _, rfl⟩
  pointed := by cases memory <;> exact ⟨_, _, rfl⟩
  nullable := by
    have isNullable : (pointer memory).target.isNullable = true := by cases memory <;> rfl
    exact ⟨fun _ => .inr (.inr ⟨rfl, rfl⟩), fun _ => isNullable⟩
  record := nofun
  array := nofun
  copied := nofun
  notString := nofun
  strict := nofun

theorem wellShaped_array (memory : TargetType) (length : Option UInt64) :
    (array memory length).WellShaped where
  target := ⟨_, _, _, rfl⟩
  pointed := ⟨_, _, rfl⟩
  nullable := ⟨fun _ => .inl rfl, fun _ => rfl⟩
  record := nofun
  array := fun _ => ⟨rfl, memory, rfl, rfl⟩
  copied := nofun
  notString := nofun
  strict := nofun

theorem wellShaped_object (classifier : Classifier) :
    (object (TargetType.ofClassifier classifier).nullable).WellShaped where
  target := ⟨_, _, _, rfl⟩
  pointed := ⟨_, _, rfl⟩
  nullable := ⟨fun _ => .inr (.inl rfl), fun _ => rfl⟩
  record := nofun
  array := nofun
  copied := fun _ => rfl
  notString := nofun
  strict := nofun

theorem wellShaped_closed (classifier memory : Classifier) :
    WellShaped {
      target := .ofClassifier classifier
      pointed := .ofClassifier memory
      marshalling := .byValue
      info := .enumeration classifier true } where
  target := ⟨_, _, _, rfl⟩
  pointed := ⟨_, _, rfl⟩
  nullable := by simp [TargetType.ofClassifier, TargetType.isNullable, TypeInfo.isArray]
  record := nofun
  array := nofun
  copied := fun _ => rfl
  notString := nofun
  strict := by rintro _ _ ⟨⟩; rfl

/-- A name may stand for whatever is no record and no array. -/
theorem WellShaped.named {aliased : Representation} (shaped : aliased.WellShaped)
    (isAggregate : aliased.isAggregate = false) (classifier memory : Classifier) :
    WellShaped {
      target := (TargetType.ofClassifier classifier).withNullable aliased.target.isNullable
      pointed := .ofClassifier memory
      marshalling := aliased.marshalling
      info := aliased.info } := by
  obtain ⟨notRecord, notArray⟩ := Bool.or_eq_false_iff.mp isAggregate
  exact {
    target := ⟨_, _, _, rfl⟩
    pointed := ⟨_, _, rfl⟩
    nullable := shaped.nullable
    record := fun isRecord => absurd isRecord (Bool.eq_false_iff.mp notRecord)
    array := fun isArray => absurd isArray (Bool.eq_false_iff.mp notArray)
    copied := shaped.copied
    notString := shaped.notString
    strict := shaped.strict }

theorem isAggregate_of_isScalar {representation : Representation}
    (isScalar : representation.info.isScalar) : representation.isAggregate = false := by
  unfold isAggregate
  generalize representation.info = info at isScalar ⊢
  cases info <;> first | rfl | cases isScalar

theorem WellShaped.isNullable_of_isScalar {representation : Representation}
    (shaped : representation.WellShaped) (isScalar : representation.info.isScalar) :
    representation.target.isNullable = false := by
  obtain ⟨-, notArray⟩ := Bool.or_eq_false_iff.mp (isAggregate_of_isScalar isScalar)
  rw [Bool.eq_false_iff, Ne, shaped.nullable]
  rintro (isArray | same | ⟨same, -⟩)
  · exact Bool.eq_false_iff.mp notArray isArray
  · rw [same] at isScalar
    cases isScalar
  · rw [same] at isScalar
    cases isScalar

theorem wellShaped_of_integerRepresentation? {platform : Platform} {size : UInt32} {signed : Bool}
    {representation : Representation}
    (known : integerRepresentation? platform size signed = some representation) :
    representation.WellShaped ∧ representation.info.isScalar := by
  obtain ⟨name, -, rfl⟩ := Option.map_eq_some_iff.mp known
  exact ⟨wellShaped_number name (.inr ⟨_, _, _, rfl⟩), rfl⟩

theorem wellShaped_of_floatRepresentation? {size : UInt32} {representation : Representation}
    (known : floatRepresentation? size = some representation) : representation.WellShaped := by
  unfold floatRepresentation? at known
  split at known <;> cases known <;> exact wellShaped_number _ (.inr ⟨_, _, _, rfl⟩)

end Representation

namespace Index

variable {index : Index} {run : Run}

/-- A typedef that keeps its name stands for no record and no array. -/
theorem isAggregate_of_keepsName {decl : TypedefDecl} {aliased : Representation}
    (keeps : index.keepsName decl aliased) : aliased.isAggregate = false := by
  obtain ⟨-, kind⟩ := (Bool.and_eq_true _ _).mp keeps
  unfold Representation.isAggregate
  generalize aliased.info = info at kind ⊢
  cases info <;> first | rfl | cases kind

/-- A type is represented as a scalar if its typedefs end in a whole number. -/
def ScalarIfIntegral (index : Index) (type : QualType) (info : TypeInfo) : Prop :=
  ∃ names last, index.Unfolds type names last ∧ (last.shape.isIntegral → info.isScalar)

namespace ScalarIfIntegral

variable {type : QualType} {info : TypeInfo}

theorem plain {shape : TypeShape} (same : type.shape = shape) (isPlain : ∀ id, shape ≠ .named id)
    (isScalar : shape.isIntegral → info.isScalar) : index.ScalarIfIntegral type info := by
  subst same
  exact ⟨[], type, .done fun id isNamed => absurd isNamed (isPlain id), isScalar⟩

theorem step {id : DeclId} {decl : TypedefDecl} (isNamed : type.shape = .named id)
    (found : index.typedefs.get? id = some decl)
    (aliased : index.ScalarIfIntegral decl.aliased info) : index.ScalarIfIntegral type info := by
  obtain ⟨names, last, unfolds, isScalar⟩ := aliased
  exact ⟨id :: names, last, .step isNamed found unfolds, isScalar⟩

/-- The base of an enumeration is a whole number. -/
theorem ofBase (integral : index.hasIntegralEnums) {id : DeclId} {decl : EnumDecl}
    (found : index.enums.get? id = some decl) (base : index.ScalarIfIntegral decl.base info) :
    info.isScalar := by
  obtain ⟨names, last, unfolds, isScalar⟩ := base
  have whole := List.all_eq_true.mp integral decl (DeclMap.mem_values_of_get? found)
  rw [unfolds.canonicalType] at whole
  exact isScalar whole

end ScalarIfIntegral

theorem Represented.scalarIfIntegral (integral : index.hasIntegralEnums) {shape : TypeShape}
    {representation : Representation}
    (represented : index.Represented run shape representation) (type : QualType)
    (same : type.shape = shape) : index.ScalarIfIntegral type representation.info := by
  induction represented generalizing type with
  | @seenThrough _ decl _ found _ _ ih | @kept _ decl _ _ found _ _ _ ih =>
      exact .step same found (ih decl.aliased rfl)
  | @anonymousEnum _ decl _ found _ _ ih | @openEnum _ decl _ _ found _ _ _ _ ih =>
      exact .plain same nofun fun _ => ScalarIfIntegral.ofBase integral found (ih decl.base rfl)
  | char known | integer known =>
      exact .plain same nofun fun _ =>
        (Representation.wellShaped_of_integerRepresentation? known).2
  | bool | strictEnum => exact .plain same nofun fun _ => rfl
  | _ => exact .plain same nofun nofun

/-- Whatever is represented is so in the shape that its info asks for. -/
theorem Represented.wellShaped (integral : index.hasIntegralEnums) {shape : TypeShape}
    {representation : Representation}
    (represented : index.Represented run shape representation) : representation.WellShaped := by
  induction represented with
  | bool => exact Representation.wellShaped_number _ (.inl rfl)
  | char known | integer known =>
      exact (Representation.wellShaped_of_integerRepresentation? known).1
  | float known => exact Representation.wellShaped_of_floatRepresentation? known
  | pointerToVoid | pointerToFunction | pointerToForward | pointer =>
      exact Representation.wellShaped_pointer _
  | leftReference | rightReference => exact Representation.wellShaped_reference _
  | struct | nativeClass => exact Representation.wellShaped_record _ rfl
  | anonymousEnum _ _ _ ih => exact ih
  | strictEnum => exact Representation.wellShaped_closed _ _
  | @openEnum _ decl classifier base found _ _ _ inside ih =>
      -- A scalar is copied and never null, so it may be written as if it were.
      have isScalar : base.info.isScalar :=
        ScalarIfIntegral.ofBase integral found (inside.scalarIfIntegral integral decl.base rfl)
      have named := ih.named (Representation.isAggregate_of_isScalar isScalar) classifier
        classifier.variableOf
      rwa [ih.isNullable_of_isScalar isScalar, ih.copied (.inl isScalar)] at named
  | seenThrough _ _ _ ih => exact ih
  | kept _ _ keeps _ ih => exact ih.named (isAggregate_of_keepsName keeps) _ _
  | array | openArray => exact Representation.wellShaped_array _ _
  | objcClass | objcProtocol | objcAny => exact Representation.wellShaped_object _

/-- Whatever a run is asked, and whatever it has decided before, its answer is well shaped. -/
theorem wellShaped_of_represent (integral : index.hasIntegralEnums) {type : QualType}
    {after : Run} {representation : Representation}
    (ends : (index.represent type).run run = (some representation, after)) :
    representation.WellShaped :=
  (answers_of_represent ends).represented.wellShaped integral

/-- Two typedefs of an open enumeration whose base is itself a typedef, and one of an
array. -/
def channels : Index where
  enums := .ofList [{
    id := ⟨"mode"⟩, name := some "Mode", base := ⟨"Word", false, .named ⟨"word"⟩⟩
    constants := [{ name := "MODE_RAW", value := 4, isExplicit := true }] }]
  typedefs := .ofList [
    ⟨⟨"word"⟩, "Word", .uint⟩,
    ⟨⟨"channel_mode"⟩, "ChannelMode", ⟨"enum Mode", false, .enumeration ⟨"mode"⟩⟩⟩,
    ⟨⟨"any_mode"⟩, "AnyMode", ⟨"ChannelMode", false, .named ⟨"channel_mode"⟩⟩⟩,
    ⟨⟨"levels"⟩, "Levels",
      ⟨"AnyMode [4]", false, .array ⟨"AnyMode", false, .named ⟨"any_mode"⟩⟩ 4⟩⟩]

theorem wellShaped_of_represent_channels :
    channels.hasIntegralEnums ∧
      ∀ id ∈ [DeclId.mk "any_mode", ⟨"levels"⟩], ∃ representation after,
        (channels.represent ⟨"", false, .named id⟩).run (.start {}) =
          (some representation, after) ∧ representation.WellShaped := by
  have integral : channels.hasIntegralEnums := by decide
  refine ⟨integral, fun id member => ?_⟩
  have isSome : ∀ id ∈ [DeclId.mk "any_mode", ⟨"levels"⟩],
      ((channels.represent ⟨"", false, .named id⟩).run (.start {})).1.isSome := by
    decide +kernel
  obtain ⟨representation, found⟩ := Option.isSome_iff_exists.mp (isSome id member)
  have ends : (channels.represent ⟨"", false, .named id⟩).run (.start {}) =
      (some representation, _) := Prod.ext found rfl
  exact ⟨representation, _, ends, wellShaped_of_represent integral ends⟩

end Index

end NativeBindings
