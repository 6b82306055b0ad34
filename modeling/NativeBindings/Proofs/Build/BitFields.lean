import NativeBindings.Proofs.Build.Members
import NativeBindings.Proofs.Build.Primitives

namespace NativeBindings

/-! # Bit fields and typedefs

A bit field becomes a property if it can be read as a number.  Of its type it is asked
whether it is represented as one, which typedefs do not change, and whether it is an
enumeration, and a typedef of an enumeration is none.  So a typedef only matters to a bit
field if it stands for an enumeration that is not represented as a number.
-/

/-- Is a value of this sort read off as many bits as there are? -/
def TypeInfo.isPacked : TypeInfo → Bool
  | .primitive .. | .boolean => true
  | _ => false

theorem TypeInfo.isPacked_eq_false_iff {info : TypeInfo} (scalar : info.isScalar) :
    info.isPacked = false ↔ ∃ classifier strict, info = .enumeration classifier strict := by
  cases info with
  | enumeration classifier strict => exact iff_of_true rfl ⟨classifier, strict, rfl⟩
  | primitive | boolean => exact iff_of_false nofun (by rintro ⟨_, _, ⟨⟩⟩)
  | _ => cases scalar

namespace Index

theorem canPack_eq (field : Field) (info : TypeInfo) :
    canPack field info = (info.isPacked || field.type.shape.isEnumeration) := by
  cases info <;> rfl

/-- A field becomes a property that reads so many bits where the field is, and writes no
others. -/
def KeepsBits (index : Index) (run : Run) (field : Field) (width : UInt32) : Prop :=
  ∃ stub after, (index.buildField field).run run = (some stub, after) ∧
    stub.getter? = some (.bitField field.offset width) ∧
    ∀ setter, stub.setter? = some setter → setter = .bitField field.offset width

/-- A type is no enumeration but by its typedefs, and not represented as a number. -/
structure DisguisesEnum (index : Index) (run : Run) (type : QualType) : Prop where
  named : type.shape.isEnumeration = false
  enumeration : (index.canonicalType type).shape.isEnumeration
  noNumber : ∃ info, index.info? run type = some info ∧ info.isPacked = false

variable {index : Index} {run : Run} {field : Field} {width : UInt32}

theorem fieldAccessor?_of_bits (isBits : field.bitWidth = some width) (info : TypeInfo) :
    fieldAccessor? field info =
      if info.isPacked || field.type.shape.isEnumeration then some (.bitField field.offset width)
      else none := by
  rw [fieldAccessor?, isBits]
  simp only [canPack_eq]

/-- What the property of a field reads and writes is where the field is. -/
theorem FieldBuilt.accessors {stub : PropertyStub} (built : index.FieldBuilt run field stub) :
    ∃ info accessor, fieldAccessor? field info = some accessor ∧ stub.getter? = some accessor ∧
      ∀ setter, stub.setter? = some setter → setter = accessor := by
  obtain ⟨representation, accessor, -, found, -, kind⟩ := built.access
  refine ⟨representation.info, accessor, found, ?_⟩
  rw [PropertyStub.getter?, PropertyStub.setter?, kind]
  cases representation.isAggregate || field.type.isConst <;> simp [eq_comm]

theorem buildField_isSome (field : Field) (run : Run) :
    ((index.buildField field).run run).1.isSome ↔
      ∃ info, index.info? run field.type = some info ∧ (fieldAccessor? field info).isSome := by
  rw [buildField, info?]
  rcases asked : (index.represent field.type).run run with ⟨_ | representation, mid⟩
  · rw [Represents.run_bind, asked]
    simp
  · rw [Represents.run_bind_some asked]
    cases found : fieldAccessor? field representation.info with
    | none => simp [found]; rfl
    | some accessor => simp [found]; rfl

/-- A bit field is kept if its type is represented as a number, or is an enumeration that is
represented at all. -/
theorem keepsBits_iff_info (isBits : field.bitWidth = some width) :
    index.KeepsBits run field width ↔ ∃ info, index.info? run field.type = some info ∧
      (info.isPacked || field.type.shape.isEnumeration) := by
  have accessor := fieldAccessor?_of_bits isBits
  have kept : index.KeepsBits run field width ↔ ((index.buildField field).run run).1.isSome := by
    constructor
    · rintro ⟨stub, after, ends, -⟩
      rw [ends]
      rfl
    · intro isSome
      obtain ⟨stub, found⟩ := Option.isSome_iff_exists.mp isSome
      obtain ⟨built, -⟩ := (leaves_buildField field).2 stub found
      obtain ⟨info, own, isOwn, reads, writes⟩ := built.accessors
      rw [accessor] at isOwn
      obtain ⟨-, same⟩ := Option.ite_none_right_eq_some.mp isOwn
      cases same
      exact ⟨stub, _, Prod.ext found rfl, reads, writes⟩
  rw [kept, buildField_isSome]
  refine exists_congr fun info => and_congr_right fun _ => ?_
  rw [accessor]
  split <;> simp_all

section Canonical

variable (acyclic : index.Acyclic) (names : index.NamesTypedefs run)

include acyclic names

theorem info?_canonicalType (type : QualType) :
    index.info? run (index.canonicalType type) = index.info? run type := by
  obtain ⟨chain, last, unfolds⟩ := exists_unfolds acyclic type
  rw [unfolds.canonicalType, unfolds.info? acyclic names]

omit acyclic names in
/-- An enumeration is no typedef, and so its own canonical type. -/
theorem canonicalType_enumeration {type : QualType} (isEnum : type.shape.isEnumeration) :
    index.canonicalType type = type := by
  refine (Unfolds.done fun id isNamed => ?_).canonicalType
  rw [isNamed] at isEnum
  cases isEnum

/-- A bit field is kept if it is kept with its typedefs looked through, unless they disguise an
enumeration. -/
theorem keepsBits_iff (isBits : field.bitWidth = some width) :
    index.KeepsBits run field width ↔
      index.KeepsBits run { field with type := index.canonicalType field.type } width ∧
        ¬index.DisguisesEnum run field.type := by
  have canonical : index.KeepsBits run { field with type := index.canonicalType field.type } width ↔
      ∃ info, index.info? run (index.canonicalType field.type) = some info ∧
        (info.isPacked || (index.canonicalType field.type).shape.isEnumeration) :=
    keepsBits_iff_info isBits
  rw [keepsBits_iff_info isBits, canonical, info?_canonicalType acyclic names]
  constructor
  · rintro ⟨info, known, packed⟩
    refine ⟨⟨info, known, ?_⟩, fun disguised => ?_⟩
    · by_cases isEnum : field.type.shape.isEnumeration
      · rwa [canonicalType_enumeration isEnum]
      · simp_all
    · obtain ⟨other, again, noNumber⟩ := disguised.noNumber
      cases known.symm.trans again
      simp [noNumber, disguised.named] at packed
  · rintro ⟨⟨info, known, packed⟩, plain⟩
    refine ⟨info, known, ?_⟩
    by_contra unpacked
    rw [Bool.not_eq_true, Bool.or_eq_false_iff] at unpacked
    refine plain ⟨unpacked.2, ?_, info, known, unpacked.1⟩
    simpa [unpacked.1] using packed

/-- Where enumerations are made of whole numbers, typedefs disguise the strict ones. -/
theorem disguisesEnum_iff (integral : index.hasIntegralEnums) {type : QualType} :
    index.DisguisesEnum run type ↔
      type.shape.isEnumeration = false ∧ (index.canonicalType type).shape.isEnumeration ∧
        (index.info? run type).isSome ∧
        ∃ closed, index.ClosedBehind run.config (index.canonicalType type).shape closed := by
  have closed_iff {info : TypeInfo} (known : index.info? run type = some info)
      (isEnum : (index.canonicalType type).shape.isEnumeration) :
      info.isPacked = false ↔
        ∃ closed, index.ClosedBehind run.config (index.canonicalType type).shape closed := by
    rw [← info?_canonicalType acyclic names, info?_eq_some_iff] at known
    obtain ⟨representation, after, ends, rfl⟩ := known
    have represented := (answers_of_represent ends).represented
    rw [← (le_of_represent ends).config, ← represented.enumeration_iff]
    -- The enumeration is its own end, so it is represented as a scalar.
    obtain ⟨chain, last, unfolds, isScalar⟩ :=
      represented.scalarIfIntegral integral (index.canonicalType type) rfl
    have own : last = index.canonicalType type :=
      unfolds.canonicalType.symm.trans (canonicalType_enumeration isEnum)
    have scalar : representation.info.isScalar := by
      refine isScalar ?_
      rw [own]
      generalize (index.canonicalType type).shape = shape at isEnum ⊢
      cases shape <;> first | rfl | cases isEnum
    exact TypeInfo.isPacked_eq_false_iff scalar
  constructor
  · rintro ⟨named, isEnum, info, known, noNumber⟩
    exact ⟨named, isEnum, by simp [known], (closed_iff known isEnum).mp noNumber⟩
  · rintro ⟨named, isEnum, isSome, closed⟩
    obtain ⟨info, known⟩ := Option.isSome_iff_exists.mp isSome
    exact ⟨named, isEnum, info, known, (closed_iff known isEnum).mpr closed⟩

end Canonical

/-- A strict enumeration with a typedef. -/
def signals : Index where
  enums := .ofList [{
    id := ⟨"signal"⟩, name := some "Signal", base := .uint, constants := [⟨"STOP", 0, false⟩] }]
  typedefs := .ofList [
    ⟨⟨"signal_t"⟩, "signal_t", ⟨"enum Signal", false, .enumeration ⟨"signal"⟩⟩⟩]

theorem acyclic_signals : signals.Acyclic := by
  apply acyclic_of_decreasing signals fun name =>
    if name = TypeName.typedef ⟨"signal_t"⟩ then 1 else 0
  · decide
  · decide

/-- Two bits of the enumeration are kept, but not under the name of the typedef. -/
theorem keepsBits_iff_signals :
    let run := Run.start {}
    let field : Field := ⟨"signal", ⟨"signal_t", false, .named ⟨"signal_t"⟩⟩, 6, some 2⟩
    (signals.Acyclic ∧ signals.NamesTypedefs run ∧ field.bitWidth = some 2) ∧
      signals.KeepsBits run { field with type := signals.canonicalType field.type } 2 ∧
      signals.DisguisesEnum run field.type ∧ ¬signals.KeepsBits run field 2 := by
  intro run field
  have names : signals.NamesTypedefs run := signals.namesTypedefs_start {}
  have law := @keepsBits_iff signals run field 2 acyclic_signals names rfl
  have disguised : signals.DisguisesEnum run field.type := by
    have integral : signals.hasIntegralEnums := by decide
    refine (disguisesEnum_iff acyclic_signals names integral).mpr
      ⟨rfl, by decide, by decide +kernel, _, .here rfl (by decide)⟩
  refine ⟨⟨acyclic_signals, names, rfl⟩, ?_, disguised, fun kept => (law.mp kept).2 disguised⟩
  have isSome : (signals.info? run (signals.canonicalType field.type)).isSome := by decide +kernel
  obtain ⟨info, known⟩ := Option.isSome_iff_exists.mp isSome
  exact (keepsBits_iff_info rfl).mpr ⟨info, known, (Bool.or_eq_true _ _).mpr (.inr (by decide))⟩

end Index

end NativeBindings
