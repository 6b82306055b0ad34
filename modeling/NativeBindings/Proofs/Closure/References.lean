import NativeBindings.Proofs.Build.Given
import NativeBindings.Proofs.Native.Declared
import NativeBindings.Proofs.Stub.Types

namespace NativeBindings

/-! # Names that stubs refer to

The mapper invents names for the types it meets, and builders declare names for
their declarations.  A reference is a name that a declaration ought to declare: the
conditions under which the mapper uses a name are those under which the builder
gives it.
-/

namespace Index

section Definitions

variable (index : Index) (run : Run)

/-- A name that the stubs of a declaration have to declare. -/
inductive Reference : Declaration → Classifier → Prop
  | struct {decl own} : run.Names (.struct decl) own → Reference (.struct decl) own
  | nativeClass {decl own} : run.Names (.nativeClass decl) own → Reference (.nativeClass decl) own
  | objcClass {decl own} : run.Names (.objcClass decl) own → Reference (.objcClass decl) own
  | objcProtocol {decl own} :
      run.Names (.objcProtocol decl) own → Reference (.objcProtocol decl) own
  | enumeration {decl own} : run.Names (.enumeration decl) own → Reference (.enumeration decl) own
  | strictVariable {decl own} : run.Names (.enumeration decl) own → run.config.isStrict decl →
      Reference (.enumeration decl) (own.nested "Var")
  | openVariable {decl own} :
      run.Names (.enumeration decl) own → run.config.isStrict decl = false →
      Reference (.enumeration decl) own.variableOf
  | typedef {decl own aliased} : run.Names (.typedef decl) own →
      index.Represented run decl.aliased.shape aliased → index.keepsName decl aliased →
      Reference (.typedef decl) own
  | typedefVariable {decl own aliased} : run.Names (.typedef decl) own →
      index.Represented run decl.aliased.shape aliased → index.keepsName decl aliased →
      Reference (.typedef decl) own.variableOf

/-- A name of the target, or one that a declaration of the index has to declare. -/
def Known (classifier : Classifier) : Prop :=
  classifier.IsBuiltIn ∨ ∃ decl ∈ index.declarations, index.Reference run decl classifier

end Definitions

variable {index : Index} {run : Run}

/-- What is referred to is the declaration's own name, or that of its memory. -/
theorem Reference.companion {decl : Declaration} {classifier : Classifier}
    (reference : index.Reference run decl classifier) :
    ∃ own, run.Names decl own ∧
      (classifier = own ∨ classifier = own.nested "Var" ∨ classifier = own.variableOf) := by
  cases reference with
  | struct named | nativeClass named | objcClass named | objcProtocol named | enumeration named
  | typedef named => exact ⟨_, named, .inl rfl⟩
  | strictVariable named => exact ⟨_, named, .inr (.inl rfl)⟩
  | openVariable named | typedefVariable named => exact ⟨_, named, .inr (.inr rfl)⟩

/-- Only declarations that name types are referred to. -/
theorem Reference.typed {decl : Declaration} {classifier : Classifier}
    (reference : index.Reference run decl classifier) : decl.typeId?.isSome := by
  cases reference <;> rfl

theorem known_primitive (name : String) : index.Known run (.primitive name) := .inl (.inl rfl)

theorem known_interop (name : String) : index.Known run (.interop name) := .inl (.inr rfl)

/-- Are all names in a type known? -/
abbrev AllKnown (index : Index) (run : Run) (type : TargetType) : Prop :=
  type.All (index.Known run)

theorem allKnown_primitive (name : String) : index.AllKnown run (.primitive name) :=
  .ofClassifier (known_primitive name)

theorem allKnown_interop (name : String) : index.AllKnown run (.interop name) :=
  .ofClassifier (known_interop name)

theorem allKnown_interopOf {name : String} {argument : TargetType}
    (known : index.AllKnown run argument) : index.AllKnown run (.interopOf name argument) :=
  .generic (known_interop name) known

theorem known_of_reference {decl : Declaration} {classifier : Classifier}
    (member : decl ∈ index.declarations) (reference : index.Reference run decl classifier) :
    index.AllKnown run (.ofClassifier classifier) :=
  .ofClassifier (.inr ⟨decl, member, reference⟩)

private theorem known_integer {platform : Platform} {size : UInt32} {signed : Bool}
    {representation : Representation}
    (found : integerRepresentation? platform size signed = some representation) :
    index.AllKnown run representation.target ∧ index.AllKnown run representation.pointed := by
  obtain ⟨name, -, rfl⟩ := Option.map_eq_some_iff.mp found
  exact ⟨allKnown_primitive _, allKnown_interop _⟩

/-- Every name in the representation of a type is known. -/
theorem Represented.known {shape : TypeShape} {representation : Representation}
    (represented : index.Represented run shape representation) :
    index.AllKnown run representation.target ∧ index.AllKnown run representation.pointed := by
  induction represented with
  | bool => exact ⟨allKnown_primitive _, allKnown_interop _⟩
  | char found | integer found => exact known_integer found
  | float found =>
      unfold floatRepresentation? at found
      split at found
      · cases found
        exact ⟨allKnown_primitive _, allKnown_interop _⟩
      · cases found
        exact ⟨allKnown_primitive _, allKnown_interop _⟩
      · cases found
  | pointerToVoid => exact ⟨(allKnown_interop _).withNullable, allKnown_interop _⟩
  | @pointerToFunction _ _ result arguments values value same _ _ argumentsIH resultIH =>
      have parameters : ∀ type ∈ values.map (·.target), index.AllKnown run type := by
        intro type member
        obtain ⟨found, listed, rfl⟩ := List.mem_map.mp member
        obtain ⟨place, inside, rfl⟩ := List.mem_iff_getElem.mp listed
        exact (argumentsIH place _ _ (List.getElem?_eq_getElem (same ▸ inside))
          (List.getElem?_eq_getElem inside)).1
      have result : index.AllKnown run (if result.shape.isVoid then .unit else value.target) := by
        split
        · exact allKnown_primitive _
        · rename_i notVoid
          exact (resultIH (Bool.eq_false_iff.mpr notVoid)).1
      have memory : index.AllKnown run (functionMemory _ _) :=
        allKnown_interopOf (.function parameters result)
      exact ⟨(allKnown_interopOf memory).withNullable, allKnown_interopOf memory⟩
  | pointerToForward forward named =>
      have known : index.AllKnown run _ :=
        known_of_reference (mem_declarations_forwardStruct forward) (.struct named)
      exact ⟨(allKnown_interopOf known).withNullable, allKnown_interopOf known⟩
  | pointer _ _ ih => exact ⟨(allKnown_interopOf ih.2).withNullable, allKnown_interopOf ih.2⟩
  | leftReference _ ih | rightReference _ ih =>
      exact ⟨allKnown_interopOf ih.2, allKnown_interopOf ih.2⟩
  | struct found _ named =>
      have known : index.AllKnown run _ :=
        known_of_reference (mem_declarations_struct found) (.struct named)
      exact ⟨allKnown_interopOf known, known⟩
  | nativeClass _ found named =>
      have known : index.AllKnown run _ :=
        known_of_reference (mem_declarations_nativeClass found) (.nativeClass named)
      exact ⟨allKnown_interopOf known, known⟩
  | anonymousEnum _ _ _ ih => exact ih
  | strictEnum found _ named strict =>
      have member := mem_declarations_enumeration found
      exact ⟨known_of_reference member (.enumeration named),
        known_of_reference member (.strictVariable named strict)⟩
  | openEnum found _ named isOpen =>
      have member := mem_declarations_enumeration found
      exact ⟨known_of_reference member (.enumeration named),
        known_of_reference member (.openVariable named isOpen)⟩
  | seenThrough _ _ _ ih => exact ih
  | kept found aliased keeps named =>
      have member := mem_declarations_typedef found
      exact ⟨(known_of_reference member (.typedef named aliased keeps)).withNullable,
        known_of_reference member (.typedefVariable named aliased keeps)⟩
  | array _ ih | openArray _ ih =>
      exact ⟨(allKnown_interopOf ih.2).withNullable, allKnown_interopOf ih.2⟩
  | objcClass found named =>
      have known : index.AllKnown run (TargetType.nullable _) :=
        (known_of_reference (mem_declarations_objcClass found) (.objcClass named)).withNullable
      exact ⟨known, allKnown_interopOf known⟩
  | objcProtocol _ found named =>
      have known : index.AllKnown run (TargetType.nullable _) :=
        (known_of_reference (mem_declarations_objcProtocol found)
          (.objcProtocol named)).withNullable
      exact ⟨known, allKnown_interopOf known⟩
  | objcAny =>
      have known : index.AllKnown run (TargetType.nullable _) :=
        (allKnown_primitive "Any").withNullable
      exact ⟨known, allKnown_interopOf known⟩

end Index

end NativeBindings
