import Mathlib.Data.List.Basic
import NativeBindings.Proofs.Build.Library
import NativeBindings.Proofs.Native.DeclMap

namespace NativeBindings

/-! # What a build reads of an index

Only declarations of types are ever looked up: what a declaration gives is decided by
itself and by the types of the index, and not by what else is declared there.
-/

namespace Index

/-- The declarations of an index that types refer to. -/
def types (index : Index) : Index where
  structs := index.structs
  enums := index.enums
  typedefs := index.typedefs
  classes := index.classes
  objcProtocols := index.objcProtocols
  objcClasses := index.objcClasses

/-- The declarations of an index that nothing refers to. -/
def leafDeclarations (index : Index) : List Declaration :=
  index.objcCategories.values.map .objcCategory ++ index.globals.values.map .global ++
    index.functions.values.map .function ++ index.macroConstants.map .macroConstant ++
    index.wrappedMacros.map .wrappedMacro

variable {index other : Index} {config : Config} {decl : Declaration}

theorem declarations_types : index.types.declarations =
    index.structs.values.map .struct ++
      index.enums.values.map .enumeration ++
      index.typedefs.values.map .typedef ++
      index.classes.values.map .nativeClass ++
      index.objcProtocols.values.map .objcProtocol ++
      index.objcClasses.values.map .objcClass := by
  simp [declarations, types]

theorem declarations_eq :
    index.declarations = index.types.declarations ++ index.leafDeclarations := by
  rw [declarations_types]
  simp [declarations, leafDeclarations]

theorem typeId?_of_mem_types (member : decl ∈ index.types.declarations) :
    decl.typeId?.isSome := by
  simp only [declarations_types, List.mem_append, List.mem_map] at member
  rcases member with
    ((((⟨_, -, rfl⟩ | ⟨_, -, rfl⟩) | ⟨_, -, rfl⟩) | ⟨_, -, rfl⟩) | ⟨_, -, rfl⟩) | ⟨_, -, rfl⟩ <;>
    rfl

theorem typeId?_of_mem_leaves (member : decl ∈ index.leafDeclarations) :
    decl.typeId? = none := by
  simp only [leafDeclarations, List.mem_append, List.mem_map] at member
  rcases member with
    (((⟨_, -, rfl⟩ | ⟨_, -, rfl⟩) | ⟨_, -, rfl⟩) | ⟨_, -, rfl⟩) | ⟨_, -, rfl⟩ <;> rfl

/-- No declaration of a type is excluded, and they all come before the others. -/
theorem wanted_eq : index.wanted config =
    index.types.declarations ++ index.leafDeclarations.filter (!config.excludes ·) := by
  rw [wanted, declarations_eq, List.filter_append]
  refine congrArg (· ++ _) (List.filter_eq_self.mpr fun decl member => ?_)
  have typed := typeId?_of_mem_types member
  cases decl <;> first | rfl | cases typed

theorem filter_wanted :
    (index.wanted config).filter (·.typeId?.isSome) = index.types.declarations := by
  rw [wanted_eq, List.filter_append, List.filter_eq_self.mpr fun _ => typeId?_of_mem_types,
    List.filter_eq_nil_iff.mpr fun decl member => ?_, List.append_nil]
  simp [typeId?_of_mem_leaves (List.mem_of_mem_filter member)]

/-- Which types an index declares can be read off the list of their declarations. -/
theorem types_eq_of_declarations (same : other.types.declarations = index.types.declarations) :
    other.types = index.types := by
  have ofKind (kind : DeclKind) : other.types.declarations.filter (·.kind = kind) =
      index.types.declarations.filter (·.kind = kind) := by rw [same]
  simp only [declarations_types, List.filter_append, List.filter_map] at ofKind
  have structs := ofKind .struct
  have enums := ofKind .enumeration
  have typedefs := ofKind .typedef
  have classes := ofKind .nativeClass
  have protocols := ofKind .objcProtocol
  have objcClasses := ofKind .objcClass
  simp [Function.comp_def, Declaration.kind] at structs enums typedefs classes protocols objcClasses
  have table {α : Type} {id : α → DeclId} {wrap : α → Declaration} {map other : DeclMap id}
      (injective : ∀ {first second}, wrap first = wrap second → first = second)
      (same : map.values.map wrap = other.values.map wrap) : map = other :=
    DeclMap.values_injective (List.map_injective_iff.mpr (fun _ _ => injective) same)
  unfold types
  rw [table Declaration.struct.inj structs, table Declaration.enumeration.inj enums,
    table Declaration.typedef.inj typedefs, table Declaration.nativeClass.inj classes,
    table Declaration.objcProtocol.inj protocols, table Declaration.objcClass.inj objcClasses]

/-- Indexes of which a build wants the same declarations have the same types. -/
theorem types_eq_of_wanted (same : other.wanted config = index.wanted config) :
    other.types = index.types := by
  refine types_eq_of_declarations ?_
  rw [← filter_wanted, same, filter_wanted]

section Reading

variable (index : Index)

@[simp] theorem structs_types : index.types.structs = index.structs := rfl

@[simp] theorem enums_types : index.types.enums = index.enums := rfl

@[simp] theorem typedefs_types : index.types.typedefs = index.typedefs := rfl

@[simp] theorem objcClasses_types : index.types.objcClasses = index.objcClasses := rfl

@[simp] theorem followTypedefs_types (seen : List DeclId) (fuel : Nat) (type : QualType) :
    index.types.followTypedefs seen fuel type = index.followTypedefs seen fuel type := by
  induction fuel generalizing seen type with
  | zero => rfl
  | succ fuel ih => simp only [followTypedefs, typedefs_types, ih]

@[simp] theorem canonicalType_types (type : QualType) :
    index.types.canonicalType type = index.canonicalType type :=
  index.followTypedefs_types [] _ type

@[simp] theorem forwardStruct?_types (type : QualType) :
    index.types.forwardStruct? type = index.forwardStruct? type := by
  simp only [forwardStruct?, canonicalType_types, structs_types]

@[simp] theorem stripNames_types (seen : List DeclId) (fuel : Nat) (shape : TypeShape) :
    index.types.stripNames seen fuel shape = index.stripNames seen fuel shape := by
  induction fuel generalizing seen shape with
  | zero => rfl
  | succ fuel ih => cases shape <;> simp only [stripNames, typedefs_types, enums_types, ih]

@[simp] theorem underlying?_types (type : QualType) :
    index.types.underlying? type = index.underlying? type :=
  index.stripNames_types [] _ type.shape

@[simp] theorem classifier_types (decl : Declaration) :
    index.types.classifier decl = index.classifier decl := rfl

theorem representShapes_types (follow : QualType → Represents Representation) :
    (∀ shape, index.types.representShape follow shape = index.representShape follow shape) ∧
      ∀ arguments, index.types.targetsOf follow arguments = index.targetsOf follow arguments := by
  apply Index.representShape.mutual_induct index follow
    (fun shape => index.types.representShape follow shape = index.representShape follow shape)
    (fun arguments => index.types.targetsOf follow arguments = index.targetsOf follow arguments)
  case case15 | case16 | case17 | case20 | case22 => intros; rfl
  case case23 => intros; simp only [targetsOf, *]
  case case11 | case12 =>
    intro spelling isConst shape notVoid notFunction
    intros
    simp only [representShape_pointer _ _ notVoid notFunction, forwardStruct?_types, *]
    try rfl
  all_goals
    intros
    simp only [representShape, *]

@[simp] theorem represent_types (type : QualType) :
    index.types.represent type = index.represent type := by
  have within (rounds : Nat) (type : QualType) :
      index.types.representWithin rounds type = index.representWithin rounds type := by
    induction rounds generalizing type with
    | zero => exact (index.representShapes_types _).1 type.shape
    | succ rounds ih =>
        have follow : index.types.representWithin rounds = index.representWithin rounds :=
          funext ih
        unfold representWithin
        rw [follow]
        exact (index.representShapes_types _).1 type.shape
  exact within _ type

@[simp] theorem required_types (type : QualType) :
    index.types.required type = index.required type := by
  simp only [required, represent_types]

@[simp] theorem resultType_types (type : QualType) :
    index.types.resultType type = index.resultType type := by
  simp only [resultType, required_types]

@[simp] theorem resolved_types (decl : Declaration) (id : DeclId) :
    index.types.resolved decl id = index.resolved decl id := rfl

@[simp] theorem keepsName_types (decl : TypedefDecl) (aliased : Representation) :
    index.types.keepsName decl aliased = index.keepsName decl aliased := rfl

section Signatures

variable {m : Type → Type} [Monad m] [MonadLiftT Attempt m]

@[simp] theorem parameterStubs_types (mark? : Option (Nat → StringKind → m Unit)) (place : Nat)
    (names : List String) (parameters : List Parameter) :
    index.types.parameterStubs mark? place names parameters =
      index.parameterStubs mark? place names parameters := by
  induction parameters generalizing place names with
  | nil =>
      -- Without parameters, one name is that of the further arguments.
      obtain _ | ⟨name, _ | ⟨other, names⟩⟩ := names <;> rfl
  | cons parameter parameters ih =>
      cases names with
      | nil => rfl
      | cons name names => simp only [parameterStubs, parameterType, targetType, required_types, ih]

@[simp] theorem signature_types (mark? : Option (Nat → StringKind → m Unit)) :
    index.types.signature mark? = index.signature mark? := by
  funext isVariadic parameters result
  simp only [signature, parameterStubs_types, resultType_types]

end Signatures

@[simp] theorem buildFields_types (fields : List Field) :
    index.types.buildFields fields = index.buildFields fields := by
  induction fields with
  | nil => rfl
  | cons field rest ih => simp only [buildFields, buildField, represent_types, ih]

@[simp] theorem buildMethods_types (decl : ClassDecl) (number : Nat) (methods : List MethodDecl) :
    index.types.buildMethods decl number methods = index.buildMethods decl number methods := by
  induction methods generalizing number with
  | nil => rfl
  | cons method rest ih => simp only [buildMethods, buildMethod, signature_types, ih]

theorem integralConstant?_types : index.types.integralConstant? = index.integralConstant? := by
  funext platform value type
  simp only [integralConstant?, underlying?_types]

theorem buildMembers_types : index.types.buildMembers = index.buildMembers := by
  have method : index.types.buildObjCMethod = index.buildObjCMethod := by
    funext container receiver method
    simp only [buildObjCMethod, signature_types]
  have property : index.types.buildObjCProperty = index.buildObjCProperty := by
    funext receiver property
    simp only [buildObjCProperty, required_types]
  funext container receiver methods properties
  simp only [buildMembers, method, property]

theorem buildDeclaration_types (decl : Declaration) :
    index.types.buildDeclaration decl = index.buildDeclaration decl := by
  unfold buildDeclaration draftDeclaration
  have entries := index.integralConstant?_types
  have members := index.buildMembers_types
  cases decl with
  | struct decl => simp only [buildStruct, buildFields_types, resolved_types]
  | enumeration decl =>
    simp only [buildEnum, buildStrict, enumEntries, entries, required_types, classifier_types]
  | typedef decl =>
    simp only [buildTypedef, required_types, resolved_types, keepsName_types]
    rfl
  | nativeClass decl => simp only [buildClass, buildMethods_types, resolved_types]
  | objcProtocol decl =>
      simp only [buildProtocol, members, resolved_types]
      rfl
  | objcClass decl =>
      simp only [buildObjCClass, members, resolved_types]
      rfl
  | objcCategory decl =>
      simp only [buildCategory, members, objcClasses_types]
      rfl
  | «global» decl => simp only [buildGlobal, required_types]
  | function decl => simp only [buildFunction, signature_types]
  | macroConstant decl =>
      simp only [buildMacroConstant, macroLiteral, represent_types, entries, floatingConstant?,
        underlying?_types]
  | wrappedMacro decl => simp only [buildWrappedMacro, required_types]

theorem outcomes_types (decls : List Declaration) :
    index.types.outcomes decls = index.outcomes decls := by
  induction decls with
  | nil => rfl
  | cons decl rest ih => simp only [outcomes, buildDeclaration_types, ih]

end Reading

/-- Two indexes with the same types build any declarations alike. -/
theorem outcomes_eq_of_types (same : other.types = index.types) (decls : List Declaration) :
    other.outcomes decls = index.outcomes decls := by
  rw [← other.outcomes_types, same, outcomes_types]

end Index

end NativeBindings
