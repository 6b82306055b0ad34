import NativeBindings.Mapping.Typedef

namespace NativeBindings

/-! # Declarations of an index

What is found under an identity is among the declarations of the index, and a
declaration of a kind that has identities is found under its own.
-/

namespace Index

variable {index : Index}

/-- A declaration is listed if it is one of those of its kind. -/
theorem mem_declarations_iff {decl : Declaration} : decl ∈ index.declarations ↔
    match decl with
    | .function decl => decl ∈ index.functions.values
    | .global decl => decl ∈ index.globals.values
    | .struct decl => decl ∈ index.structs.values
    | .enumeration decl => decl ∈ index.enums.values
    | .typedef decl => decl ∈ index.typedefs.values
    | .macroConstant decl => decl ∈ index.macroConstants
    | .wrappedMacro decl => decl ∈ index.wrappedMacros
    | .objcProtocol decl => decl ∈ index.objcProtocols.values
    | .objcClass decl => decl ∈ index.objcClasses.values
    | .objcCategory decl => decl ∈ index.objcCategories.values
    | .nativeClass decl => decl ∈ index.classes.values := by
  cases decl <;> simp [declarations]

theorem mem_declarations_struct {id : DeclId} {decl : StructDecl}
    (found : index.structs.get? id = some decl) : .struct decl ∈ index.declarations := by
  rw [mem_declarations_iff]
  exact DeclMap.mem_values_of_get? found

theorem mem_declarations_enumeration {id : DeclId} {decl : EnumDecl}
    (found : index.enums.get? id = some decl) : .enumeration decl ∈ index.declarations := by
  rw [mem_declarations_iff]
  exact DeclMap.mem_values_of_get? found

theorem mem_declarations_typedef {id : DeclId} {decl : TypedefDecl}
    (found : index.typedefs.get? id = some decl) : .typedef decl ∈ index.declarations := by
  rw [mem_declarations_iff]
  exact DeclMap.mem_values_of_get? found

theorem mem_declarations_nativeClass {id : DeclId} {decl : ClassDecl}
    (found : index.classes.get? id = some decl) : .nativeClass decl ∈ index.declarations := by
  rw [mem_declarations_iff]
  exact DeclMap.mem_values_of_get? found

theorem mem_declarations_objcClass {id : DeclId} {decl : ObjCClassDecl}
    (found : index.objcClasses.get? id = some decl) : .objcClass decl ∈ index.declarations := by
  rw [mem_declarations_iff]
  exact DeclMap.mem_values_of_get? found

theorem mem_declarations_objcProtocol {id : DeclId} {decl : ObjCProtocolDecl}
    (found : index.objcProtocols.get? id = some decl) :
    .objcProtocol decl ∈ index.declarations := by
  rw [mem_declarations_iff]
  exact DeclMap.mem_values_of_get? found

theorem mem_declarations_global {id : DeclId} {decl : GlobalDecl}
    (found : index.globals.get? id = some decl) : .global decl ∈ index.declarations := by
  rw [mem_declarations_iff]
  exact DeclMap.mem_values_of_get? found

theorem mem_declarations_forwardStruct {type : QualType} {decl : StructDecl}
    (forward : index.forwardStruct? type = some decl) : .struct decl ∈ index.declarations := by
  unfold forwardStruct? at forward
  split at forward
  · exact mem_declarations_struct (Option.filter_eq_some_iff.mp forward).1
  · cases forward

theorem get?_of_mem_declarations_function {decl : FunctionDecl}
    (declared : .function decl ∈ index.declarations) :
    index.functions.get? decl.id = some decl := by
  rw [mem_declarations_iff] at declared
  exact DeclMap.get?_of_mem_values declared

theorem get?_of_mem_declarations_nativeClass {decl : ClassDecl}
    (declared : .nativeClass decl ∈ index.declarations) :
    index.classes.get? decl.id = some decl := by
  rw [mem_declarations_iff] at declared
  exact DeclMap.get?_of_mem_values declared

/-- What introduces a type is found by its kind and its identity. -/
theorem declaration?_of_mem {decl : Declaration} {id : DeclId}
    (declared : decl ∈ index.declarations) (typeId : decl.typeId? = some id) :
    index.declaration? decl.kind id = some decl := by
  rw [mem_declarations_iff] at declared
  cases decl with
  | struct decl | enumeration decl | typedef decl | nativeClass decl | objcProtocol decl
  | objcClass decl =>
      cases typeId
      simp [declaration?, Declaration.kind, DeclMap.get?_of_mem_values declared]
  | _ => cases typeId

end Index

end NativeBindings
