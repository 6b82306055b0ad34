import NativeBindings.Native.DeclMap
import NativeBindings.Native.Error
import NativeBindings.Text.Distance

namespace NativeBindings

/-! # The index of native declarations

Declarations are kept by kind, in the order in which they were first seen.  A
declaration inserted again takes the place of the earlier one; macros have no
identity and are simply listed.
-/

structure Index where
  preamble : List String := []
  functions : DeclMap FunctionDecl.id := ∅
  globals : DeclMap GlobalDecl.id := ∅
  structs : DeclMap StructDecl.id := ∅
  enums : DeclMap EnumDecl.id := ∅
  typedefs : DeclMap TypedefDecl.id := ∅
  macroConstants : List MacroConstant := []
  wrappedMacros : List WrappedMacro := []
  classes : DeclMap ClassDecl.id := ∅
  objcProtocols : DeclMap ObjCProtocolDecl.id := ∅
  objcClasses : DeclMap ObjCClassDecl.id := ∅
  objcCategories : DeclMap ObjCCategoryDecl.id := ∅
  deriving Inhabited

namespace Index

def insert (index : Index) : Declaration → Index
  | .function decl => { index with functions := index.functions.insert decl }
  | .global decl => { index with globals := index.globals.insert decl }
  | .struct decl => { index with structs := index.structs.insert decl }
  | .enumeration decl => { index with enums := index.enums.insert decl }
  | .typedef decl => { index with typedefs := index.typedefs.insert decl }
  | .macroConstant decl => { index with macroConstants := index.macroConstants ++ [decl] }
  | .wrappedMacro decl => { index with wrappedMacros := index.wrappedMacros ++ [decl] }
  | .nativeClass decl => { index with classes := index.classes.insert decl }
  | .objcProtocol decl => { index with objcProtocols := index.objcProtocols.insert decl }
  | .objcClass decl => { index with objcClasses := index.objcClasses.insert decl }
  | .objcCategory decl => { index with objcCategories := index.objcCategories.insert decl }

def addPreamble (index : Index) (line : String) : Index :=
  { index with preamble := index.preamble ++ [line] }

/-- Every declaration, types before what uses them. -/
def declarations (index : Index) : List Declaration :=
  index.structs.values.map .struct ++
    index.enums.values.map .enumeration ++
    index.typedefs.values.map .typedef ++
    index.classes.values.map .nativeClass ++
    index.objcProtocols.values.map .objcProtocol ++
    index.objcClasses.values.map .objcClass ++
    index.objcCategories.values.map .objcCategory ++
    index.globals.values.map .global ++
    index.functions.values.map .function ++
    index.macroConstants.map .macroConstant ++
    index.wrappedMacros.map .wrappedMacro

/-- The declaration of a kind that has an identity.  Macros have none. -/
def declaration? (index : Index) (kind : DeclKind) (id : DeclId) : Option Declaration :=
  match kind with
  | .function => (index.functions.get? id).map .function
  | .global => (index.globals.get? id).map .global
  | .struct => (index.structs.get? id).map .struct
  | .enumeration => (index.enums.get? id).map .enumeration
  | .typedef => (index.typedefs.get? id).map .typedef
  | .nativeClass => (index.classes.get? id).map .nativeClass
  | .objcProtocol => (index.objcProtocols.get? id).map .objcProtocol
  | .objcClass => (index.objcClasses.get? id).map .objcClass
  | .objcCategory => (index.objcCategories.get? id).map .objcCategory
  | .macroConstant | .wrappedMacro => none

def summary (index : Index) : String :=
  let counts := [
    (index.functions.size, "functions"),
    (index.globals.size, "globals"),
    (index.structs.size, "structs"),
    (index.enums.size, "enums"),
    (index.typedefs.size, "typedefs"),
    (index.macroConstants.length, "macro constants"),
    (index.wrappedMacros.length, "wrapped macros"),
    (index.classes.size, "classes"),
    (index.objcProtocols.size, "objc protocols"),
    (index.objcClasses.size, "objc classes"),
    (index.objcCategories.size, "objc categories")]
  "DeclarationIndex(" ++
    String.intercalate ", " (counts.map fun (count, kind) => toString count ++ " " ++ kind) ++ ")"

/-- Is there a typedef with this name, other than one of the record `except`? -/
def hasTypedefNamed (index : Index) (name : String) (except : Option DeclId) : Bool :=
  index.typedefs.values.any fun decl =>
    decl.name = name &&
      !match decl.aliased.shape, except with
        | .record id, some except => id = except
        | _, _ => false

/-- Follows typedefs from a type.  The walk ends at a type that is no typedef, at
a typedef that is not in the index, and at one it has `seen` before. -/
def followTypedefs (index : Index) (seen : List DeclId) : (fuel : Nat) → QualType → QualType
  | 0, type => type
  | fuel + 1, type =>
      match type.shape with
      | .named id =>
          if id ∈ seen then type
          else match index.typedefs.get? id with
            | some decl => index.followTypedefs (id :: seen) fuel decl.aliased
            | none => type
      | _ => type

/-- A type with the typedefs it names looked through.  Every step but the last
sees a typedef of the index for the first time. -/
def canonicalType (index : Index) (type : QualType) : QualType :=
  index.followTypedefs [] (index.typedefs.size + 1) type

def findFunction (index : Index) (name : String) : Except IndexError FunctionDecl :=
  match index.functions.values.filter (·.name = name) with
  | [] => .error (.functionNotFound name)
  | [decl] => .ok decl
  | _ => .error (.multipleMatches name)

end Index

end NativeBindings
