import NativeBindings.Config
import NativeBindings.Native.Index
import NativeBindings.Target.Representation
import NativeBindings.Text.Qualified

namespace NativeBindings

/-! # What the index says of enumerations and typedefs -/

/-- Does an enumeration become a closed class?  What the configuration says comes
first.  An enumeration it does not mention is closed when no constant has a
written value; one without a name is never closed. -/
def Config.isStrict (config : Config) (decl : EnumDecl) : Bool :=
  match decl.name with
  | none => false
  | some name =>
      config.strictEnums.contains name ||
        !config.nonStrictEnums.contains name && decl.constants.all (!·.isExplicit)

namespace Index

/-- The name of the record or enumeration that a type is. -/
def tagName? (index : Index) : TypeShape → Option String
  | .record id =>
      ((index.structs.get? id).bind (·.name)).or ((index.classes.get? id).map (·.name))
  | .enumeration id => (index.enums.get? id).bind (·.name)
  | _ => none

/-- Does a typedef only repeat the name of the record or enumeration it aliases? -/
def namesItself (index : Index) (decl : TypedefDecl) : Bool :=
  (index.tagName? decl.aliased.shape).map simpleName = some (simpleName decl.name)

/-- Is a typedef used under its own name?  Records, arrays and references are
always used as what they are. -/
def keepsName (index : Index) (decl : TypedefDecl) (aliased : Representation) : Bool :=
  !index.namesItself decl && aliased.marshalling ≠ .byReference &&
    match aliased.info with
    | .primitive .. | .boolean | .enumeration .. | .pointer | .objcPointer | .string _ => true
    | .struct .. | .nativeClass | .array _ => false

/-- The struct without a definition that a type names, typedefs looked through. -/
def forwardStruct? (index : Index) (type : QualType) : Option StructDecl :=
  match (index.canonicalType type).shape with
  | .record id => (index.structs.get? id).filter (·.isForward)
  | _ => none

/-- Looks through typedefs and the bases of enumerations; there is nothing below a
cycle or a declaration that is missing. -/
def stripNames (index : Index) (seen : List DeclId) : (fuel : Nat) → TypeShape → Option TypeShape
  | 0, _ => none
  | fuel + 1, .named id =>
      if id ∈ seen then none
      else match index.typedefs.get? id with
        | some decl => index.stripNames (id :: seen) fuel decl.aliased.shape
        | none => none
  | fuel + 1, .enumeration id =>
      if id ∈ seen then none
      else match index.enums.get? id with
        | some decl => index.stripNames (id :: seen) fuel decl.base.shape
        | none => none
  | _ + 1, type => some type

/-- The type below all typedefs and enumerations.  Every step but the last sees a
declaration of the index for the first time. -/
def underlying? (index : Index) (type : QualType) : Option TypeShape :=
  index.stripNames [] (index.typedefs.size + index.enums.size + 1) type.shape

end Index

end NativeBindings
