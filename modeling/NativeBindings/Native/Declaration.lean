import NativeBindings.Native.Type

namespace NativeBindings

/-! # Native declarations -/

/-- A parameter; headers may leave it without a name. -/
structure Parameter where
  name : String := ""
  type : QualType
  deriving Inhabited

/-- A free function, whose name may be qualified. -/
structure FunctionDecl where
  id : DeclId
  name : String
  result : QualType
  parameters : List Parameter := []
  isVariadic : Bool := false
  deriving Inhabited

structure GlobalDecl where
  id : DeclId
  name : String
  type : QualType
  deriving Inhabited

/-- A member of a record.  Its offset is in bits. -/
structure Field where
  name : String
  type : QualType
  offset : UInt64
  bitWidth : Option UInt32 := none
  deriving Inhabited

structure RecordLayout where
  size : UInt64
  align : UInt64
  fields : List Field := []
  isUnion : Bool := false
  deriving Inhabited

/-- A struct or union.  Without a name it is anonymous, and without a layout it is
declared only. -/
structure StructDecl where
  id : DeclId
  name : Option String := none
  layout : Option RecordLayout := none
  deriving Inhabited

/-- A constant of an enumeration.  It is explicit when the header writes its
value. -/
structure EnumConstant where
  name : String
  value : Int64
  isExplicit : Bool := false
  deriving Inhabited

structure EnumDecl where
  id : DeclId
  name : Option String := none
  base : QualType
  constants : List EnumConstant := []
  deriving Inhabited

structure TypedefDecl where
  id : DeclId
  name : String
  aliased : QualType
  deriving Inhabited

inductive MacroValue where
  | integer (value : Int64)
  | float (value : Float)
  | string (value : String)
  deriving Inhabited

/-- A macro whose expansion is a literal. -/
structure MacroConstant where
  name : String
  type : QualType
  value : MacroValue
  deriving Inhabited

/-- A macro whose expansion has to be evaluated by native code. -/
structure WrappedMacro where
  name : String
  type : QualType
  deriving Inhabited

structure MethodDecl where
  name : String
  result : QualType
  parameters : List Parameter := []
  isStatic : Bool := false
  isConst : Bool := false
  isVariadic : Bool := false
  deriving Inhabited

/-- A native class with its qualified name. -/
structure ClassDecl where
  id : DeclId
  name : String
  methods : List MethodDecl := []
  isForward : Bool := false
  deriving Inhabited

structure ObjCMethod where
  selector : String
  result : QualType
  parameters : List Parameter := []
  isClassMethod : Bool := false
  isVariadic : Bool := false
  isOptional : Bool := false
  deriving Inhabited

/-- A property; one without a setter is read-only. -/
structure ObjCProperty where
  name : String
  type : QualType
  getter : String
  setter : Option String := none
  isClassProperty : Bool := false
  deriving Inhabited

structure ObjCProtocolDecl where
  id : DeclId
  name : String
  protocols : List DeclId := []
  methods : List ObjCMethod := []
  properties : List ObjCProperty := []
  isForward : Bool := false
  deriving Inhabited

structure ObjCClassDecl where
  id : DeclId
  name : String
  superclass : Option DeclId := none
  protocols : List DeclId := []
  methods : List ObjCMethod := []
  properties : List ObjCProperty := []
  isForward : Bool := false
  deriving Inhabited

structure ObjCCategoryDecl where
  id : DeclId
  name : String
  extended : DeclId
  protocols : List DeclId := []
  methods : List ObjCMethod := []
  properties : List ObjCProperty := []
  deriving Inhabited

namespace FunctionDecl

/-- A function known by its name alone. -/
def ofName (name : String) (result : QualType) (parameters : List Parameter) : FunctionDecl where
  id := ⟨"c:@F@" ++ name⟩
  name
  result
  parameters

end FunctionDecl

namespace GlobalDecl

def ofName (name : String) (type : QualType) : GlobalDecl := ⟨⟨"c:@" ++ name⟩, name, type⟩

end GlobalDecl

namespace ClassDecl

/-- Writes `@S@` for every `::`, taken from the left. -/
def scopePath : List Char → List Char
  | ':' :: ':' :: rest => '@' :: 'S' :: '@' :: scopePath rest
  | c :: rest => c :: scopePath rest
  | [] => []

def ofName (name : String) (methods : List MethodDecl) : ClassDecl where
  id := ⟨"c:@S@" ++ String.ofList (scopePath name.toList)⟩
  name
  methods

end ClassDecl

namespace StructDecl

def isForward (decl : StructDecl) : Bool := decl.layout.isNone

end StructDecl

inductive DeclKind where
  | function
  | global
  | struct
  | enumeration
  | typedef
  | macroConstant
  | wrappedMacro
  | objcProtocol
  | objcClass
  | objcCategory
  | nativeClass
  deriving DecidableEq

def DeclKind.text : DeclKind → String
  | .function => "function"
  | .global => "global"
  | .struct => "struct"
  | .enumeration => "enum"
  | .typedef => "typedef"
  | .macroConstant => "macro constant"
  | .wrappedMacro => "wrapped macro"
  | .objcProtocol => "objc protocol"
  | .objcClass => "objc class"
  | .objcCategory => "objc category"
  | .nativeClass => "native class"

inductive Declaration where
  | function (decl : FunctionDecl)
  | global (decl : GlobalDecl)
  | struct (decl : StructDecl)
  | enumeration (decl : EnumDecl)
  | typedef (decl : TypedefDecl)
  | macroConstant (decl : MacroConstant)
  | wrappedMacro (decl : WrappedMacro)
  | objcProtocol (decl : ObjCProtocolDecl)
  | objcClass (decl : ObjCClassDecl)
  | objcCategory (decl : ObjCCategoryDecl)
  | nativeClass (decl : ClassDecl)

namespace Declaration

def kind : Declaration → DeclKind
  | .function _ => .function
  | .global _ => .global
  | .struct _ => .struct
  | .enumeration _ => .enumeration
  | .typedef _ => .typedef
  | .macroConstant _ => .macroConstant
  | .wrappedMacro _ => .wrappedMacro
  | .objcProtocol _ => .objcProtocol
  | .objcClass _ => .objcClass
  | .objcCategory _ => .objcCategory
  | .nativeClass _ => .nativeClass

def displayName : Declaration → String
  | .function decl => decl.name
  | .global decl => decl.name
  | .struct decl => decl.name.getD ("<anonymous struct " ++ decl.id.text ++ ">")
  | .enumeration decl => decl.name.getD ("<anonymous enum " ++ decl.id.text ++ ">")
  | .typedef decl => decl.name
  | .macroConstant decl => decl.name
  | .wrappedMacro decl => decl.name
  | .objcProtocol decl => decl.name
  | .objcClass decl => decl.name
  | .objcCategory decl => decl.name
  | .nativeClass decl => decl.name

/-- The identity of a declaration that names a type. -/
def typeId? : Declaration → Option DeclId
  | .struct decl => some decl.id
  | .enumeration decl => some decl.id
  | .typedef decl => some decl.id
  | .nativeClass decl => some decl.id
  | .objcProtocol decl => some decl.id
  | .objcClass decl => some decl.id
  | .function _ | .global _ | .macroConstant _ | .wrappedMacro _ | .objcCategory _ => none

end Declaration

end NativeBindings
