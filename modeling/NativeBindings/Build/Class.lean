import NativeBindings.Build.Signature

namespace NativeBindings

/-! # Classes, protocols and categories

The members of a class come with it or not at all: one that cannot be built keeps
the whole class out.
-/

namespace Index

variable (index : Index)

/-- A method of a native class.  A wrapper cannot hand on a variable number of
arguments. -/
def buildMethod (decl : ClassDecl) (number : Nat) (method : MethodDecl) :
    Attempt FunctionStub := do
  if method.isVariadic then
    throw (.unsupported ("variadic method " ++ decl.name ++ "::" ++ method.name))
  let id ← Run.freshStub
  let (parameters, result) ← index.signature none false method.parameters method.result
  pure {
    id
    name := method.name
    parameters
    result
    origin := .method decl.id number
    call := .bridged
    isStatic := method.isStatic }

def buildMethods (decl : ClassDecl) : (number : Nat) → List MethodDecl →
    Attempt (List FunctionStub)
  | _, [] => pure []
  | number, method :: rest => do
      let stub ← Attempt.within (.inMethod method.name) (index.buildMethod decl number method)
      let stubs ← buildMethods decl (number + 1) rest
      pure (stub :: stubs)

def buildClass (decl : ClassDecl) : Attempt (List StubElement) := do
  let classifier ← index.resolved (.nativeClass decl) decl.id
  let id ← Run.freshStub
  let functions ← index.buildMethods decl 0 decl.methods
  pure [.ofClass {
    id
    classifier
    kind := .nativeClass
    supertypes := [.interop "CStructVar"]
    functions }]

def buildObjCMethod (container : DeclId) (receiver : Option TargetType)
    (method : ObjCMethod) : Attempt FunctionStub :=
  Attempt.within (.inMethod method.selector) do
    if method.isVariadic then throw (.unsupported ("variadic method " ++ method.selector))
    let id ← Run.freshStub
    let (parameters, result) ← index.signature none false method.parameters method.result
    pure {
      id
      name := selectorName method.selector
      parameters
      result
      origin := .objcMethod container method.selector method.isClassMethod
      call := .objcMessage
      receiver
      isStatic := method.isClassMethod }

def buildObjCProperty (receiver : Option TargetType) (property : ObjCProperty) :
    Attempt PropertyStub :=
  Attempt.within (.inProperty property.name) do
    let representation ← index.required property.type
    let id ← Run.freshStub
    let getter := Accessor.objcMessage property.getter
    pure {
      id
      name := property.name
      type := representation.target
      kind := match property.setter with
        | some setter => .var getter (.objcMessage setter)
        | none => .val getter
      receiver }

/-- The members of a class, protocol or category: its methods, then its
properties. -/
def buildMembers (container : DeclId) (receiver : Option TargetType)
    (methods : List ObjCMethod) (properties : List ObjCProperty) :
    Attempt (List FunctionStub × List PropertyStub) := do
  let functions ← methods.mapM (index.buildObjCMethod container receiver)
  let properties ← properties.mapM (index.buildObjCProperty receiver)
  pure (functions, properties)

def protocolType (id : DeclId) : Attempt TargetType := do
  match index.objcProtocols.get? id with
  | some decl => pure (.ofClassifier (← index.resolved (.objcProtocol decl) id))
  | none => throw (.unresolved id)

def classType (id : DeclId) : Attempt TargetType := do
  match index.objcClasses.get? id with
  | some decl => pure (.ofClassifier (← index.resolved (.objcClass decl) id))
  | none => throw (.unresolved id)

def buildProtocol (decl : ObjCProtocolDecl) : Attempt (List StubElement) := do
  let classifier ← index.resolved (.objcProtocol decl) decl.id
  let id ← Run.freshStub
  let protocols ← decl.protocols.mapM index.protocolType
  let (functions, properties) ← index.buildMembers decl.id none decl.methods decl.properties
  pure [.ofClass {
    id
    classifier
    kind := .objcProtocol
    supertypes := .interop "ObjCObject" :: protocols
    properties
    functions }]

def buildObjCClass (decl : ObjCClassDecl) : Attempt (List StubElement) := do
  let classifier ← index.resolved (.objcClass decl) decl.id
  let id ← Run.freshStub
  let superclass ← match decl.superclass with
    | some superclass => index.classType superclass
    | none => pure (.interop "ObjCObjectBase")
  let protocols ← decl.protocols.mapM index.protocolType
  let (functions, properties) ← index.buildMembers decl.id none decl.methods decl.properties
  pure [.ofClass {
    id
    classifier
    kind := .objcClass
    supertypes := superclass :: protocols
    properties
    functions }]

/-- A category, as a group of extensions of the class it extends. -/
def buildCategory (decl : ObjCCategoryDecl) : Attempt (List StubElement) := do
  match index.objcClasses.get? decl.extended with
  | none => throw (.unresolved decl.extended)
  | some extended =>
      let receiver ← index.classType decl.extended
      let id ← Run.freshStub
      let (functions, properties) ←
        index.buildMembers decl.id (some receiver) decl.methods decl.properties
      pure [.ofGroup {
        id
        name := extended.name ++ "+" ++ decl.name
        members := { (∅ : StubTree) with functions, properties } }]

end Index

end NativeBindings
