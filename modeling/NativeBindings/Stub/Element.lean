import NativeBindings.Native.Type
import NativeBindings.Target.Constant
import NativeBindings.Target.Type

namespace NativeBindings

/-! # Generated declarations

A stub is a declaration of the target language that stands for a native one.  It
has a number of its own, under which other tables speak of it.
-/

/-- The number of a stub, unique within a run. -/
structure StubId where
  number : Nat
  deriving DecidableEq, Inhabited

def StubId.text (id : StubId) : String := "#" ++ toString id.number

structure EnumEntry where
  name : String
  constant : Constant
  deriving Inhabited

inductive ClassKind where
  | struct (size align : UInt64) (isUnion : Bool)
  /-- A struct that is not defined; only pointers to it are of use. -/
  | forwardStruct
  | enumeration (entries : List EnumEntry) (base : TargetType)
  | nativeClass
  | objcClass
  | objcProtocol
  deriving Inhabited

structure ParameterStub where
  name : String
  type : TargetType
  isVararg : Bool := false
  deriving Inhabited

inductive FunctionOrigin where
  | function (id : DeclId)
  | method (owner : DeclId) (index : Nat)
  | objcMethod (container : DeclId) (selector : String) (isClassMethod : Bool)
  deriving Inhabited

inductive CallKind where
  /-- The native symbol can be addressed under this name. -/
  | direct (symbol : String)
  /-- The bridge file binds a symbol to the function or to a wrapper. -/
  | bridged
  /-- The runtime dispatches the call by its selector. -/
  | objcMessage
  deriving DecidableEq, Inhabited

structure FunctionStub where
  id : StubId
  name : String
  parameters : List ParameterStub
  result : TargetType
  origin : FunctionOrigin
  call : CallKind
  /-- The class to which a category adds the function. -/
  receiver : Option TargetType := none
  isStatic : Bool := false
  deriving Inhabited

def FunctionStub.isVararg (function : FunctionStub) : Bool :=
  function.parameters.any (·.isVararg)

inductive Accessor where
  /-- Through a wrapper that the bridge table describes. -/
  | bridge
  /-- A member of a record, its offset in bytes. -/
  | memberAt (offset : UInt64)
  /-- Offset and width in bits. -/
  | bitField (offset : UInt64) (width : UInt32)
  | objcMessage (selector : String)
  deriving DecidableEq, Inhabited

inductive PropertyKind where
  | val (getter : Accessor)
  | var (getter setter : Accessor)
  | constant (constant : Constant)
  deriving Inhabited

structure PropertyStub where
  id : StubId
  name : String
  type : TargetType
  kind : PropertyKind
  receiver : Option TargetType := none
  deriving Inhabited

structure TypealiasStub where
  id : StubId
  classifier : Classifier
  aliasee : TargetType
  deriving Inhabited

structure ClassStub where
  id : StubId
  classifier : Classifier
  kind : ClassKind
  supertypes : List TargetType := []
  properties : List PropertyStub := []
  functions : List FunctionStub := []
  deriving Inhabited

end NativeBindings
