import NativeBindings.Target.Type

namespace NativeBindings

/-! # How native values are represented -/

/-- How a value crosses the boundary: copied, through a reference to the memory
that holds it, or as a raw pointer. -/
inductive Marshalling where
  | byValue
  | byReference
  | byPointer
  deriving DecidableEq, Inhabited

inductive TypeInfo where
  | primitive (size : UInt32) (signed floating : Bool)
  | boolean
  | enumeration (classifier : Classifier) (strict : Bool)
  | pointer
  | objcPointer
  | struct (size align : UInt64)
  /-- A native class by value, whose layout is not known. -/
  | nativeClass
  | array (length : Option UInt64)
  | string (wide : Bool)
  deriving DecidableEq, Inhabited

namespace TypeInfo

/-- Is this a record, which is used in place and not as a copy? -/
def isRecord : TypeInfo → Bool
  | .struct .. | .nativeClass => true
  | _ => false

def isArray : TypeInfo → Bool
  | .array _ => true
  | _ => false

end TypeInfo

/-- The target's view of one native type. -/
structure Representation where
  /-- Type of a value. -/
  target : TargetType
  /-- Type of native memory that holds a value. -/
  pointed : TargetType
  marshalling : Marshalling
  info : TypeInfo
  deriving Inhabited

namespace Representation

/-- Primitives and booleans are written `T` and held in a `TVar`. -/
def primitive (name : String) (info : TypeInfo) : Representation where
  target := .primitive name
  pointed := .interop (name ++ "Var")
  marshalling := .byValue
  info

/-- A record is passed as a copy behind a reference; its class is the type of the
memory. -/
def record (classifier : Classifier) (info : TypeInfo) : Representation where
  target := .interopOf "CValue" (.ofClassifier classifier)
  pointed := .ofClassifier classifier
  marshalling := .byReference
  info

def reference (memory : TargetType) : Representation where
  target := .interopOf "CPointer" memory
  pointed := .interopOf "CPointerVar" memory
  marshalling := .byReference
  info := .pointer

/-- A pointer to memory of the given type, or to memory of which nothing is
known. -/
def pointer (memory : Option TargetType) : Representation where
  target := match memory with
    | some memory => (TargetType.interopOf "CPointer" memory).nullable
    | none => (TargetType.interop "COpaquePointer").nullable
  pointed := match memory with
    | some memory => .interopOf "CPointerVar" memory
    | none => .interop "COpaquePointerVar"
  marshalling := .byPointer
  info := .pointer

def array (memory : TargetType) (length : Option UInt64) : Representation where
  target := (TargetType.interopOf "CArrayPointer" memory).nullable
  pointed := .interopOf "CArrayPointerVar" memory
  marshalling := .byPointer
  info := .array length

def object (type : TargetType) : Representation where
  target := type
  pointed := .interopOf "ObjCObjectVar" type
  marshalling := .byValue
  info := .objcPointer

/-- The type under which a value is read in place: the memory itself for records
and arrays, and a copy otherwise. -/
def placed (representation : Representation) : TargetType :=
  if representation.info.isRecord then representation.pointed
  else if representation.info.isArray then representation.target.nonNull
  else representation.target

def isAggregate (representation : Representation) : Bool :=
  representation.info.isRecord || representation.info.isArray

end Representation

end NativeBindings
