namespace NativeBindings

/-! # Native types

A native type is known by how it is spelled, whether it is constant, and what it
is.  Types refer to declarations by identity, so a type is a finite tree even
where declarations refer to each other.
-/

structure DeclId where
  text : String
  deriving DecidableEq, Inhabited

mutual

inductive TypeShape where
  | void
  | bool
  /-- Kept apart from the other integers, so that strings can be recognised. -/
  | char (size : UInt32) (signed : Bool)
  | integer (size : UInt32) (signed : Bool)
  | float (size : UInt32)
  | pointer (pointee : QualType)
  | leftReference (pointee : QualType)
  | rightReference (pointee : QualType)
  /-- A struct, union or class by value. -/
  | record (id : DeclId)
  | enumeration (id : DeclId)
  | named (id : DeclId)
  | array (element : QualType) (length : UInt64)
  | openArray (element : QualType)
  | function (result : QualType) (arguments : List QualType) (variadic : Bool)
  | objcPointer (id : DeclId)
  | objcAny
  /-- Anything else, in words. -/
  | other (description : String)

/-- A type as a header writes it. -/
structure QualType where
  spelling : String
  isConst : Bool
  shape : TypeShape

end

namespace TypeShape

instance : Inhabited TypeShape := ⟨.void⟩

def isReference : TypeShape → Bool
  | .leftReference _ | .rightReference _ => true
  | _ => false

def isRecord : TypeShape → Bool
  | .record _ => true
  | _ => false

def isArray : TypeShape → Bool
  | .array .. | .openArray _ => true
  | _ => false

def isVoid : TypeShape → Bool
  | .void => true
  | _ => false

def isEnumeration : TypeShape → Bool
  | .enumeration _ => true
  | _ => false

end TypeShape

namespace QualType

instance : Inhabited QualType := ⟨⟨"", false, .void⟩⟩

def void : QualType := ⟨"void", false, .void⟩

def bool : QualType := ⟨"bool", false, .bool⟩

def char : QualType := ⟨"char", false, .char 1 true⟩

def int : QualType := ⟨"int", false, .integer 4 true⟩

def uint : QualType := ⟨"unsigned int", false, .integer 4 false⟩

def float : QualType := ⟨"float", false, .float 4⟩

def double : QualType := ⟨"double", false, .float 8⟩

def record (spelling : String) (id : DeclId) : QualType := ⟨spelling, false, .record id⟩

def pointerTo (pointee : QualType) : QualType :=
  ⟨pointee.spelling ++ " *", false, .pointer pointee⟩

def referenceTo (pointee : QualType) : QualType :=
  ⟨pointee.spelling ++ " &", false, .leftReference pointee⟩

/-- The constant form of a type; a constant type is its own. -/
def constant (type : QualType) : QualType :=
  if type.isConst then type else ⟨"const " ++ type.spelling, true, type.shape⟩

def pointee? (type : QualType) : Option QualType :=
  match type.shape with
  | .pointer pointee | .leftReference pointee | .rightReference pointee => some pointee
  | _ => none

end QualType

end NativeBindings
