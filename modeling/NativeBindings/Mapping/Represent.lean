import NativeBindings.Mapping.Typedef
import NativeBindings.Naming.Classifier

namespace NativeBindings

/-! # Choosing representations

A type is represented by recursion on its tree.  At a typedef or an enumeration
the tree ends, and the type behind the name is taken from the index; how that is
represented is a parameter, so each round of names is one step of its own.
-/

/-- A computation that may find no representation.  Names it decided stay decided. -/
abbrev Represents := OptionT (StateM Run)

def Platform.signOf (platform : Platform) (signed : Bool) : Bool :=
  signed || platform = .jvm

def integerName? (size : UInt32) (signed : Bool) : Option String :=
  let name? := match size with
    | 1 => some "Byte"
    | 2 => some "Short"
    | 4 => some "Int"
    | 8 => some "Long"
    | _ => none
  name?.map fun name => if signed then name else "U" ++ name

def integerRepresentation? (platform : Platform) (size : UInt32) (signed : Bool) :
    Option Representation :=
  let signed := platform.signOf signed
  (integerName? size signed).map fun name => .primitive name (.primitive size signed false)

def floatRepresentation? (size : UInt32) : Option Representation :=
  match size with
  | 4 => some (.primitive "Float" (.primitive 4 true true))
  | 8 => some (.primitive "Double" (.primitive 8 true true))
  | _ => none

/-- A function as the memory behind a pointer. -/
def functionMemory (parameters : List TargetType) (result : TargetType) : TargetType :=
  .interopOf "CFunction" (.function parameters result)

namespace Index

variable (index : Index)

def named (decl : Declaration) : Represents Classifier := OptionT.mk (index.classifier decl)

/-- A record of which the index has a definition.  A native class counts as
defined, though its layout is not known. -/
def representRecord (id : DeclId) : Represents Representation := do
  match index.structs.get? id with
  | some decl =>
      let layout ← OptionT.mk (pure decl.layout)
      pure (.record (← index.named (.struct decl)) (.struct layout.size layout.align))
  | none =>
      let decl ← OptionT.mk (pure (index.classes.get? id))
      pure (.record (← index.named (.nativeClass decl)) .nativeClass)

/-- An enumeration: under its own name if it has one, and like its base in all
else unless it is strict. -/
def representEnumeration (follow : QualType → Represents Representation) (id : DeclId) :
    Represents Representation := do
  let decl ← OptionT.mk (pure (index.enums.get? id))
  if decl.name.isNone then follow decl.base
  else
    let classifier ← index.named (.enumeration decl)
    if (← getThe Run).config.isStrict decl then
      pure {
        target := .ofClassifier classifier
        pointed := .ofClassifier (classifier.nested "Var")
        marshalling := .byValue
        info := .enumeration classifier true }
    else
      let base ← follow decl.base
      pure {
        target := .ofClassifier classifier
        pointed := .ofClassifier classifier.variableOf
        marshalling := .byValue
        info := base.info }

/-- A typedef: like what it aliases, and under its own name if it keeps that. -/
def representTypedef (follow : QualType → Represents Representation) (id : DeclId) :
    Represents Representation := do
  let decl ← OptionT.mk (pure (index.typedefs.get? id))
  let aliased ← follow decl.aliased
  if index.keepsName decl aliased then
    let classifier ← index.named (.typedef decl)
    pure {
      target := (TargetType.ofClassifier classifier).withNullable aliased.target.isNullable
      pointed := .ofClassifier classifier.variableOf
      marshalling := aliased.marshalling
      info := aliased.info }
  else pure aliased

/-- An object of a class, or of any class that follows a protocol. -/
def representObject (id : DeclId) : Represents Representation := do
  let classifier ← match index.objcClasses.get? id with
    | some decl => index.named (.objcClass decl)
    | none => do
        let decl ← OptionT.mk (pure (index.objcProtocols.get? id))
        index.named (.objcProtocol decl)
  pure (.object (TargetType.ofClassifier classifier).nullable)

mutual

/-- How a type is represented, if `follow` represents the types behind names.  There
is nothing to say of the memory behind a pointer to `void`. -/
def representShape (follow : QualType → Represents Representation) :
    TypeShape → Represents Representation
  | .void | .function .. | .other _ => failure
  | .bool => pure (.primitive "Boolean" .boolean)
  | .char size signed | .integer size signed => do
      OptionT.mk (pure (integerRepresentation? (← getThe Run).config.platform size signed))
  | .float size => OptionT.mk (pure (floatRepresentation? size))
  | .pointer ⟨_, _, .void⟩ => pure (.pointer none)
  | .pointer ⟨_, _, .function ⟨_, _, result⟩ arguments variadic⟩ => do
      if variadic then failure
      let parameters ← targetsOf follow arguments
      let result ←
        if result.isVoid then pure .unit
        else (·.target) <$> representShape follow result
      pure (.pointer (some (functionMemory parameters result)))
  | .pointer ⟨spelling, isConst, shape⟩ => do
      -- A struct that is not defined is of no use but through its pointers.
      match index.forwardStruct? ⟨spelling, isConst, shape⟩ with
      | some decl => pure (.pointer (some (.ofClassifier (← index.named (.struct decl)))))
      | none => pure (.pointer (some (← representShape follow shape).pointed))
  | .leftReference ⟨_, _, shape⟩ | .rightReference ⟨_, _, shape⟩ => do
      pure (.reference (← representShape follow shape).pointed)
  | .record id => index.representRecord id
  | .enumeration id => index.representEnumeration follow id
  | .named id => index.representTypedef follow id
  | .array ⟨_, _, shape⟩ length => do
      pure (.array (← representShape follow shape).pointed (some length))
  | .openArray ⟨_, _, shape⟩ => do
      pure (.array (← representShape follow shape).pointed none)
  | .objcPointer id => index.representObject id
  | .objcAny => pure (.object (TargetType.primitive "Any").nullable)

def targetsOf (follow : QualType → Represents Representation) :
    List QualType → Represents (List TargetType)
  | [] => pure []
  | ⟨_, _, shape⟩ :: rest => do
      let head ← representShape follow shape
      pure (head.target :: (← targetsOf follow rest))

end

/-- How a type is represented when at most `rounds` names stand behind each other. -/
def representWithin : (rounds : Nat) → QualType → Represents Representation
  | 0, type => index.representShape (fun _ => failure) type.shape
  | rounds + 1, type => index.representShape (representWithin rounds) type.shape

/-- How a type is represented, or nothing if the target cannot represent it.  Where
no name leads back to itself, no more names stand behind each other than there are
typedefs and enumerations. -/
def represent (type : QualType) : Represents Representation :=
  index.representWithin (index.typedefs.size + index.enums.size) type

end Index

end NativeBindings
