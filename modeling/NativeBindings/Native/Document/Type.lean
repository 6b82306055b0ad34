import NativeBindings.Json.Decoder
import NativeBindings.Native.Type

namespace NativeBindings

/-! # Types in documents

What a type is, is a record that begins with its kind.  The record is read through
to its end before anything but its kind is judged, so its fields are decoded in
the buffered stage.
-/

open Json

def DeclId.decoder : Decoder DeclId := Decoder.string.map DeclId.mk

def DeclId.encode (id : DeclId) : Value := .string id.text

inductive TypeKind where
  | void
  | bool
  | char
  | integer
  | float
  | pointer
  | leftReference
  | rightReference
  | record
  | enumeration
  | named
  | array
  | openArray
  | function
  | objcPointer
  | objcAny
  | other
  deriving DecidableEq

def typeKinds : List (String × TypeKind) := [
  ("void", .void),
  ("bool", .bool),
  ("char", .char),
  ("integer", .integer),
  ("float", .float),
  ("pointer", .pointer),
  ("l_value_reference", .leftReference),
  ("r_value_reference", .rightReference),
  ("record", .record),
  ("enum", .enumeration),
  ("typedef", .named),
  ("constant_array", .array),
  ("incomplete_array", .openArray),
  ("function_proto", .function),
  ("objc_object_pointer", .objcPointer),
  ("objc_id", .objcAny),
  ("unsupported", .other)]

/-- A kind is given by name.  In a buffered tree its number will do. -/
def TypeKind.decoder : Decoder TypeKind
  | _, _, .string scalar => do
      let name ← scalar.value
      match typeKinds.find? (·.1 = name) with
      | some found => pure found.2
      | none => throw (.unknownVariant name)
  | .buffered, _, .number ⟨.ok (.integer number), _⟩ =>
      if number < 0 then .error .shape
      else match typeKinds[number.toNat]? with
        | some found => .ok found.2
        | none => .error .shape
  | _, _, source => .error (wrongKind source)

/-- How the parts of one kind of type are read. -/
structure TypeParts where
  Draft : Type
  initial : Draft
  fields : List (Decoder.Field Draft)
  finish : Draft → TypeShape

def noParts (type : TypeShape) : TypeParts := ⟨Unit, (), [], fun _ => type⟩

def onePart {α : Type} [Inhabited α] (name : String) (decoder : Decoder α)
    (finish : α → TypeShape) : TypeParts :=
  ⟨α, default, [Decoder.field name decoder fun _ value => value], finish⟩

/-- The parts of every kind, in which types are read by `inner`. -/
def TypeKind.parts (inner : Decoder QualType) : TypeKind → TypeParts
  | .void => noParts .void
  | .bool => noParts .bool
  | .char => sized .char
  | .integer => sized .integer
  | .float => onePart "size" Decoder.uint32 .float
  | .pointer => onePart "pointee" inner .pointer
  | .leftReference => onePart "pointee" inner .leftReference
  | .rightReference => onePart "pointee" inner .rightReference
  | .record => onePart "id" DeclId.decoder .record
  | .enumeration => onePart "id" DeclId.decoder .enumeration
  | .named => onePart "id" DeclId.decoder .named
  | .array =>
      ⟨QualType × UInt64, (default, 0),
        [Decoder.field "element" inner fun draft element => (element, draft.2),
          Decoder.field "len" Decoder.uint64 fun draft length => (draft.1, length)],
        fun draft => .array draft.1 draft.2⟩
  | .openArray => onePart "element" inner .openArray
  | .function =>
      ⟨QualType × List QualType × Bool, (default, [], false),
        [Decoder.field "result" inner fun draft result => (result, draft.2),
          Decoder.field "args" (Decoder.list inner) fun draft arguments =>
            (draft.1, arguments, draft.2.2),
          Decoder.field "is_variadic" Decoder.bool fun draft variadic =>
            (draft.1, draft.2.1, variadic)],
        fun draft => .function draft.1 draft.2.1 draft.2.2⟩
  | .objcPointer => onePart "id" DeclId.decoder .objcPointer
  | .objcAny => noParts .objcAny
  | .other => onePart "description" Decoder.string .other
where
  sized (finish : UInt32 → Bool → TypeShape) : TypeParts :=
    ⟨UInt32 × Bool, (0, false),
      [Decoder.field "size" Decoder.uint32 fun draft size => (size, draft.2),
        Decoder.field "is_signed" Decoder.bool fun draft signed => (draft.1, signed)],
      fun draft => finish draft.1 draft.2⟩

def kindKey : String := "kind"

/-- Reads the members of a type through: its kind is decoded, the others are kept. -/
def readThrough (stage : Stage) (depth : Nat) (kind : Option TypeKind) :
    List (Source × Source) → Except ReadError (Option TypeKind × List (Source × Source))
  | [] => .ok (kind, [])
  | (key, value) :: rest => do
      let name ← key.key
      if name = kindKey then
        if kind.isSome then throw (.duplicateField kindKey)
        else
          let kind ← TypeKind.decoder stage depth value
          readThrough stage depth (some kind) rest
      else
        Decoder.through stage depth value
        let (kind, others) ← readThrough stage depth kind rest
        pure (kind, (key, value) :: others)

def TypeShape.decoderWith (inner : Decoder QualType) : Decoder TypeShape
  | stage, depth, .object members ending => do
      let depth ← Decoder.enter depth
      let (kind, members) ← readThrough stage depth none members
      Decoder.close ending
      match kind with
      | none => throw (.missingField kindKey)
      | some kind =>
          let parts := kind.parts inner
          let draft ← Decoder.fromMembers parts.fields .buffered depth parts.initial members .closed
          pure (parts.finish draft)
  | stage, depth, .array items ending => do
      let depth ← Decoder.enter depth
      match items with
      | [] =>
          Decoder.close ending
          throw (.missingField kindKey)
      | first :: rest =>
          let kind ← TypeKind.decoder stage depth first
          for item in rest do
            Decoder.through stage depth item
          Decoder.close ending
          let parts := kind.parts inner
          let draft ← Decoder.fromItems .buffered depth .closed parts.initial parts.fields rest
          pure (parts.finish draft)
  | _, _, source => .error (wrongKind source)

/-- Decodes a type in which at most `levels` types stand around each other. -/
def QualType.decoderWithin : (levels : Nat) → Decoder QualType
  | 0 => fun _ _ _ => .error (.text .malformed)
  | levels + 1 =>
      Decoder.record default [
        Decoder.field "spelling" Decoder.string fun type spelling => { type with spelling },
        Decoder.defaulted "is_const" Decoder.bool fun type isConst => { type with isConst },
        Decoder.field "type_ref" (TypeShape.decoderWith (QualType.decoderWithin levels))
          fun type shape => { type with shape }]

/-- Decodes a type.  Every type opens an object or array of its own, so the limit
on nesting bounds the levels as well. -/
def QualType.decoder : Decoder QualType := QualType.decoderWithin nestingLimit

mutual

def TypeShape.encode : TypeShape → Value
  | .void => typed "void" []
  | .bool => typed "bool" []
  | .char size signed => typed "char" [("size", .nat size.toNat), ("is_signed", .bool signed)]
  | .integer size signed =>
      typed "integer" [("size", .nat size.toNat), ("is_signed", .bool signed)]
  | .float size => typed "float" [("size", .nat size.toNat)]
  | .pointer pointee => typed "pointer" [("pointee", pointee.encode)]
  | .leftReference pointee => typed "l_value_reference" [("pointee", pointee.encode)]
  | .rightReference pointee => typed "r_value_reference" [("pointee", pointee.encode)]
  | .record id => typed "record" [("id", id.encode)]
  | .enumeration id => typed "enum" [("id", id.encode)]
  | .named id => typed "typedef" [("id", id.encode)]
  | .array element length =>
      typed "constant_array" [("element", element.encode), ("len", .nat length.toNat)]
  | .openArray element => typed "incomplete_array" [("element", element.encode)]
  | .function result arguments variadic =>
      typed "function_proto" [
        ("result", result.encode),
        ("args", .array (QualType.encodeAll arguments)),
        ("is_variadic", .bool variadic)]
  | .objcPointer id => typed "objc_object_pointer" [("id", id.encode)]
  | .objcAny => typed "objc_id" []
  | .other description => typed "unsupported" [("description", .string description)]
where
  typed (kind : String) (parts : List (String × Value)) : Value :=
    .object ((kindKey, .string kind) :: parts)

def QualType.encode : QualType → Value
  | ⟨spelling, isConst, shape⟩ =>
      .object [
        ("spelling", .string spelling), ("is_const", .bool isConst), ("type_ref", shape.encode)]

def QualType.encodeAll : List QualType → List Value
  | [] => []
  | type :: rest => type.encode :: QualType.encodeAll rest

end

end NativeBindings
