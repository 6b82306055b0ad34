import NativeBindings.Native.Declaration
import NativeBindings.Native.Document.Type

namespace NativeBindings

/-! # Declarations in documents

A declaration is a record.  Its fields are listed here in the order in which they
stand when the record is an array, and in which a missing one is reported.
-/

open Json Json.Decoder

namespace Parameter

def decoder : Decoder Parameter :=
  record default [
    defaulted "name" string fun decl name => { decl with name },
    field "qual_type" QualType.decoder fun decl type => { decl with type }]

def encode (decl : Parameter) : Value :=
  .object [("name", .string decl.name), ("qual_type", decl.type.encode)]

end Parameter

namespace FunctionDecl

def decoder : Decoder FunctionDecl :=
  record default [
    field "id" DeclId.decoder fun decl id => { decl with id },
    field "name" string fun decl name => { decl with name },
    field "result" QualType.decoder fun decl result => { decl with result },
    defaulted "parameters" (list Parameter.decoder) fun decl parameters =>
      { decl with parameters },
    defaulted "is_variadic" bool fun decl isVariadic => { decl with isVariadic }]

def encode (decl : FunctionDecl) : Value :=
  .object [
    ("id", decl.id.encode),
    ("name", .string decl.name),
    ("result", decl.result.encode),
    ("parameters", .array (decl.parameters.map Parameter.encode)),
    ("is_variadic", .bool decl.isVariadic)]

end FunctionDecl

namespace GlobalDecl

def decoder : Decoder GlobalDecl :=
  record default [
    field "id" DeclId.decoder fun decl id => { decl with id },
    field "name" string fun decl name => { decl with name },
    field "qual_type" QualType.decoder fun decl type => { decl with type }]

def encode (decl : GlobalDecl) : Value :=
  .object [
    ("id", decl.id.encode),
    ("name", .string decl.name),
    ("qual_type", decl.type.encode)]

end GlobalDecl

namespace Field

def decoder : Decoder NativeBindings.Field :=
  record default [
    field "name" string fun decl name => { decl with name },
    field "qual_type" QualType.decoder fun decl type => { decl with type },
    field "offset" uint64 fun decl offset => { decl with offset },
    defaulted "bit_width" (optional uint32) fun decl bitWidth => { decl with bitWidth }]

def encode (decl : NativeBindings.Field) : Value :=
  .object [
    ("name", .string decl.name),
    ("qual_type", decl.type.encode),
    ("offset", .nat decl.offset.toNat),
    ("bit_width", .optional (fun width => .nat width.toNat) decl.bitWidth)]

end Field

namespace RecordLayout

def decoder : Decoder RecordLayout :=
  record default [
    field "size" uint64 fun layout size => { layout with size },
    field "align" uint64 fun layout align => { layout with align },
    defaulted "fields" (list Field.decoder) fun layout fields => { layout with fields },
    defaulted "is_union" bool fun layout isUnion => { layout with isUnion }]

def encode (layout : RecordLayout) : Value :=
  .object [
    ("size", .nat layout.size.toNat),
    ("align", .nat layout.align.toNat),
    ("fields", .array (layout.fields.map Field.encode)),
    ("is_union", .bool layout.isUnion)]

end RecordLayout

namespace StructDecl

def decoder : Decoder StructDecl :=
  record default [
    field "id" DeclId.decoder fun decl id => { decl with id },
    defaulted "name" (optional string) fun decl name => { decl with name },
    defaulted "def" (optional RecordLayout.decoder) fun decl layout => { decl with layout }]

def encode (decl : StructDecl) : Value :=
  .object [
    ("id", decl.id.encode),
    ("name", .optional .string decl.name),
    ("def", .optional RecordLayout.encode decl.layout)]

end StructDecl

namespace EnumConstant

def decoder : Decoder EnumConstant :=
  record default [
    field "name" string fun decl name => { decl with name },
    field "value" int64 fun decl value => { decl with value },
    defaulted "is_explicit" bool fun decl isExplicit => { decl with isExplicit }]

def encode (decl : EnumConstant) : Value :=
  .object [
    ("name", .string decl.name),
    ("value", .int decl.value.toInt),
    ("is_explicit", .bool decl.isExplicit)]

end EnumConstant

namespace EnumDecl

def decoder : Decoder EnumDecl :=
  record default [
    field "id" DeclId.decoder fun decl id => { decl with id },
    defaulted "name" (optional string) fun decl name => { decl with name },
    field "base_type" QualType.decoder fun decl base => { decl with base },
    defaulted "constants" (list EnumConstant.decoder) fun decl constants =>
      { decl with constants }]

def encode (decl : EnumDecl) : Value :=
  .object [
    ("id", decl.id.encode),
    ("name", .optional .string decl.name),
    ("base_type", decl.base.encode),
    ("constants", .array (decl.constants.map EnumConstant.encode))]

end EnumDecl

namespace TypedefDecl

def decoder : Decoder TypedefDecl :=
  record default [
    field "id" DeclId.decoder fun decl id => { decl with id },
    field "name" string fun decl name => { decl with name },
    field "aliased" QualType.decoder fun decl aliased => { decl with aliased }]

def encode (decl : TypedefDecl) : Value :=
  .object [
    ("id", decl.id.encode),
    ("name", .string decl.name),
    ("aliased", decl.aliased.encode)]

end TypedefDecl

namespace MacroValue

def decoder : Decoder MacroValue :=
  choice [
    ("integer", .carrying (Decoder.int64.map .integer)),
    ("float", .carrying (Decoder.float.map .float)),
    ("string", .carrying (Decoder.string.map .string))]

def encode : MacroValue → Value
  | .integer value => .object [("integer", .int value.toInt)]
  | .float value => .object [("float", .number (.float value))]
  | .string value => .object [("string", .string value)]

end MacroValue

namespace MacroConstant

def decoder : Decoder MacroConstant :=
  record default [
    field "name" string fun decl name => { decl with name },
    field "qual_type" QualType.decoder fun decl type => { decl with type },
    field "value" MacroValue.decoder fun decl value => { decl with value }]

def encode (decl : MacroConstant) : Value :=
  .object [
    ("name", .string decl.name),
    ("qual_type", decl.type.encode),
    ("value", decl.value.encode)]

end MacroConstant

namespace WrappedMacro

def decoder : Decoder WrappedMacro :=
  record default [
    field "name" string fun decl name => { decl with name },
    field "qual_type" QualType.decoder fun decl type => { decl with type }]

def encode (decl : WrappedMacro) : Value :=
  .object [("name", .string decl.name), ("qual_type", decl.type.encode)]

end WrappedMacro

namespace MethodDecl

def decoder : Decoder MethodDecl :=
  record default [
    field "name" string fun decl name => { decl with name },
    field "result" QualType.decoder fun decl result => { decl with result },
    defaulted "parameters" (list Parameter.decoder) fun decl parameters =>
      { decl with parameters },
    defaulted "is_static" bool fun decl isStatic => { decl with isStatic },
    defaulted "is_const" bool fun decl isConst => { decl with isConst },
    defaulted "is_variadic" bool fun decl isVariadic => { decl with isVariadic }]

def encode (decl : MethodDecl) : Value :=
  .object [
    ("name", .string decl.name),
    ("result", decl.result.encode),
    ("parameters", .array (decl.parameters.map Parameter.encode)),
    ("is_static", .bool decl.isStatic),
    ("is_const", .bool decl.isConst),
    ("is_variadic", .bool decl.isVariadic)]

end MethodDecl

namespace ClassDecl

def decoder : Decoder ClassDecl :=
  record default [
    field "id" DeclId.decoder fun decl id => { decl with id },
    field "name" string fun decl name => { decl with name },
    defaulted "methods" (list MethodDecl.decoder) fun decl methods => { decl with methods },
    defaulted "is_forward" bool fun decl isForward => { decl with isForward }]

def encode (decl : ClassDecl) : Value :=
  .object [
    ("id", decl.id.encode),
    ("name", .string decl.name),
    ("methods", .array (decl.methods.map MethodDecl.encode)),
    ("is_forward", .bool decl.isForward)]

end ClassDecl

namespace ObjCMethod

def decoder : Decoder ObjCMethod :=
  record default [
    field "selector" string fun decl selector => { decl with selector },
    field "result" QualType.decoder fun decl result => { decl with result },
    defaulted "parameters" (list Parameter.decoder) fun decl parameters =>
      { decl with parameters },
    defaulted "is_class_method" bool fun decl isClassMethod => { decl with isClassMethod },
    defaulted "is_variadic" bool fun decl isVariadic => { decl with isVariadic },
    defaulted "is_optional" bool fun decl isOptional => { decl with isOptional }]

def encode (decl : ObjCMethod) : Value :=
  .object [
    ("selector", .string decl.selector),
    ("result", decl.result.encode),
    ("parameters", .array (decl.parameters.map Parameter.encode)),
    ("is_class_method", .bool decl.isClassMethod),
    ("is_variadic", .bool decl.isVariadic),
    ("is_optional", .bool decl.isOptional)]

end ObjCMethod

namespace ObjCProperty

def decoder : Decoder ObjCProperty :=
  record default [
    field "name" string fun decl name => { decl with name },
    field "qual_type" QualType.decoder fun decl type => { decl with type },
    field "getter" string fun decl getter => { decl with getter },
    defaulted "setter" (optional string) fun decl setter => { decl with setter },
    defaulted "is_class_property" bool fun decl isClassProperty => { decl with isClassProperty }]

def encode (decl : ObjCProperty) : Value :=
  .object [
    ("name", .string decl.name),
    ("qual_type", decl.type.encode),
    ("getter", .string decl.getter),
    ("setter", .optional .string decl.setter),
    ("is_class_property", .bool decl.isClassProperty)]

end ObjCProperty

namespace ObjCProtocolDecl

def decoder : Decoder ObjCProtocolDecl :=
  record default [
    field "id" DeclId.decoder fun decl id => { decl with id },
    field "name" string fun decl name => { decl with name },
    defaulted "protocols" (list DeclId.decoder) fun decl protocols => { decl with protocols },
    defaulted "methods" (list ObjCMethod.decoder) fun decl methods => { decl with methods },
    defaulted "properties" (list ObjCProperty.decoder) fun decl properties =>
      { decl with properties },
    defaulted "is_forward" bool fun decl isForward => { decl with isForward }]

def encode (decl : ObjCProtocolDecl) : Value :=
  .object [
    ("id", decl.id.encode),
    ("name", .string decl.name),
    ("protocols", .array (decl.protocols.map DeclId.encode)),
    ("methods", .array (decl.methods.map ObjCMethod.encode)),
    ("properties", .array (decl.properties.map ObjCProperty.encode)),
    ("is_forward", .bool decl.isForward)]

end ObjCProtocolDecl

namespace ObjCClassDecl

def decoder : Decoder ObjCClassDecl :=
  record default [
    field "id" DeclId.decoder fun decl id => { decl with id },
    field "name" string fun decl name => { decl with name },
    defaulted "superclass" (optional DeclId.decoder) fun decl superclass =>
      { decl with superclass },
    defaulted "protocols" (list DeclId.decoder) fun decl protocols => { decl with protocols },
    defaulted "methods" (list ObjCMethod.decoder) fun decl methods => { decl with methods },
    defaulted "properties" (list ObjCProperty.decoder) fun decl properties =>
      { decl with properties },
    defaulted "is_forward" bool fun decl isForward => { decl with isForward }]

def encode (decl : ObjCClassDecl) : Value :=
  .object [
    ("id", decl.id.encode),
    ("name", .string decl.name),
    ("superclass", .optional DeclId.encode decl.superclass),
    ("protocols", .array (decl.protocols.map DeclId.encode)),
    ("methods", .array (decl.methods.map ObjCMethod.encode)),
    ("properties", .array (decl.properties.map ObjCProperty.encode)),
    ("is_forward", .bool decl.isForward)]

end ObjCClassDecl

namespace ObjCCategoryDecl

def decoder : Decoder ObjCCategoryDecl :=
  record default [
    field "id" DeclId.decoder fun decl id => { decl with id },
    field "name" string fun decl name => { decl with name },
    field "class" DeclId.decoder fun decl extended => { decl with extended },
    defaulted "protocols" (list DeclId.decoder) fun decl protocols => { decl with protocols },
    defaulted "methods" (list ObjCMethod.decoder) fun decl methods => { decl with methods },
    defaulted "properties" (list ObjCProperty.decoder) fun decl properties =>
      { decl with properties }]

def encode (decl : ObjCCategoryDecl) : Value :=
  .object [
    ("id", decl.id.encode),
    ("name", .string decl.name),
    ("class", decl.extended.encode),
    ("protocols", .array (decl.protocols.map DeclId.encode)),
    ("methods", .array (decl.methods.map ObjCMethod.encode)),
    ("properties", .array (decl.properties.map ObjCProperty.encode))]

end ObjCCategoryDecl

def Declaration.decoder : DeclKind → Decoder Declaration
  | .function => FunctionDecl.decoder.map .function
  | .global => GlobalDecl.decoder.map .global
  | .struct => StructDecl.decoder.map .struct
  | .enumeration => EnumDecl.decoder.map .enumeration
  | .typedef => TypedefDecl.decoder.map .typedef
  | .macroConstant => MacroConstant.decoder.map .macroConstant
  | .wrappedMacro => WrappedMacro.decoder.map .wrappedMacro
  | .objcProtocol => ObjCProtocolDecl.decoder.map .objcProtocol
  | .objcClass => ObjCClassDecl.decoder.map .objcClass
  | .objcCategory => ObjCCategoryDecl.decoder.map .objcCategory
  | .nativeClass => ClassDecl.decoder.map .nativeClass

end NativeBindings
