import NativeBindings.Native.Document.Index
import NativeBindings.Proofs.Document.Types

namespace NativeBindings

open Json

/-! # Reading declarations

The schema of every declaration says which of its members have a default.  A decoder that
agrees with its encoder part by part reads every layout of what the encoder writes, and so
does the decoder of a whole index.
-/

theorem QualType.read (type : QualType) :
    Reads nestingLimit .type QualType.decoder type.encode type :=
  QualType.reads nestingLimit type

namespace Parameter

def schema : Schema := .record [
  .defaulted "name" (.string "") .fixed,
  .required "qual_type" .type]

theorem reads (decl : Parameter) :
    Reads nestingLimit schema decoder decl.encode decl :=
  .record [
    .defaulted "name" (.string "") (.string decl.name) fun same => by cases decl; cases same; rfl,
    .required "qual_type" decl.type.read] (by simp) rfl

end Parameter

namespace FunctionDecl

def schema : Schema := .record [
  .required "id" .fixed,
  .required "name" .fixed,
  .required "result" .type,
  .listing "parameters" Parameter.schema,
  .flag "is_variadic"]

theorem reads (decl : FunctionDecl) : Reads nestingLimit schema decoder decl.encode decl :=
  .record [
    .required "id" decl.id.reads,
    .required "name" (.string decl.name),
    .required "result" decl.result.read,
    .listing "parameters" (fun parameter _ => parameter.reads) rfl,
    .flag "is_variadic" decl.isVariadic rfl] (by simp) rfl

end FunctionDecl

namespace GlobalDecl

def schema : Schema := .record [
  .required "id" .fixed,
  .required "name" .fixed,
  .required "qual_type" .type]

theorem reads (decl : GlobalDecl) : Reads nestingLimit schema decoder decl.encode decl :=
  .record [
    .required "id" decl.id.reads,
    .required "name" (.string decl.name),
    .required "qual_type" decl.type.read] (by simp) rfl

end GlobalDecl

namespace Field

def schema : Schema := .record [
  .required "name" .fixed,
  .required "qual_type" .type,
  .required "offset" .fixed,
  .possible "bit_width" .fixed]

theorem reads (decl : NativeBindings.Field) :
    Reads nestingLimit schema decoder (encode decl) decl :=
  .record [
    .required "name" (.string decl.name),
    .required "qual_type" decl.type.read,
    .required "offset" (.uint64 decl.offset),
    .possible "bit_width" decl.bitWidth (fun width => .uint32 width) (fun _ => nofun) rfl] (by simp) rfl

end Field

namespace RecordLayout

def schema : Schema := .record [
  .required "size" .fixed,
  .required "align" .fixed,
  .listing "fields" Field.schema,
  .flag "is_union"]

theorem reads (layout : RecordLayout) :
    Reads nestingLimit schema decoder layout.encode layout :=
  .record [
    .required "size" (.uint64 layout.size),
    .required "align" (.uint64 layout.align),
    .listing "fields" (fun decl _ => decl.reads) rfl,
    .flag "is_union" layout.isUnion rfl] (by simp) rfl

end RecordLayout

namespace StructDecl

def schema : Schema := .record [
  .required "id" .fixed,
  .possible "name" .fixed,
  .possible "def" RecordLayout.schema]

theorem reads (decl : StructDecl) : Reads nestingLimit schema decoder decl.encode decl :=
  .record [
    .required "id" decl.id.reads,
    .possible "name" decl.name (fun name => .string name) (fun _ => nofun) rfl,
    .possible "def" decl.layout (fun layout => layout.reads) (fun _ => nofun) rfl] (by simp) rfl

end StructDecl

namespace EnumConstant

def schema : Schema := .record [
  .required "name" .fixed,
  .required "value" .fixed,
  .flag "is_explicit"]

theorem reads (decl : EnumConstant) : Reads nestingLimit schema decoder decl.encode decl :=
  .record [
    .required "name" (.string decl.name),
    .required "value" (.int64 decl.value),
    .flag "is_explicit" decl.isExplicit rfl] (by simp) rfl

end EnumConstant

namespace EnumDecl

def schema : Schema := .record [
  .required "id" .fixed,
  .possible "name" .fixed,
  .required "base_type" .type,
  .listing "constants" EnumConstant.schema]

theorem reads (decl : EnumDecl) : Reads nestingLimit schema decoder decl.encode decl :=
  .record [
    .required "id" decl.id.reads,
    .possible "name" decl.name (fun name => .string name) (fun _ => nofun) rfl,
    .required "base_type" decl.base.read,
    .listing "constants" (fun decl _ => decl.reads) rfl] (by simp) rfl

end EnumDecl

namespace TypedefDecl

def schema : Schema := .record [
  .required "id" .fixed,
  .required "name" .fixed,
  .required "aliased" .type]

theorem reads (decl : TypedefDecl) : Reads nestingLimit schema decoder decl.encode decl :=
  .record [
    .required "id" decl.id.reads,
    .required "name" (.string decl.name),
    .required "aliased" decl.aliased.read] (by simp) rfl

end TypedefDecl

namespace MacroValue

def isFloat : MacroValue → Bool
  | .float _ => true
  | .integer _ | .string _ => false

theorem reads (value : MacroValue) (exact : value.isFloat = false) :
    Reads nestingLimit .fixed decoder value.encode value := by
  cases value with
  | integer number => exact .carried rfl (.map MacroValue.integer (.int64 number))
  | float => cases exact
  | string text => exact .carried rfl (.map MacroValue.string (.string text))

end MacroValue

namespace MacroConstant

def schema : Schema := .record [
  .required "name" .fixed,
  .required "qual_type" .type,
  .required "value" .fixed]

theorem reads (decl : MacroConstant) (exact : decl.value.isFloat = false) :
    Reads nestingLimit schema decoder decl.encode decl :=
  .record [
    .required "name" (.string decl.name),
    .required "qual_type" decl.type.read,
    .required "value" (decl.value.reads exact)] (by simp) rfl

end MacroConstant

namespace WrappedMacro

def schema : Schema := .record [
  .required "name" .fixed,
  .required "qual_type" .type]

theorem reads (decl : WrappedMacro) : Reads nestingLimit schema decoder decl.encode decl :=
  .record [
    .required "name" (.string decl.name),
    .required "qual_type" decl.type.read] (by simp) rfl

end WrappedMacro

namespace MethodDecl

def schema : Schema := .record [
  .required "name" .fixed,
  .required "result" .type,
  .listing "parameters" Parameter.schema,
  .flag "is_static",
  .flag "is_const",
  .flag "is_variadic"]

theorem reads (decl : MethodDecl) : Reads nestingLimit schema decoder decl.encode decl :=
  .record [
    .required "name" (.string decl.name),
    .required "result" decl.result.read,
    .listing "parameters" (fun parameter _ => parameter.reads) rfl,
    .flag "is_static" decl.isStatic rfl,
    .flag "is_const" decl.isConst rfl,
    .flag "is_variadic" decl.isVariadic rfl] (by simp) rfl

end MethodDecl

namespace ClassDecl

def schema : Schema := .record [
  .required "id" .fixed,
  .required "name" .fixed,
  .listing "methods" MethodDecl.schema,
  .flag "is_forward"]

theorem reads (decl : ClassDecl) : Reads nestingLimit schema decoder decl.encode decl :=
  .record [
    .required "id" decl.id.reads,
    .required "name" (.string decl.name),
    .listing "methods" (fun method _ => method.reads) rfl,
    .flag "is_forward" decl.isForward rfl] (by simp) rfl

end ClassDecl

namespace ObjCMethod

def schema : Schema := .record [
  .required "selector" .fixed,
  .required "result" .type,
  .listing "parameters" Parameter.schema,
  .flag "is_class_method",
  .flag "is_variadic",
  .flag "is_optional"]

theorem reads (decl : ObjCMethod) : Reads nestingLimit schema decoder decl.encode decl :=
  .record [
    .required "selector" (.string decl.selector),
    .required "result" decl.result.read,
    .listing "parameters" (fun parameter _ => parameter.reads) rfl,
    .flag "is_class_method" decl.isClassMethod rfl,
    .flag "is_variadic" decl.isVariadic rfl,
    .flag "is_optional" decl.isOptional rfl] (by simp) rfl

end ObjCMethod

namespace ObjCProperty

def schema : Schema := .record [
  .required "name" .fixed,
  .required "qual_type" .type,
  .required "getter" .fixed,
  .possible "setter" .fixed,
  .flag "is_class_property"]

theorem reads (decl : ObjCProperty) : Reads nestingLimit schema decoder decl.encode decl :=
  .record [
    .required "name" (.string decl.name),
    .required "qual_type" decl.type.read,
    .required "getter" (.string decl.getter),
    .possible "setter" decl.setter (fun setter => .string setter) (fun _ => nofun) rfl,
    .flag "is_class_property" decl.isClassProperty rfl] (by simp) rfl

end ObjCProperty

namespace ObjCProtocolDecl

def schema : Schema := .record [
  .required "id" .fixed,
  .required "name" .fixed,
  .listing "protocols" .fixed,
  .listing "methods" ObjCMethod.schema,
  .listing "properties" ObjCProperty.schema,
  .flag "is_forward"]

theorem reads (decl : ObjCProtocolDecl) : Reads nestingLimit schema decoder decl.encode decl :=
  .record [
    .required "id" decl.id.reads,
    .required "name" (.string decl.name),
    .listing "protocols" (fun id _ => id.reads) rfl,
    .listing "methods" (fun method _ => method.reads) rfl,
    .listing "properties" (fun property _ => property.reads) rfl,
    .flag "is_forward" decl.isForward rfl] (by simp) rfl

end ObjCProtocolDecl

namespace ObjCClassDecl

def schema : Schema := .record [
  .required "id" .fixed,
  .required "name" .fixed,
  .possible "superclass" .fixed,
  .listing "protocols" .fixed,
  .listing "methods" ObjCMethod.schema,
  .listing "properties" ObjCProperty.schema,
  .flag "is_forward"]

theorem reads (decl : ObjCClassDecl) : Reads nestingLimit schema decoder decl.encode decl :=
  .record [
    .required "id" decl.id.reads,
    .required "name" (.string decl.name),
    .possible "superclass" decl.superclass (fun id => id.reads) (fun _ => nofun) rfl,
    .listing "protocols" (fun id _ => id.reads) rfl,
    .listing "methods" (fun method _ => method.reads) rfl,
    .listing "properties" (fun property _ => property.reads) rfl,
    .flag "is_forward" decl.isForward rfl] (by simp) rfl

end ObjCClassDecl

namespace ObjCCategoryDecl

def schema : Schema := .record [
  .required "id" .fixed,
  .required "name" .fixed,
  .required "class" .fixed,
  .listing "protocols" .fixed,
  .listing "methods" ObjCMethod.schema,
  .listing "properties" ObjCProperty.schema]

theorem reads (decl : ObjCCategoryDecl) : Reads nestingLimit schema decoder decl.encode decl :=
  .record [
    .required "id" decl.id.reads,
    .required "name" (.string decl.name),
    .required "class" decl.extended.reads,
    .listing "protocols" (fun id _ => id.reads) rfl,
    .listing "methods" (fun method _ => method.reads) rfl,
    .listing "properties" (fun property _ => property.reads) rfl] (by simp) rfl

end ObjCCategoryDecl

namespace IndexFile

def schema : Schema := .record [
  .listing "preamble" .fixed,
  .listing "functions" FunctionDecl.schema,
  .listing "globals" GlobalDecl.schema,
  .listing "structs" StructDecl.schema,
  .listing "enums" EnumDecl.schema,
  .listing "typedefs" TypedefDecl.schema,
  .listing "macro_constants" MacroConstant.schema,
  .listing "wrapped_macros" WrappedMacro.schema,
  .listing "classes" ClassDecl.schema,
  .listing "objc_protocols" ObjCProtocolDecl.schema,
  .listing "objc_classes" ObjCClassDecl.schema,
  .listing "objc_categories" ObjCCategoryDecl.schema]

theorem reads (file : IndexFile)
    (exact : ∀ constant ∈ file.macroConstants, constant.value.isFloat = false) :
    Reads nestingLimit schema decoder file.encode file :=
  .record [
    .listing "preamble" (fun line _ => .string line) rfl,
    .listing "functions" (fun decl _ => decl.reads) rfl,
    .listing "globals" (fun decl _ => decl.reads) rfl,
    .listing "structs" (fun decl _ => decl.reads) rfl,
    .listing "enums" (fun decl _ => decl.reads) rfl,
    .listing "typedefs" (fun decl _ => decl.reads) rfl,
    .listing "macro_constants" (fun decl mem => decl.reads (exact decl mem)) rfl,
    .listing "wrapped_macros" (fun decl _ => decl.reads) rfl,
    .listing "classes" (fun decl _ => decl.reads) rfl,
    .listing "objc_protocols" (fun decl _ => decl.reads) rfl,
    .listing "objc_classes" (fun decl _ => decl.reads) rfl,
    .listing "objc_categories" (fun decl _ => decl.reads) rfl] (by simp) rfl

/-- An index is read back from every layout of what is written for it, whether as a value or
from the text. -/
theorem decode_arranged (file : IndexFile)
    (exact : ∀ constant ∈ file.macroConstants, constant.value.isFloat = false) :
    Arranged schema file.encode file.encode ∧
    ∀ other, Arranged schema file.encode other → other.nesting ≤ nestingLimit →
      other.decode decoder = .ok file ∧
      Document.decode decoder ⟨other.source, false⟩ = .ok file := by
  refine ⟨(file.reads exact).conforms, fun other arranged fits => ?_⟩
  have decoded (stage : Stage) := (file.reads exact).decodes arranged stage _ fits fits
  refine ⟨decoded .stored, ?_⟩
  simp [Document.decode, decoded .streaming, pure, Except.pure]

/-- The function `int *f()` and the macro `LIMIT`. -/
def smallFile : IndexFile where
  functions := [.ofName "f" (.pointerTo .int) []]
  macroConstants := [⟨"LIMIT", .int, .integer 8⟩]

/-- Its document from back to front, with remarks, and without what need not be said. -/
def smallDocument : Value :=
  let shape : Value := .object [
    ("remark", .null), ("pointee", QualType.int.encode), ("kind", .string "pointer")]
  let result : Value := .object [("type_ref", shape), ("spelling", .string "int *")]
  let function : Value := .object [
    ("remark", .array [.bool true]), ("result", result), ("name", .string "f"),
    ("id", .string "c:@F@f")]
  .object [
    ("macro_constants", .array [MacroConstant.encode ⟨"LIMIT", .int, .integer 8⟩]),
    ("functions", .array [function])]

theorem arranged_smallDocument : Arranged schema smallFile.encode smallDocument := by
  have pointing : ("pointer", [Member.required "pointee" .type]) ∈ shapeAlternatives := by
    simp [shapeAlternatives]
  have pointee := (QualType.reads 0 .int).conforms
  have shape : Arranged (.tagged kindKey shapeAlternatives) (TypeShape.pointer .int).encode _ :=
    .tagged pointing (.record (.keep .fixed (.keep pointee .nil)) (by decide)
      (List.reverse_perm
        [("kind", Value.string "pointer"), ("pointee", QualType.int.encode), ("remark", .null)]))
  have result : Arranged .type (QualType.pointerTo .int).encode _ :=
    .type (.record (.keep .fixed (.drop rfl (.keep shape .nil))) (by decide)
      (List.reverse_perm [("spelling", Value.string "int *"), ("type_ref", _)]))
  have function : Arranged FunctionDecl.schema
      (FunctionDecl.ofName "f" (.pointerTo .int) []).encode _ :=
    .record (.keep .fixed (.keep .fixed (.keep result (.drop rfl (.drop rfl .nil))))) (by decide)
      (List.reverse_perm [
        ("id", Value.string "c:@F@f"), ("name", .string "f"), ("result", _),
        ("remark", .array [.bool true])])
  have macroConstant := (MacroConstant.reads ⟨"LIMIT", .int, .integer 8⟩ rfl).conforms
  exact .record (.drop rfl (.keep (.list (.cons function .nil)) (.drop rfl (.drop rfl (.drop rfl
    (.drop rfl (.keep (.list (.cons macroConstant .nil)) (.drop rfl (.drop rfl (.drop rfl
    (.drop rfl (.drop rfl .nil)))))))))))) (by decide) (.swap _ _ [])

theorem decode_smallDocument :
    (∀ constant ∈ smallFile.macroConstants, constant.value.isFloat = false) ∧
    Arranged schema smallFile.encode smallDocument ∧ smallDocument.nesting ≤ nestingLimit ∧
    smallDocument.decode decoder = .ok smallFile ∧
    Document.decode decoder ⟨smallDocument.source, false⟩ = .ok smallFile := by
  have exact : ∀ constant ∈ smallFile.macroConstants, constant.value.isFloat = false := by decide
  have fits : smallDocument.nesting ≤ nestingLimit := by decide
  exact ⟨exact, arranged_smallDocument, fits,
    (smallFile.decode_arranged exact).2 smallDocument arranged_smallDocument fits⟩

end IndexFile

end NativeBindings
