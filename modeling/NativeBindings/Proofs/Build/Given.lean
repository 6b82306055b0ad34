import Mathlib.Data.List.Forall2
import NativeBindings.Build.Library
import NativeBindings.Proofs.Mapping.Represented

namespace NativeBindings

/-! # What declarations give

One rule for each outcome of a builder: the stubs of a declaration and its entries
of the bridge table, in the names that a run knows.  The numbers of the stubs are
left open.
-/

/-- How a property of an object is reached. -/
def ObjCProperty.kind (property : ObjCProperty) : PropertyKind :=
  match property.setter with
  | some setter => .var (.objcMessage property.getter) (.objcMessage setter)
  | none => .val (.objcMessage property.getter)

/-- The strings among the parameters of a function. -/
def stringMarks (function : StubId) (parameters : List Parameter) :
    List (ParameterKey × StringKind) :=
  (parameters.mapIdx fun position parameter =>
    parameter.type.stringKind?.map fun kind => ((function, position), kind)).reduceOption

namespace Index

section Members

variable (index : Index) (run : Run)

/-- The type of a parameter; a string is not taken as a pointer. -/
inductive ParameterGiven (takesStrings : Bool) (type : QualType) : TargetType → Prop
  | string : takesStrings → type.stringKind?.isSome →
      ParameterGiven takesStrings type TargetType.string.nullable
  | value {representation} : (takesStrings && type.stringKind?.isSome) = false →
      index.Answers run type representation →
      ParameterGiven takesStrings type representation.target

inductive ResultGiven (type : QualType) : TargetType → Prop
  | void : type.shape.isVoid → ResultGiven type .unit
  | value {representation} : type.shape.isVoid = false →
      index.Answers run type representation → ResultGiven type representation.target

/-- One parameter for each native one, and one more if further arguments may follow. -/
inductive ParametersGiven (takesStrings isVariadic : Bool) :
    List Parameter → List ParameterStub → Prop
  | nil : isVariadic = false → ParametersGiven takesStrings isVariadic [] []
  | further {name} : isVariadic →
      ParametersGiven takesStrings isVariadic [] [
        { name, type := (TargetType.primitive "Any").nullable, isVararg := true }]
  | cons {parameter : Parameter} {parameters name type stubs} :
      index.ParameterGiven run takesStrings parameter.type type →
      ParametersGiven takesStrings isVariadic parameters stubs →
      ParametersGiven takesStrings isVariadic (parameter :: parameters) ({ name, type } :: stubs)

structure SignatureGiven (takesStrings isVariadic : Bool) (parameters : List Parameter)
    (result : QualType) (stubs : List ParameterStub) (target : TargetType) : Prop where
  parameters : index.ParametersGiven run takesStrings isVariadic parameters stubs
  result : index.ResultGiven run result target

structure FieldGiven (field : Field) (stub : PropertyStub) : Prop where
  kind : ∃ isReadOnly, ∃ accessor, accessor ≠ .bridge ∧
    stub.kind = if isReadOnly = true then .val accessor else .var accessor accessor
  receiver : stub.receiver = none
  type : ∃ representation, index.Answers run field.type representation ∧
    stub.type = representation.placed

/-- The property of a field, assigned unless it is read in place or the field's type is
constant. -/
structure FieldBuilt (field : Field) (stub : PropertyStub) : Prop where
  name : stub.name = field.name
  receiver : stub.receiver = none
  access : ∃ representation accessor, index.Answers run field.type representation ∧
    fieldAccessor? field representation.info = some accessor ∧
    stub.type = representation.placed ∧
    stub.kind = if representation.isAggregate || field.type.isConst then .val accessor
      else .var accessor accessor

/-- Method number `number` of a native class. -/
structure MethodGiven (owner : ClassDecl) (number : Nat) (method : MethodDecl)
    (stub : FunctionStub) : Prop where
  fixed : method.isVariadic = false
  origin : stub.origin = .method owner.id number
  call : stub.call = .bridged
  receiver : stub.receiver = none
  signature : index.SignatureGiven run false false method.parameters method.result
    stub.parameters stub.result

structure ObjCMethodGiven (container : DeclId) (receiver : Option TargetType)
    (method : ObjCMethod) (stub : FunctionStub) : Prop where
  origin : stub.origin = .objcMethod container method.selector method.isClassMethod
  call : stub.call = .objcMessage
  receiver : stub.receiver = receiver
  signature : index.SignatureGiven run false false method.parameters method.result
    stub.parameters stub.result

structure ObjCPropertyGiven (receiver : Option TargetType) (property : ObjCProperty)
    (stub : PropertyStub) : Prop where
  name : stub.name = property.name
  kind : stub.kind = property.kind
  receiver : stub.receiver = receiver
  type : ∃ representation, index.Answers run property.type representation ∧
    stub.type = representation.target

structure MembersGiven (container : DeclId) (receiver : Option TargetType)
    (methods : List ObjCMethod) (properties : List ObjCProperty)
    (functions : List FunctionStub) (stubs : List PropertyStub) : Prop where
  functions : List.Forall₂ (index.ObjCMethodGiven run container receiver) methods functions
  properties : List.Forall₂ (index.ObjCPropertyGiven run receiver) properties stubs

inductive ProtocolGiven (id : DeclId) : TargetType → Prop
  | named {decl classifier} : index.objcProtocols.get? id = some decl →
      run.Names (.objcProtocol decl) classifier → ProtocolGiven id (.ofClassifier classifier)

inductive ClassGiven (id : DeclId) : TargetType → Prop
  | named {decl classifier} : index.objcClasses.get? id = some decl →
      run.Names (.objcClass decl) classifier → ClassGiven id (.ofClassifier classifier)

inductive SuperclassGiven : Option DeclId → TargetType → Prop
  | root : SuperclassGiven none (.interop "ObjCObjectBase")
  | inherited {id type} : index.ClassGiven run id type → SuperclassGiven (some id) type

end Members

/-- A constant of the given type. -/
def ConstantGiven (type : TargetType) (entry : EnumEntry) (element : StubElement) : Prop :=
  ∃ id, element = .ofProperty { id, name := entry.name, type, kind := .constant entry.constant }

/-- What a declaration gives in the names that a run knows. -/
inductive Gives (index : Index) (run : Run) : Declaration → Built → Prop
  | forwardStruct {decl : StructDecl} {id classifier} :
      decl.layout = none → run.Names (.struct decl) classifier →
      Gives index run (.struct decl) {
        elements := [.ofClass {
          id, classifier, kind := .forwardStruct, supertypes := [.interop "COpaque"] }] }
  | struct {decl : StructDecl} {layout id classifier properties} :
      decl.layout = some layout → run.Names (.struct decl) classifier →
      (∀ property ∈ properties, ∃ field ∈ layout.fields, index.FieldGiven run field property) →
      Gives index run (.struct decl) {
        elements := [.ofClass {
          id, classifier, kind := .struct layout.size layout.align layout.isUnion,
          supertypes := [.interop "CStructVar"], properties }] }
  | anonymousEnum {decl : EnumDecl} {base entries constants} :
      run.classifiers.get? decl.id = some none → index.Answers run decl.base base →
      index.enumEntries run.config.platform decl = some entries →
      List.Forall₂ (ConstantGiven base.target) entries constants →
      Gives index run (.enumeration decl) { elements := constants }
  | strictEnum {decl : EnumDecl} {id classifier base entries representation} :
      run.Names (.enumeration decl) classifier → run.config.isStrict decl →
      index.Answers run decl.base base →
      index.enumEntries run.config.platform decl = some entries →
      Gives index run (.enumeration decl) {
        elements := [.ofClass {
          id, classifier, kind := .enumeration entries base.target,
          supertypes := [.interop "CEnum"] }],
        table := BridgeTable.addEnumeration ∅ id representation }
  | openEnum {decl : EnumDecl} {value memory classifier base entries constants} :
      run.Names (.enumeration decl) classifier → run.config.isStrict decl = false →
      index.Answers run decl.base base →
      index.enumEntries run.config.platform decl = some entries →
      List.Forall₂ (ConstantGiven (.ofClassifier classifier)) entries constants →
      Gives index run (.enumeration decl) {
        elements := [
          .ofTypealias ⟨value, classifier, base.target⟩,
          .ofTypealias ⟨memory, classifier.variableOf, base.pointed⟩] ++ constants }
  | namesItself {decl : TypedefDecl} : index.namesItself decl → Gives index run (.typedef decl) {}
  | typedef {decl : TypedefDecl} {id classifier aliased} :
      index.namesItself decl = false → run.Names (.typedef decl) classifier →
      index.Answers run decl.aliased aliased → index.keepsName decl aliased = false →
      Gives index run (.typedef decl) {
        elements := [.ofTypealias ⟨id, classifier,
          if aliased.info.isRecord then aliased.pointed else aliased.target.nonNull⟩] }
  | keptTypedef {decl : TypedefDecl} {value memory classifier aliased} :
      run.Names (.typedef decl) classifier → index.Answers run decl.aliased aliased →
      index.keepsName decl aliased →
      Gives index run (.typedef decl) {
        elements := [
          .ofTypealias ⟨value, classifier,
            if aliased.info.isRecord then aliased.pointed else aliased.target.nonNull⟩,
          .ofTypealias ⟨memory, classifier.variableOf, aliased.pointed⟩] }
  | nativeClass {decl : ClassDecl} {id classifier functions} :
      run.Names (.nativeClass decl) classifier →
      List.Forall₂ (fun method stub => index.MethodGiven run decl method.2 method.1 stub)
        decl.methods.zipIdx functions →
      Gives index run (.nativeClass decl) {
        elements := [.ofClass {
          id, classifier, kind := .nativeClass, supertypes := [.interop "CStructVar"],
          functions }] }
  | objcProtocol {decl : ObjCProtocolDecl} {id classifier protocols functions properties} :
      run.Names (.objcProtocol decl) classifier →
      List.Forall₂ (index.ProtocolGiven run) decl.protocols protocols →
      index.MembersGiven run decl.id none decl.methods decl.properties functions properties →
      Gives index run (.objcProtocol decl) {
        elements := [.ofClass {
          id, classifier, kind := .objcProtocol, supertypes := .interop "ObjCObject" :: protocols,
          properties, functions }] }
  | objcClass {decl : ObjCClassDecl}
      {id classifier superclass protocols functions properties} :
      run.Names (.objcClass decl) classifier →
      index.SuperclassGiven run decl.superclass superclass →
      List.Forall₂ (index.ProtocolGiven run) decl.protocols protocols →
      index.MembersGiven run decl.id none decl.methods decl.properties functions properties →
      Gives index run (.objcClass decl) {
        elements := [.ofClass {
          id, classifier, kind := .objcClass, supertypes := superclass :: protocols,
          properties, functions }] }
  | objcCategory {decl : ObjCCategoryDecl} {id name receiver functions properties} :
      index.ClassGiven run decl.extended receiver →
      index.MembersGiven run decl.id (some receiver) decl.methods decl.properties functions
        properties →
      Gives index run (.objcCategory decl) {
        elements := [.ofGroup {
          id, name, members := { (∅ : StubTree) with functions, properties } }] }
  | readOnlyGlobal {decl : GlobalDecl} {id representation} :
      index.Answers run decl.type representation →
      Gives index run (.global decl) {
        elements := [.ofProperty {
          id, name := decl.name, type := representation.placed, kind := .val .bridge }],
        table := BridgeTable.addGetter ∅ id (representation.getter decl.name decl.type) }
  | global {decl : GlobalDecl} {id representation} :
      representation.isAggregate = false → index.Answers run decl.type representation →
      Gives index run (.global decl) {
        elements := [.ofProperty {
          id, name := decl.name, type := representation.placed, kind := .var .bridge .bridge }],
        table := (BridgeTable.addGetter ∅ id (representation.getter decl.name decl.type)).addSetter
          id ⟨decl.name, decl.type, representation⟩ }
  | function {decl : FunctionDecl} {id parameters result} :
      index.SignatureGiven run true decl.isVariadic decl.parameters decl.result
        parameters result →
      Gives index run (.function decl) {
        elements := [.ofFunction {
          id, name := simpleName decl.name, parameters, result, origin := .function decl.id,
          call := decl.callKind }],
        table := (stringMarks id decl.parameters).foldl (fun table mark =>
          table.markString mark.1 mark.2) ∅ }
  | noConstant {decl : MacroConstant} : Gives index run (.macroConstant decl) {}
  | stringConstant {decl : MacroConstant} {id value} :
      Gives index run (.macroConstant decl) {
        elements := [.ofProperty {
          id, name := decl.name, type := .string, kind := .constant (.string value) }] }
  | constant {decl : MacroConstant} {id representation value} :
      index.Answers run decl.type representation →
      Gives index run (.macroConstant decl) {
        elements := [.ofProperty {
          id, name := decl.name, type := representation.target, kind := .constant value }] }
  | wrappedMacro {decl : WrappedMacro} {id representation} :
      index.Answers run decl.type representation →
      Gives index run (.wrappedMacro decl) {
        elements := [.ofProperty {
          id, name := decl.name, type := representation.placed, kind := .val .bridge }],
        table := BridgeTable.addGetter ∅ id (representation.getter decl.name decl.type) }

section Later

variable {index : Index} {run later : Run}

theorem ParameterGiven.mono {takesStrings : Bool} {type : QualType} {target : TargetType}
    (given : index.ParameterGiven run takesStrings type target) (le : run ≤ later) :
    index.ParameterGiven later takesStrings type target := by
  cases given with
  | string takes isString => exact .string takes isString
  | value plain answers => exact .value plain (answers.mono le)

theorem ResultGiven.mono {type : QualType} {target : TargetType}
    (given : index.ResultGiven run type target) (le : run ≤ later) :
    index.ResultGiven later type target := by
  cases given with
  | void isVoid => exact .void isVoid
  | value notVoid answers => exact .value notVoid (answers.mono le)

theorem ParametersGiven.mono {takesStrings isVariadic : Bool} {parameters : List Parameter}
    {stubs : List ParameterStub}
    (given : index.ParametersGiven run takesStrings isVariadic parameters stubs)
    (le : run ≤ later) :
    index.ParametersGiven later takesStrings isVariadic parameters stubs := by
  induction given with
  | nil fixed => exact .nil fixed
  | further variadic => exact .further variadic
  | cons type _ ih => exact .cons (type.mono le) ih

theorem SignatureGiven.mono {takesStrings isVariadic : Bool} {parameters : List Parameter}
    {result : QualType} {stubs : List ParameterStub} {target : TargetType}
    (given : index.SignatureGiven run takesStrings isVariadic parameters result stubs target)
    (le : run ≤ later) :
    index.SignatureGiven later takesStrings isVariadic parameters result stubs target :=
  ⟨given.parameters.mono le, given.result.mono le⟩

theorem FieldGiven.mono {field : Field} {stub : PropertyStub}
    (given : index.FieldGiven run field stub) (le : run ≤ later) :
    index.FieldGiven later field stub := by
  obtain ⟨representation, answers, type⟩ := given.type
  exact ⟨given.kind, given.receiver, representation, answers.mono le, type⟩

theorem FieldBuilt.mono {field : Field} {stub : PropertyStub}
    (built : index.FieldBuilt run field stub) (le : run ≤ later) :
    index.FieldBuilt later field stub := by
  obtain ⟨representation, accessor, answers, access⟩ := built.access
  exact ⟨built.name, built.receiver, representation, accessor, answers.mono le, access⟩

theorem MethodGiven.mono {owner : ClassDecl} {number : Nat} {method : MethodDecl}
    {stub : FunctionStub} (given : index.MethodGiven run owner number method stub)
    (le : run ≤ later) : index.MethodGiven later owner number method stub :=
  { given with signature := given.signature.mono le }

theorem ObjCMethodGiven.mono {container : DeclId} {receiver : Option TargetType}
    {method : ObjCMethod} {stub : FunctionStub}
    (given : index.ObjCMethodGiven run container receiver method stub) (le : run ≤ later) :
    index.ObjCMethodGiven later container receiver method stub :=
  { given with signature := given.signature.mono le }

theorem ObjCPropertyGiven.mono {receiver : Option TargetType} {property : ObjCProperty}
    {stub : PropertyStub} (given : index.ObjCPropertyGiven run receiver property stub)
    (le : run ≤ later) : index.ObjCPropertyGiven later receiver property stub := by
  obtain ⟨representation, answers, type⟩ := given.type
  exact ⟨given.name, given.kind, given.receiver, representation, answers.mono le, type⟩

theorem MembersGiven.mono {container : DeclId} {receiver : Option TargetType}
    {methods : List ObjCMethod} {properties : List ObjCProperty}
    {functions : List FunctionStub} {stubs : List PropertyStub}
    (given : index.MembersGiven run container receiver methods properties functions stubs)
    (le : run ≤ later) :
    index.MembersGiven later container receiver methods properties functions stubs where
  functions := given.functions.imp fun _ _ method => method.mono le
  properties := given.properties.imp fun _ _ property => property.mono le

theorem ProtocolGiven.mono {id : DeclId} {type : TargetType}
    (given : index.ProtocolGiven run id type) (le : run ≤ later) :
    index.ProtocolGiven later id type := by
  cases given with
  | named found named => exact .named found (named.mono le)

theorem ClassGiven.mono {id : DeclId} {type : TargetType}
    (given : index.ClassGiven run id type) (le : run ≤ later) :
    index.ClassGiven later id type := by
  cases given with
  | named found named => exact .named found (named.mono le)

theorem SuperclassGiven.mono {id? : Option DeclId} {type : TargetType}
    (given : index.SuperclassGiven run id? type) (le : run ≤ later) :
    index.SuperclassGiven later id? type := by
  cases given with
  | root => exact .root
  | inherited given => exact .inherited (given.mono le)

/-- What a declaration gave stays true of it for the rest of the run. -/
theorem Gives.mono {decl : Declaration} {built : Built} (gives : index.Gives run decl built)
    (le : run ≤ later) : index.Gives later decl built := by
  cases gives with
  | forwardStruct isForward named => exact .forwardStruct isForward (named.mono le)
  | struct layout named fields =>
      refine .struct layout (named.mono le) fun property member => ?_
      obtain ⟨field, listed, given⟩ := fields property member
      exact ⟨field, listed, given.mono le⟩
  | anonymousEnum unnamed base entries constants =>
      exact .anonymousEnum (le.classifiers unnamed) (base.mono le) (le.config ▸ entries) constants
  | strictEnum named strict base entries =>
      exact .strictEnum (named.mono le) (le.config ▸ strict) (base.mono le) (le.config ▸ entries)
  | openEnum named isOpen base entries constants =>
      exact .openEnum (named.mono le) (le.config ▸ isOpen) (base.mono le) (le.config ▸ entries)
        constants
  | namesItself self => exact .namesItself self
  | typedef other named aliased through =>
      exact .typedef other (named.mono le) (aliased.mono le) through
  | keptTypedef named aliased keeps => exact .keptTypedef (named.mono le) (aliased.mono le) keeps
  | nativeClass named methods =>
      exact .nativeClass (named.mono le) (methods.imp fun _ _ method => method.mono le)
  | objcProtocol named protocols members =>
      exact .objcProtocol (named.mono le) (protocols.imp fun _ _ given => given.mono le)
        (members.mono le)
  | objcClass named superclass protocols members =>
      exact .objcClass (named.mono le) (superclass.mono le)
        (protocols.imp fun _ _ given => given.mono le) (members.mono le)
  | objcCategory receiver members => exact .objcCategory (receiver.mono le) (members.mono le)
  | readOnlyGlobal type => exact .readOnlyGlobal (type.mono le)
  | «global» plain type => exact .global plain (type.mono le)
  | function signature => exact .function (signature.mono le)
  | noConstant => exact .noConstant
  | stringConstant => exact .stringConstant
  | constant type => exact .constant (type.mono le)
  | wrappedMacro type => exact .wrappedMacro (type.mono le)

end Later

end Index

end NativeBindings
