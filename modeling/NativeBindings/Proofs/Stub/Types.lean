import NativeBindings.Proofs.Stub.Elements

namespace NativeBindings

/-! # Names in stub trees

A tree uses names in the types of its stubs, and declares some of them itself.
-/

/-- Is the name one of those that the target comes with? -/
def Classifier.IsBuiltIn (classifier : Classifier) : Prop :=
  classifier.package = primitivesPackage ∨ classifier.package = interopPackage

namespace TargetType

mutual

/-- The names in a type, at any depth. -/
def classifiers : TargetType → List Classifier
  | .named classifier arguments _ => classifier :: classifiersOf arguments
  | .function parameters result => classifiersOf parameters ++ result.classifiers
  | .star => []

def classifiersOf : List TargetType → List Classifier
  | [] => []
  | type :: rest => type.classifiers ++ classifiersOf rest

end

theorem classifiersOf_eq_flatMap (types : List TargetType) :
    classifiersOf types = types.flatMap classifiers := by
  induction types with
  | nil => rfl
  | cons type rest ih => rw [classifiersOf, ih, List.flatMap_cons]

@[simp] theorem classifiers_withNullable (nullable : Bool) (type : TargetType) :
    (type.withNullable nullable).classifiers = type.classifiers := by
  cases type <;> simp [withNullable, classifiers]

/-- Is something true of every name in a type? -/
def All (holds : Classifier → Prop) (type : TargetType) : Prop :=
  ∀ classifier ∈ type.classifiers, holds classifier

section All

variable {holds : Classifier → Prop}

theorem All.ofClassifier {classifier : Classifier} (here : holds classifier) :
    (TargetType.ofClassifier classifier).All holds := by
  intro other member
  simp only [TargetType.ofClassifier, classifiers, classifiersOf, List.mem_singleton] at member
  exact member ▸ here

theorem All.withNullable {nullable : Bool} {type : TargetType} (all : type.All holds) :
    (type.withNullable nullable).All holds := by
  rwa [All, classifiers_withNullable]

theorem All.generic {classifier : Classifier} {argument : TargetType} (here : holds classifier)
    (all : argument.All holds) : (TargetType.generic classifier [argument]).All holds := by
  intro other member
  simp only [TargetType.generic, classifiers, classifiersOf, List.append_nil,
    List.mem_cons] at member
  rcases member with rfl | inside
  · exact here
  · exact all other inside

theorem All.function {parameters : List TargetType} {result : TargetType}
    (each : ∀ type ∈ parameters, type.All holds) (all : result.All holds) :
    (TargetType.function parameters result).All holds := by
  intro classifier member
  rw [classifiers, classifiersOf_eq_flatMap, List.mem_append, List.mem_flatMap] at member
  rcases member with ⟨type, listed, inside⟩ | inside
  · exact each type listed classifier inside
  · exact all classifier inside

end All

end TargetType

def PropertyStub.types (stub : PropertyStub) : List TargetType :=
  stub.type :: stub.receiver.toList

def FunctionStub.types (stub : FunctionStub) : List TargetType :=
  stub.parameters.map (·.type) ++ stub.result :: stub.receiver.toList

def ClassKind.types : ClassKind → List TargetType
  | .enumeration _ base => [base]
  | .struct .. | .forwardStruct | .nativeClass | .objcClass | .objcProtocol => []

def ClassStub.types (stub : ClassStub) : List TargetType :=
  stub.kind.types ++ stub.supertypes ++ stub.properties.flatMap (·.types) ++
    stub.functions.flatMap (·.types)

/-- The names that a class declares; a closed enumeration declares its memory inside
of it. -/
def ClassStub.declared (stub : ClassStub) : List Classifier :=
  match stub.kind with
  | .enumeration .. => [stub.classifier, stub.classifier.nested "Var"]
  | .struct .. | .forwardStruct | .nativeClass | .objcClass | .objcProtocol => [stub.classifier]

namespace StubTree

mutual

/-- The types of all stubs, those of class members and groups among them. -/
def types : StubTree → List TargetType
  | ⟨classes, functions, properties, typealiases, groups⟩ =>
      classes.flatMap (·.types) ++ functions.flatMap (·.types) ++ properties.flatMap (·.types) ++
        typealiases.map (·.aliasee) ++ groupTypes groups

def groupTypes : List StubGroup → List TargetType
  | [] => []
  | ⟨_, _, members⟩ :: rest => members.types ++ groupTypes rest

end

mutual

/-- The names that a tree declares. -/
def declared : StubTree → List Classifier
  | ⟨classes, _, _, typealiases, groups⟩ =>
      classes.flatMap (·.declared) ++ typealiases.map (·.classifier) ++ groupDeclared groups

def groupDeclared : List StubGroup → List Classifier
  | [] => []
  | ⟨_, _, members⟩ :: rest => members.declared ++ groupDeclared rest

end

end StubTree

namespace StubElement

def types : StubElement → List TargetType
  | .ofClass stub => stub.types
  | .ofFunction stub => stub.types
  | .ofProperty stub => stub.types
  | .ofTypealias stub => [stub.aliasee]
  | .ofGroup stub => stub.members.types

def declared : StubElement → List Classifier
  | .ofClass stub => stub.declared
  | .ofTypealias stub => [stub.classifier]
  | .ofFunction _ | .ofProperty _ => []
  | .ofGroup stub => stub.members.declared

end StubElement

namespace StubTree

variable (tree : StubTree)

theorem groupTypes_eq (groups : List StubGroup) :
    groupTypes groups = groups.flatMap (·.members.types) := by
  induction groups with
  | nil => rfl
  | cons stub rest ih =>
      obtain ⟨id, name, members⟩ := stub
      simp [groupTypes, ih]

theorem groupDeclared_eq (groups : List StubGroup) :
    groupDeclared groups = groups.flatMap (·.members.declared) := by
  induction groups with
  | nil => rfl
  | cons stub rest ih =>
      obtain ⟨id, name, members⟩ := stub
      simp [groupDeclared, ih]

theorem types_eq_flatMap : tree.types = tree.elements.flatMap (·.types) := by
  obtain ⟨classes, functions, properties, typealiases, groups⟩ := tree
  simp [types, elements, groupTypes_eq, StubElement.types, List.flatMap_map,
    ← List.map_eq_flatMap]

theorem declared_eq_flatMap : tree.declared = tree.elements.flatMap (·.declared) := by
  obtain ⟨classes, functions, properties, typealiases, groups⟩ := tree
  simp [declared, elements, groupDeclared_eq, StubElement.declared, List.flatMap_map,
    flatMap_nothing, ← List.map_eq_flatMap]

theorem types_members (functions : List FunctionStub) (properties : List PropertyStub) :
    types { (∅ : StubTree) with functions, properties } =
      functions.flatMap (·.types) ++ properties.flatMap (·.types) := by
  rw [types_eq_flatMap, elements_members]
  simp [List.flatMap_map, StubElement.types]

end StubTree

end NativeBindings
