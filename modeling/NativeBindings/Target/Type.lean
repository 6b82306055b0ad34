namespace NativeBindings

/-! # Types of the target language -/

/-- Package of the primitive types. -/
def primitivesPackage : String := "kotlin"

/-- Package of the types that stand for native memory. -/
def interopPackage : String := "kotlinx.cinterop"

/-- A qualified name of the target language.  A nested one joins its path with
dots. -/
structure Classifier where
  package : String
  name : String
  deriving DecidableEq, Inhabited

namespace Classifier

def primitive (name : String) : Classifier := ⟨primitivesPackage, name⟩

def interop (name : String) : Classifier := ⟨interopPackage, name⟩

def nested (outer : Classifier) (name : String) : Classifier :=
  ⟨outer.package, outer.name ++ "." ++ name⟩

def qualifiedName (classifier : Classifier) : String :=
  if classifier.package = "" then classifier.name
  else classifier.package ++ "." ++ classifier.name

/-- The classifier of native memory that holds values of an alias. -/
def variableOf (classifier : Classifier) : Classifier :=
  ⟨classifier.package, classifier.name ++ "Var"⟩

end Classifier

inductive TargetType where
  | named (classifier : Classifier) (arguments : List TargetType) (nullable : Bool)
  | function (parameters : List TargetType) (result : TargetType)
  | star
  deriving Inhabited

namespace TargetType

def ofClassifier (classifier : Classifier) : TargetType := .named classifier [] false

def generic (classifier : Classifier) (arguments : List TargetType) : TargetType :=
  .named classifier arguments false

def primitive (name : String) : TargetType := ofClassifier (.primitive name)

def interop (name : String) : TargetType := ofClassifier (.interop name)

def interopOf (name : String) (argument : TargetType) : TargetType :=
  generic (.interop name) [argument]

def unit : TargetType := primitive "Unit"

def string : TargetType := primitive "String"

/-- Only a named type can be nullable. -/
def withNullable (nullable : Bool) : TargetType → TargetType
  | .named classifier arguments _ => .named classifier arguments nullable
  | type => type

def nullable (type : TargetType) : TargetType := type.withNullable true

def nonNull (type : TargetType) : TargetType := type.withNullable false

def isNullable : TargetType → Bool
  | .named _ _ nullable => nullable
  | _ => false

def classifier? : TargetType → Option Classifier
  | .named classifier _ _ => some classifier
  | _ => none

mutual

/-- The type as it is written, its names with or without their packages. -/
def render (qualified : Bool) : TargetType → String
  | .named classifier arguments nullable =>
      let name := if qualified then classifier.qualifiedName else classifier.name
      let applied :=
        if arguments.isEmpty then name
        else name ++ "<" ++ String.intercalate ", " (renderAll qualified arguments) ++ ">"
      if nullable then applied ++ "?" else applied
  | .function parameters result =>
      "(" ++ String.intercalate ", " (renderAll qualified parameters) ++ ") -> " ++
        render qualified result
  | .star => "*"

def renderAll (qualified : Bool) : List TargetType → List String
  | [] => []
  | type :: rest => render qualified type :: renderAll qualified rest

end

def text (type : TargetType) : String := type.render false

def qualifiedText (type : TargetType) : String := type.render true

end TargetType

end NativeBindings
