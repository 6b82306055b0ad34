import NativeBindings.Json.Printer
import NativeBindings.Output.Listing

namespace NativeBindings

/-! # Metadata

Instead of listings a run can describe its modules in one JSON document: a fragment
for every declaration, with all names qualified, and an annotation for every
function that is linked to a symbol.
-/

open Json

structure Fragment where
  kind : String
  name : String
  signature : String
  symbol : Option String := none
  deriving DecidableEq, Inhabited

namespace Fragment

def encode (fragment : Fragment) : Value :=
  .object ([
    ("kind", .string fragment.kind),
    ("name", .string fragment.name),
    ("signature", .string fragment.signature)] ++
    fragment.symbol.toList.map fun symbol => ("symbol", .string symbol))

def ofTypealias (stub : TypealiasStub) : Fragment where
  kind := "typealias"
  name := stub.classifier.qualifiedName
  signature := stub.aliasee.qualifiedText

def ofProperty (symbols : SymbolTable) (scope : String) (stub : PropertyStub) : Fragment where
  kind := "property"
  name := scope ++ "." ++ stub.name
  signature := stub.type.qualifiedText
  symbol := symbols.getters.get? stub.id

def ofFunction (symbols : SymbolTable) (scope : String) (stub : FunctionStub) : Fragment where
  kind := "function"
  name := scope ++ "." ++ stub.name
  signature :=
    "(" ++ String.intercalate ", " (stub.parameters.map (·.type.qualifiedText)) ++ ") -> " ++
      stub.result.qualifiedText
  symbol := symbols.functions.get? stub.id

end Fragment

def ClassKind.word : ClassKind → String
  | .struct .. | .forwardStruct => "struct"
  | .enumeration .. => "enum"
  | .nativeClass => "class"
  | .objcClass => "objc class"
  | .objcProtocol => "objc protocol"

namespace Fragment

def ofClass (symbols : SymbolTable) (stub : ClassStub) : List Fragment :=
  let scope := stub.classifier.qualifiedName
  { kind := stub.kind.word
    name := scope
    signature := String.intercalate ", " (stub.supertypes.map (·.qualifiedText)) } ::
    (stub.properties.map (ofProperty symbols scope) ++
      stub.functions.map (ofFunction symbols scope))

mutual

def ofTree (symbols : SymbolTable) (scope : String) : StubTree → List Fragment
  | ⟨classes, functions, properties, typealiases, groups⟩ =>
      typealiases.map ofTypealias ++ classes.flatMap (ofClass symbols) ++
        properties.map (ofProperty symbols scope) ++ functions.map (ofFunction symbols scope) ++
        ofGroups symbols scope groups

def ofGroups (symbols : SymbolTable) (scope : String) : List StubGroup → List Fragment
  | [] => []
  | ⟨_, name, members⟩ :: rest =>
      ofTree symbols (scope ++ "." ++ name) members ++ ofGroups symbols scope rest

end

end Fragment

namespace BindingModule

def fragments (module : BindingModule) (package : String) : List Fragment :=
  Fragment.ofTree module.symbols (module.packageName package) module.stubs

def annotations (module : BindingModule) : List String :=
  module.stubs.allFunctions.filterMap fun stub =>
    (module.symbols.functions.get? stub.id).map fun symbol =>
      Listing.callAnnotation symbol ++ " " ++ stub.name

end BindingModule

structure Metadata where
  package : String
  manifest : List (String × String)
  fragments : List Fragment
  annotations : List String

namespace Metadata

def ofModules (package : String) (manifest : List (String × String))
    (modules : List BindingModule) : Metadata where
  package
  manifest
  fragments := modules.flatMap (·.fragments package)
  annotations := modules.flatMap (·.annotations)

def fileName (package : String) : String := package ++ ".metadata.json"

def encode (metadata : Metadata) : Value :=
  .object [
    ("package", .string metadata.package),
    ("manifest", .texts metadata.manifest),
    ("fragments", .array (metadata.fragments.map Fragment.encode)),
    ("annotations", .strings metadata.annotations)]

def text (metadata : Metadata) : String := metadata.encode.pretty "" ++ "\n"

end Metadata

end NativeBindings
