import NativeBindings.Bridge.Module
import NativeBindings.Bridge.SourceFile

namespace NativeBindings

/-! # Listings

A listing shows the stubs of a module in the target's own syntax, with the symbols
they are linked to.
-/

def BindingModule.packageName (module : BindingModule) (package : String) : String :=
  match module.suffix with
  | some suffix => package ++ "." ++ suffix
  | none => package

namespace Listing

/-- Extension of the files that hold listings. -/
def extension : String := "kt"

def receiverText : Option TargetType → String
  | some receiver => receiver.text ++ "."
  | none => ""

def parameterText (parameter : ParameterStub) : String :=
  (if parameter.isVararg then "vararg " else "") ++ parameter.name ++ ": " ++ parameter.type.text

def typealiasLine (stub : TypealiasStub) : String :=
  "typealias " ++ stub.classifier.name ++ " = " ++ stub.aliasee.text

/-- What is said of a property's symbols.  Those of a variable are given together
or not at all. -/
def propertyNote (symbols : SymbolTable) (stub : PropertyStub) : String :=
  match stub.kind, symbols.getters.get? stub.id, symbols.setters.get? stub.id with
  | .val _, some getter, _ => " // get " ++ getter
  | .var .., some getter, some setter => " // get " ++ getter ++ ", set " ++ setter
  | _, _, _ => ""

def propertyLine (symbols : SymbolTable) (indent : String) (stub : PropertyStub) : String :=
  let declaration := receiverText stub.receiver ++ stub.name ++ ": " ++ stub.type.text
  match stub.kind with
  | .constant constant => indent ++ "const val " ++ declaration ++ " = " ++ constant.text
  | .val _ => indent ++ "val " ++ declaration ++ propertyNote symbols stub
  | .var .. => indent ++ "var " ++ declaration ++ propertyNote symbols stub

def callAnnotation (symbol : String) : String := "@CCall(\"" ++ symbol ++ "\")"

def functionLines (symbols : SymbolTable) (indent : String) (stub : FunctionStub) :
    List String :=
  let annotation := (symbols.functions.get? stub.id).map fun symbol =>
    indent ++ callAnnotation symbol
  annotation.toList ++ [
    indent ++ (if stub.isStatic then "static " else "") ++ "fun " ++
      receiverText stub.receiver ++ stub.name ++ "(" ++
      String.intercalate ", " (stub.parameters.map parameterText) ++ "): " ++ stub.result.text]

def memberLines (symbols : SymbolTable) (stub : ClassStub) : List String :=
  stub.properties.map (propertyLine symbols "    ") ++
    stub.functions.flatMap (functionLines symbols "    ")

def classLines (symbols : SymbolTable) (stub : ClassStub) : List String :=
  let supertypes := String.intercalate ", " (stub.supertypes.map (·.text))
  let head := stub.classifier.name ++ " : " ++ supertypes
  match stub.kind with
  | .struct size align isUnion =>
      ("// " ++ (if isUnion then "union" else "struct") ++ ", size " ++ toString size.toNat ++
        ", align " ++ toString align.toNat) ::
        ("class " ++ head ++ " \x7b") :: memberLines symbols stub ++ ["\x7d"]
  | .forwardStruct => ["class " ++ head]
  | .enumeration entries base =>
      ("enum class " ++ stub.classifier.name ++ "(val value: " ++ base.text ++ ") : " ++
        supertypes ++ " \x7b") ::
        entries.map (fun entry => "    " ++ entry.name ++ "(" ++ entry.constant.text ++ "),") ++
        ["\x7d"]
  | .nativeClass | .objcClass =>
      ("class " ++ head ++ " \x7b") :: memberLines symbols stub ++ ["\x7d"]
  | .objcProtocol =>
      ("interface " ++ head ++ " \x7b") :: memberLines symbols stub ++ ["\x7d"]

mutual

/-- The lines of a tree; an empty one stands before each declaration. -/
def treeLines (symbols : SymbolTable) : StubTree → List String
  | ⟨classes, functions, properties, typealiases, groups⟩ =>
      typealiases.flatMap (fun stub => ["", typealiasLine stub]) ++
        classes.flatMap (fun stub => "" :: classLines symbols stub) ++
        properties.flatMap (fun stub => ["", propertyLine symbols "" stub]) ++
        functions.flatMap (fun stub => "" :: functionLines symbols "" stub) ++
        groupLines symbols groups

def groupLines (symbols : SymbolTable) : List StubGroup → List String
  | [] => []
  | ⟨_, name, members⟩ :: rest =>
      ["", "// " ++ name] ++ treeLines symbols members ++ groupLines symbols rest

end

def text (package : String) (module : BindingModule) : String :=
  textOfLines
    (("package " ++ module.packageName package) :: treeLines module.symbols module.stubs)

end Listing

end NativeBindings
