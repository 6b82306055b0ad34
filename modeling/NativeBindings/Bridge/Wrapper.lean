import NativeBindings.Bridge.Callable
import NativeBindings.Bridge.Declarator
import NativeBindings.Naming.Run
import NativeBindings.Stub.BridgeTable

namespace NativeBindings

/-! # Wrappers

The target calls native code through symbols.  Where native code has none that can
be called from outside, a wrapper is written: a function with the calling
convention of C, whose address is bound to a symbol.
-/

/-- How a value crosses a wrapper's boundary: by itself, or by the address of native
memory.  The spelling is that of the value or of what the memory holds. -/
inductive Passing where
  | value (spelling : String)
  | address (spelling : String)
  deriving DecidableEq, Inhabited

namespace Passing

def declaration (name : String) : Passing → String
  | .value spelling => declare spelling name
  | .address spelling => spelling ++ "* " ++ name

def argument (name : String) : Passing → String
  | .value _ => name
  | .address _ => "*" ++ name

end Passing

/-- How a value of a type is passed.  Records and references are passed by address;
typedefs are looked through to find them. -/
def Index.passing (index : Index) (type : QualType) : Passing :=
  match (index.canonicalType type).shape with
  | .record _ => .address type.spelling
  | .leftReference pointee | .rightReference pointee => .address pointee.spelling
  | _ => .value type.spelling

def Index.resultPassing (index : Index) (type : QualType) : Option Passing :=
  if (index.canonicalType type).shape.isVoid then none else some (index.passing type)

def resultSpelling : Option Passing → String
  | none => "void"
  | some (.value spelling) => spelling
  | some (.address spelling) => spelling ++ "*"

def callStatement (call : String) : Option Passing → String
  | none => call ++ ";"
  | some (.value _) => "return " ++ call ++ ";"
  | some (.address _) => "return &(" ++ call ++ ");"

structure Wrapper where
  name : String
  result : String
  parameters : List String
  statement : String
  deriving DecidableEq, Inhabited

namespace Wrapper

/-- The wrapper's head without the type of its result. -/
def declarator (wrapper : Wrapper) : String :=
  wrapper.name ++ "(" ++ String.intercalate ", " wrapper.parameters ++ ")"

def lines (wrapper : Wrapper) : List String := [
  "__attribute__((always_inline))",
  declare wrapper.result wrapper.declarator ++ " \x7b",
  "    " ++ wrapper.statement,
  "\x7d"]

end Wrapper

/-- A symbol, and the function it is bound to: one that native code has, or a
wrapper. -/
inductive Binding where
  | toFunction (symbol function : String)
  | toWrapper (symbol : String) (wrapper : Wrapper)
  deriving DecidableEq, Inhabited

namespace Binding

def symbol : Binding → String
  | .toFunction symbol _ | .toWrapper symbol _ => symbol

def wrapper? : Binding → Option Wrapper
  | .toFunction .. => none
  | .toWrapper _ wrapper => some wrapper

def lines : Binding → List String
  | .toFunction symbol function => [bindSymbol symbol function]
  | .toWrapper symbol wrapper => wrapper.lines ++ [bindSymbol symbol wrapper.name]

def text (binding : Binding) : String :=
  String.intercalate "\n" binding.lines ++ "\n"

end Binding

def wrapperRole : String := "knifunptr"

namespace Index

variable (index : Index)

def passedParameters (position : Nat) : List Parameter → List (String × Passing)
  | [] => []
  | parameter :: rest =>
      ("p" ++ toString position, index.passing parameter.type) ::
        passedParameters (position + 1) rest

/-- The wrapper that calls a callable.  A method's object is its first parameter. -/
def callWrapper (callable : Callable) (name : String) : Wrapper :=
  let receiver := callable.receiver?.map fun owner => owner.name ++ "* p0"
  let passed := index.passedParameters receiver.toList.length callable.parameters
  let arguments := passed.map fun (name, passing) => passing.argument name
  let call := callable.callee ++ "(" ++ String.intercalate ", " arguments ++ ")"
  let result := index.resultPassing callable.result
  { name
    result := resultSpelling result
    parameters := receiver.toList ++ passed.map fun (name, passing) => passing.declaration name
    statement := callStatement call result }

/-- Makes a callable known under a symbol.  A variable number of arguments cannot be
handed on, so a variadic callable is bound itself. -/
def bindCallable (callable : Callable) (symbol : String) : StateM Run Binding := do
  if callable.isVariadic then pure (.toFunction symbol callable.nativeName)
  else
    let name ← Run.wrapperName wrapperRole callable.nativeName
    pure (.toWrapper symbol (index.callWrapper callable name))

end Index

def Getter.addressWrapper (getter : Getter) (name : String) : Wrapper where
  name
  result := "void*"
  parameters := []
  statement := "return (void*) &" ++ getter.nativeName ++ ";"

def Getter.valueWrapper (getter : Getter) (name : String) : Wrapper where
  name
  result := getter.nativeType.spelling
  parameters := []
  statement := "return " ++ getter.nativeName ++ ";"

def Getter.bindAddress (getter : Getter) (symbol : String) : StateM Run Binding := do
  let name ← Run.wrapperName wrapperRole (getter.nativeName ++ "_pointer_getter")
  pure (.toWrapper symbol (getter.addressWrapper name))

/-- Makes a native value readable under a symbol: by its address if it is read in
place. -/
def Getter.bind (getter : Getter) (symbol : String) : StateM Run Binding := do
  if getter.isAggregate then getter.bindAddress symbol
  else
    let name ← Run.wrapperName wrapperRole (getter.nativeName ++ "_getter")
    pure (.toWrapper symbol (getter.valueWrapper name))

def Setter.wrapper (setter : Setter) (name : String) : Wrapper where
  name
  result := "void"
  parameters := [declare setter.nativeType.spelling "p0"]
  statement := setter.nativeName ++ " = p0;"

def Setter.bind (setter : Setter) (symbol : String) : StateM Run Binding := do
  let name ← Run.wrapperName wrapperRole (setter.nativeName ++ "_setter")
  pure (.toWrapper symbol (setter.wrapper name))

end NativeBindings
