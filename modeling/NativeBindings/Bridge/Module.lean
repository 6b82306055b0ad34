import NativeBindings.Bridge.Wrapper
import NativeBindings.Stub.Tree

namespace NativeBindings

/-! # Binding a library's symbols

Every function that native code can be called for gets a symbol, and so does every
getter and setter of the bridge table.  Functions come first, in the order of the
tree; getters and setters follow, by the numbers of their stubs.
-/

structure SymbolTable where
  functions : SortedMap StubId String := ∅
  getters : SortedMap StubId String := ∅
  setters : SortedMap StubId String := ∅
  deriving Inhabited

namespace SymbolTable

def size (symbols : SymbolTable) : Nat :=
  symbols.functions.size + symbols.getters.size + symbols.setters.size

def isEmpty (symbols : SymbolTable) : Bool := symbols.size = 0

end SymbolTable

/-- A unit of generated code: stubs, and the symbols they are linked to.  The name
of a unit beside the main one ends in a suffix of its own. -/
structure BindingModule where
  suffix : Option String := none
  stubs : StubTree
  symbols : SymbolTable
  deriving Inhabited

/-- The native code for a library, and the units that call it. -/
structure Bridge where
  bindings : List Binding
  modules : List BindingModule
  deriving Inhabited

def Bridge.lines (bridge : Bridge) : List String := bridge.bindings.flatMap (·.lines)

inductive ResolveError where
  | declarationNotFound (id : DeclId)
  | methodNotFound (owner : DeclId) (index : Nat)
  | notBridged (name : String)
  deriving DecidableEq

def ResolveError.message : ResolveError → String
  | .declarationNotFound id => "Could not find native declaration \"" ++ id.text ++ "\""
  | .methodNotFound owner index =>
      "Could not find method " ++ toString index ++ " of class \"" ++ owner.text ++ "\""
  | .notBridged name =>
      "Function \"" ++ name ++ "\" is dispatched by the runtime and has no native bridge"

structure BridgeError where
  function : String
  cause : ResolveError
  deriving DecidableEq

def BridgeError.message (error : BridgeError) : String :=
  "Failed to generate bridge for \"" ++ error.function ++ "\""

namespace Index

def resolve (index : Index) (function : FunctionStub) : Except ResolveError Callable :=
  match function.origin with
  | .function id =>
      match index.functions.get? id with
      | some decl => .ok (.function decl)
      | none => .error (.declarationNotFound id)
  | .method owner number =>
      match index.classes.get? owner with
      | none => .error (.declarationNotFound owner)
      | some decl =>
          match decl.methods[number]? with
          | some method => .ok (.method decl method)
          | none => .error (.methodNotFound owner number)
  | .objcMethod .. => .error (.notBridged function.name)

end Index

/-- A symbol for a stub: it ends in the stub's number. -/
def stubSymbol (package name access : String) (id : StubId) : String :=
  "kni_" ++ symbolName package ++ "_" ++ symbolName name ++ access ++ "_" ++ toString id.number

abbrev Binds := ExceptT BridgeError (StateM Run)

structure BridgeDraft where
  bindings : List Binding := []
  symbols : SymbolTable := {}
  deriving Inhabited

namespace BridgeDraft

def addFunction (draft : BridgeDraft) (id : StubId) (symbol : String)
    (binding : Option Binding) : BridgeDraft where
  bindings := draft.bindings ++ binding.toList
  symbols := { draft.symbols with functions := draft.symbols.functions.insert id symbol }

def addGetter (draft : BridgeDraft) (id : StubId) (binding : Binding) : BridgeDraft where
  bindings := draft.bindings ++ [binding]
  symbols := { draft.symbols with getters := draft.symbols.getters.insert id binding.symbol }

def addSetter (draft : BridgeDraft) (id : StubId) (binding : Binding) : BridgeDraft where
  bindings := draft.bindings ++ [binding]
  symbols := { draft.symbols with setters := draft.symbols.setters.insert id binding.symbol }

end BridgeDraft

namespace Index

def bindFunction (index : Index) (draft : BridgeDraft) (function : FunctionStub) :
    Binds BridgeDraft := do
  match function.call with
  | .direct symbol => pure (draft.addFunction function.id symbol none)
  | .objcMessage => pure draft
  | .bridged =>
      match index.resolve function with
      | .error cause => throw ⟨function.name, cause⟩
      | .ok callable =>
          let package := (← getThe Run).package
          let symbol := stubSymbol package function.name "" function.id
          let binding ← index.bindCallable callable symbol
          pure (draft.addFunction function.id symbol (some binding))

end Index

def bindGetter (draft : BridgeDraft) (entry : StubId × Getter) : StateM Run BridgeDraft := do
  let (id, getter) := entry
  let package := (← get).package
  pure (draft.addGetter id (← getter.bind (stubSymbol package getter.nativeName "_get" id)))

def bindSetter (draft : BridgeDraft) (entry : StubId × Setter) : StateM Run BridgeDraft := do
  let (id, setter) := entry
  let package := (← get).package
  pure (draft.addSetter id (← setter.bind (stubSymbol package setter.nativeName "_set" id)))

namespace Index

/-- Binds everything that a tree and its bridge table need, for one module. -/
def bridge (index : Index) (stubs : StubTree) (table : BridgeTable) : Binds Bridge := do
  let draft ← stubs.allFunctions.foldlM index.bindFunction {}
  let draft ← table.getters.toList.foldlM (fun draft entry => bindGetter draft entry) draft
  let draft ← table.setters.toList.foldlM (fun draft entry => bindSetter draft entry) draft
  pure ⟨draft.bindings, [{ stubs, symbols := draft.symbols }]⟩

end Index

end NativeBindings
