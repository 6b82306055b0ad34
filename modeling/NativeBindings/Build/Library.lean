import NativeBindings.Build.Class
import NativeBindings.Build.Enumeration
import NativeBindings.Build.Function
import NativeBindings.Build.Record
import NativeBindings.Build.Typedef
import NativeBindings.Build.Value

namespace NativeBindings

/-! # Building all declarations

A declaration that cannot be built is skipped: it gives a report, and neither
stubs nor entries of the bridge table.
-/

structure Library where
  stubs : StubTree := ∅
  table : BridgeTable := ∅
  skipped : List Skipped := []
  deriving Inhabited

namespace Library

def add (library : Library) (built : Built) : Library :=
  { library with
    stubs := built.elements.foldl StubTree.push library.stubs
    table := library.table.merge built.table }

def skip (library : Library) (skipped : Skipped) : Library :=
  { library with skipped := library.skipped ++ [skipped] }

/-- The first stub that the bridge table speaks of and the tree does not have. -/
def dangling? (library : Library) : Option StubId :=
  let produced := library.stubs.ids
  library.table.referenced.find? (· ∉ produced)

end Library

/-- Is a declaration to give nothing at all? -/
def Config.excludes (config : Config) : Declaration → Bool
  | .function decl => config.excludedFunctions.contains decl.name
  | .macroConstant decl => config.excludedMacros.contains decl.name
  | .wrappedMacro decl => config.excludedMacros.contains decl.name
  | .global _ | .struct _ | .enumeration _ | .typedef _ | .objcProtocol _ | .objcClass _
  | .objcCategory _ | .nativeClass _ => false

namespace Index

def draftDeclaration (index : Index) (decl : Declaration) : Draft (List StubElement) :=
  Attempt.within (.inDeclaration decl.kind decl.displayName) <|
    match decl with
    | .struct decl => index.buildStruct decl
    | .enumeration decl => index.buildEnum decl
    | .typedef decl => index.buildTypedef decl
    | .nativeClass decl => index.buildClass decl
    | .objcProtocol decl => index.buildProtocol decl
    | .objcClass decl => index.buildObjCClass decl
    | .objcCategory decl => index.buildCategory decl
    | .global decl => index.buildGlobal decl
    | .function decl => index.buildFunction decl
    | .macroConstant decl => index.buildMacroConstant decl
    | .wrappedMacro decl => index.buildWrappedMacro decl

/-- Each declaration writes into a table of its own.  That of one that cannot be built is
dropped, whatever is in it. -/
def addDeclaration (index : Index) (library : Library) (decl : Declaration) :
    StateM Run Library := do
  let (result, table) ← (index.draftDeclaration decl).run.run ∅
  match result with
  | .ok elements => pure (library.add { elements, table })
  | .error error => pure (library.skip ⟨decl.kind, decl.displayName, error.report⟩)

def addDeclarations (index : Index) (library : Library) :
    List Declaration → StateM Run Library
  | [] => pure library
  | decl :: rest => do
      let library ← index.addDeclaration library decl
      index.addDeclarations library rest

def build (index : Index) : Attempt Library := do
  let config := (← getThe Run).config
  let wanted := index.declarations.filter (!config.excludes ·)
  let library ← index.addDeclarations {} wanted
  match library.dangling? with
  | some id => throw (.dangling id)
  | none => pure library

end Index

end NativeBindings
