import NativeBindings.Data.SortedMap

namespace NativeBindings

/-! # What a run is asked to do -/

/-- The platform the generated bindings are compiled for.  The virtual machine has
no unsigned primitives, and forward declarations have no packages of their own
there. -/
inductive Platform where
  | native
  | jvm
  deriving DecidableEq, Inhabited

def Platform.text : Platform → String
  | .native => "native"
  | .jvm => "jvm"

/-- What is written beside the bridge file: a source unit for each module, or one
module of metadata. -/
inductive Mode where
  | sourceCode
  | metadata
  deriving DecidableEq, Inhabited

structure Config where
  /-- Package of the generated declarations; derived from the library's name when
  missing or empty. -/
  package : Option String := none
  libraryName : String := "interop"
  excludedFunctions : SortedSet String := ∅
  excludedMacros : SortedSet String := ∅
  /-- Enumerations that become closed classes whatever their constants. -/
  strictEnums : SortedSet String := ∅
  nonStrictEnums : SortedSet String := ∅
  exportForwardDeclarations : List String := []
  platform : Platform := .native
  mode : Mode := .sourceCode
  /-- Name of a function that hands over to the runtime's main function. -/
  entryPoint : Option String := none
  extraPreamble : List String := []
  deriving Inhabited

end NativeBindings
