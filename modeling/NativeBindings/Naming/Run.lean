import NativeBindings.Config
import NativeBindings.Data.SlotMap
import NativeBindings.Naming.WrapperNames
import NativeBindings.Native.Type
import NativeBindings.Stub.Element
import NativeBindings.Text.PackageName

namespace NativeBindings

/-! # What a run remembers

Names and numbers are handed out in the order in which they are asked for, and an
answer once given stands for the rest of the run.
-/

structure Run where
  config : Config
  package : String
  /-- The structs without a name, in the order in which they were first named. -/
  anonymousStructs : List DeclId := []
  /-- The classifiers decided so far; some declarations have none. -/
  classifiers : SlotMap DeclId (Option Classifier) := ∅
  /-- The forward declarations met so far, by simple name. -/
  forwardDeclarations : SortedMap String Classifier := ∅
  /-- Whether the enumerations built so far are strict, by name. -/
  strictness : SortedMap String Bool := ∅
  nextStub : Nat := 1
  wrapperNames : WrapperNames

/-- The package asked for, or the one that the library's name gives. -/
def Config.effectivePackage (config : Config) : String :=
  match config.package with
  | some package => if package = "" then packageOfLibrary config.libraryName else package
  | none => packageOfLibrary config.libraryName

namespace Run

def start (config : Config) : Run where
  config
  package := config.effectivePackage
  wrapperNames := .ofPackage config.effectivePackage

/-- The number of an anonymous struct, counted from one; a struct that has none
yet takes the next. -/
def anonymousNumber (id : DeclId) : StateM Run Nat := do
  let run ← get
  match run.anonymousStructs.idxOf? id with
  | some place => pure (place + 1)
  | none =>
      set { run with anonymousStructs := run.anonymousStructs ++ [id] }
      pure (run.anonymousStructs.length + 1)

def anonymousName (id : DeclId) : StateM Run String := do
  pure ("anonymousStruct" ++ toString (← anonymousNumber id))

def freshStub : StateM Run StubId :=
  modifyGet fun run => (⟨run.nextStub⟩, { run with nextStub := run.nextStub + 1 })

/-- A name that no other native code of the run has. -/
def wrapperName (role base : String) : StateM Run String :=
  modifyGet fun run =>
    (run.wrapperNames.name role base, { run with wrapperNames := run.wrapperNames.advance })

def recordForward (name : String) (classifier : Classifier) : StateM Run Unit :=
  modify fun run =>
    { run with forwardDeclarations := run.forwardDeclarations.insert name classifier }

def recordStrictness (name : String) (strict : Bool) : StateM Run Unit :=
  modify fun run => { run with strictness := run.strictness.insert name strict }

end Run

end NativeBindings
