import NativeBindings.Naming.Classifier

namespace NativeBindings

/-! # The manifest of a run -/

namespace Run

/-- The qualified name of a forward declaration.  One that was not met is taken
for a struct. -/
def forwardName (run : Run) (name : String) : String :=
  match run.forwardDeclarations.get? name with
  | some classifier => classifier.qualifiedName
  | none => (Classifier.mk forwardStructs name).qualifiedName

def enumerationNames (run : Run) (strict : Bool) : List String :=
  (run.strictness.toList.filter (·.2 = strict)).map (·.1)

/-- What later tools have to know of the generated library, ascending by key. -/
def manifest (run : Run) : List (String × String) := [
  ("exportForwardDeclarations",
    String.intercalate " " (run.config.exportForwardDeclarations.map run.forwardName)),
  ("interop", "true"),
  ("nonStrictEnums", String.intercalate " " (run.enumerationNames false)),
  ("package", run.package),
  ("platform", run.config.platform.text),
  ("strictEnums", String.intercalate " " (run.enumerationNames true))]

end Run

end NativeBindings
