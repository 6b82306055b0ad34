import NativeBindings.Build.Attempt

namespace NativeBindings

/-! # Enumerations

A strict enumeration becomes a closed class.  Any other becomes an alias of its
base type with a constant property for each of its constants; one without a name is
nothing but the constants.
-/

namespace Index

def enumEntries (index : Index) (platform : Platform) (decl : EnumDecl) :
    Option (List EnumEntry) :=
  decl.constants.mapM fun constant =>
    (index.integralConstant? platform constant.value decl.base).map fun literal =>
      ⟨constant.name, literal⟩

end Index

def constantProperties (type : TargetType) : List EnumEntry → StateM Run (List StubElement)
  | [] => pure []
  | entry :: rest => do
      let id ← Run.freshStub
      let properties ← constantProperties type rest
      pure (.ofProperty { id, name := entry.name, type, kind := .constant entry.constant } ::
        properties)

namespace Index

def buildStrict (index : Index) (decl : EnumDecl) (classifier : Classifier)
    (base : Representation) (entries : List EnumEntry) : Draft (List StubElement) := do
  let id ← Run.freshStub
  let representation ← index.required ⟨classifier.name, false, .enumeration decl.id⟩
  Draft.edit (·.addEnumeration id representation)
  pure [.ofClass {
    id
    classifier
    kind := .enumeration entries base.target
    supertypes := [.interop "CEnum"] }]

/-- The aliases and constants of an enumeration that is not strict. -/
def buildOpen (classifier : Classifier) (base : Representation) (entries : List EnumEntry) :
    StateM Run (List StubElement) := do
  let value ← Run.freshStub
  let memory ← Run.freshStub
  let constants ← constantProperties (.ofClassifier classifier) entries
  pure ([
    .ofTypealias ⟨value, classifier, base.target⟩,
    .ofTypealias ⟨memory, classifier.variableOf, base.pointed⟩] ++ constants)

def buildEnum (index : Index) (decl : EnumDecl) : Draft (List StubElement) := do
  let base ← index.required decl.base
  let config := (← getThe Run).config
  match index.enumEntries config.platform decl with
  | none => throw (.unrepresentable decl.base.spelling)
  | some entries =>
      match ← index.classifier (.enumeration decl) with
      | none => constantProperties base.target entries
      | some classifier =>
          let strict := config.isStrict decl
          if let some name := decl.name then Run.recordStrictness name strict
          if strict then index.buildStrict decl classifier base entries
          else buildOpen classifier base entries

end Index

end NativeBindings
